import DashTwrp.PrepareFragments.Frame
import DashTwrp.PrepareFragments.PairedSteps

namespace DashTwrp.PrepareFragments

open DashTwrp.Python DashTwrp.Unix DashTwrp.VendorBoot
open DashTwrp.RepackF1 (subtreeAt subtreeAt_congr)

/-! Runs of the fragment tool on hosts on which earlier runs have left their outputs. -/

/-- Files, or nothing, are where the outputs will be. -/
structure Writable (args : Arguments) (fs : FileSystem Bytes) : Prop where
  directory : fs.node args.directory = some .directory
  files : ∀ output ∈ args.outputFiles, fs.node (output :: args.directory) = none ∨
    ∃ old, fs.node (output :: args.directory) = some (.file old)

/-- The tool looks for nothing in its outputs, and no link leads there. -/
structure QuietRun (tools : Tools) (args : Arguments) (tmpdir : Location) (host : FileSystem Bytes) :
    Prop where
  writable : Writable args host
  links : LinksBlind args.outputFiles host
  clear : Clear args tmpdir
  apart : ¬ tmpdir <:+ args.directory
  staging : ∀ tree ∈ args.staging, Clear args tree
  dtroot : Clear args args.dtroot
  stock : ∀ tree, stockTree tools args = .ok tree →
    LinksBlind args.outputFiles tree ∧ Unlinked tree [] recoveryNames
  ci : ∀ tree, ciTree tools args = .ok tree → LinksBlind args.outputFiles tree
  validated : ∀ tree, validatedTree tools args = .ok tree → LinksBlind args.outputFiles tree

/-- A host that differs in what earlier runs have written. -/
structure Leftovers (args : Arguments) (host fs : FileSystem Bytes) : Prop where
  same : ∀ location, Clear args location → fs.node location = host.node location
  writable : Writable args fs

section

variable {tools : Tools} {args : Arguments} {tmpdir : Location}
  {host first second one other : FileSystem Bytes}

theorem QuietRun.entry (quiet : QuietRun tools args tmpdir host) {name : Name}
    (plain : NoOutput name) : Clear args (name :: tmpdir) :=
  not_hidden_cons quiet.clear plain.not_mem

theorem QuietRun.below (quiet : QuietRun tools args tmpdir host) {location : Location}
    (under : tmpdir <:+ location) : ¬ location <:+ args.directory :=
  fun around => quiet.apart (under.trans around)

/-- What lies under an entry of the new directory is the same in both. -/
theorem QuietRun.inner_clear (quiet : QuietRun tools args tmpdir host) {name : Name}
    (plain : NoOutput name) (inner : List Name) : Clear args (inner ++ name :: tmpdir) :=
  not_hidden_below (quiet.entry plain) (quiet.below (List.suffix_cons _ _)) (List.suffix_append _ _)

/-! ### F0 -/

theorem makeF0_paired (quiet : QuietRun tools args tmpdir host) {stkFrags ciFrags : List Bytes}
    (stkParsed : parse args.stock = .ok stkFrags) (ciParsed : parse args.ci = .ok ciFrags)
    (paired : PairedOutputs args first second one other)
    (directory : one.node tmpdir = some .directory) (free : one.node (f0d tmpdir) = none) :
    Matches (PairedOutputs args first second) (makeF0 tools tmpdir stkFrags ciFrags one)
      (makeF0 tools tmpdir stkFrags ciFrags other) := by
  have f0Plain : NoOutput "_f0" := by decide
  have ciPlain : NoOutput "_ci_f1" := by decide
  have f0Clear : Clear args (f0d tmpdir) := quiet.entry f0Plain
  have ciClear : Clear args (ciF1d tmpdir) := quiet.entry ciPlain
  have recoveryBlind : Blind args.outputFiles (PurePath.ofNames recoveryNames).steps :=
    outputs_blind (by decide)
  have resBlind : Blind args.outputFiles (PurePath.ofNames resNames).steps :=
    outputs_blind (by decide)
  have twrp16Blind : Blind args.outputFiles (PurePath.ofNames twrp16Names).steps :=
    outputs_blind (by decide)
  have libsPlain : ∀ lib ∈ twrp16Libs, NoOutput lib := by decide
  unfold makeF0
  cases stkFound : fragment stkFrags 0 with
  | error error => rfl
  | ok stkF0 =>
      have stockLinks (tree : FileSystem Bytes) (unpacked : tools.stock.unpacked stkF0 = .ok tree) :
          LinksBlind args.outputFiles tree ∧ Unlinked tree [] recoveryNames :=
        quiet.stock tree (imageTree_eq_ok stkParsed stkFound unpacked)
      have extracted := decompressFragment_paired paired quiet.clear f0Plain.not_mem quiet.apart
        fun tree unpacked => (stockLinks tree unpacked).1
      refine (matches_mapError extracted RunError.os).bind fun withStock _ extracts paired => ?_
      obtain ⟨stock, unpacked, planted⟩ := decompressFragment_planted (mapError_eq_ok.mp extracts)
      have planted : Planted (f0d tmpdir) one stock withStock := planted directory free
      have recovery : Unlinked withStock (f0d tmpdir) recoveryNames :=
        planted.unlinked (stockLinks stock unpacked).2
      have removed := removePath_paired paired f0Clear recoveryBlind fun location located => by
        rw [recovery.locate_ends located]
        exact quiet.below ((List.suffix_cons _ _).trans (suffix_place _ _))
      refine (matches_mapError removed RunError.os).bind fun _ _ _ paired => ?_
      have removed := removePath_paired paired f0Clear resBlind fun location located => by
        rw [locate_single located]
        exact quiet.below ((List.suffix_cons _ _).trans (List.suffix_cons _ _))
      refine (matches_mapError removed RunError.os).bind fun _ _ _ paired => ?_
      cases ciFound : fragment ciFrags 1 with
      | error error => rfl
      | ok ciF1 =>
          have extracted := decompressFragment_paired paired quiet.clear ciPlain.not_mem quiet.apart
            fun tree unpacked => quiet.ci tree (imageTree_eq_ok ciParsed ciFound unpacked)
          refine (matches_mapError extracted RunError.os).bind fun _ _ _ paired => ?_
          have made := makedirs_paired paired f0Clear twrp16Blind true
          refine (matches_mapError made RunError.os).bind fun _ _ _ paired => ?_
          have copied := copyLibs_paired paired ciClear f0Clear libsPlain
          refine (matches_mapError copied RunError.os).bind fun _ _ _ paired => ?_
          exact matches_mapError (editScript_paired paired f0Clear) RunError.prepare

/-! ### F1 -/

theorem decompressFragment_top {unpacker : Unpacker} {data : Bytes} {dest : Name}
    (extracted : decompressFragment unpacker one data tmpdir dest = .ok other) :
    other.node (dest :: tmpdir) = some .directory := by
  unfold decompressFragment at extracted
  obtain ⟨cleared, _, extracted⟩ := except_bind_eq_ok extracted
  obtain ⟨made, _, extracted⟩ := except_bind_eq_ok extracted
  obtain ⟨r, _, extracted⟩ := except_bind_eq_ok extracted
  obtain ⟨p, _, extracts⟩ := except_bind_eq_ok extracted
  exact extractInto_top extracts

/-- The removal of the former new tree leaves the validated one. -/
theorem removeTree_new {cleared : FileSystem Bytes}
    (removed : removeTree one tmpdir (.ofNames newF1Names) = .ok cleared) (place : Location)
    (off : ¬ f1d tmpdir <:+ place) : cleared.node place = one.node place := by
  unfold removeTree at removed
  split at removed
  · obtain ⟨location, located, without⟩ := rmtree_removes _ _ _ _ removed
    have here : location = f1d tmpdir := locate_single located
    rw [without place, here, if_neg off]
  · cases removed
    rfl

theorem overlayStaging_paired (quiet : QuietRun tools args tmpdir host)
    (paired : PairedOutputs args first second one other) :
    PairedResults args.directory args.outputFiles first second
      (overlayStaging args.staging (f1d tmpdir) one)
      (overlayStaging args.staging (f1d tmpdir) other) := by
  have f1Clear : Clear args (f1d tmpdir) := quiet.entry (by decide)
  cases given : args.staging with
  | none => exact paired
  | some tree =>
      have plain : ∀ rel ∈ stagingOverlayFiles, ∀ name ∈ rel, NoOutput name := by decide
      have step (rel : List Name) (member : rel ∈ stagingOverlayFiles) (one other : FileSystem Bytes)
          (paired : PairedOutputs args first second one other) :
          PairedResults args.directory args.outputFiles first second
            (overlayStagingFile tree (f1d tmpdir) one rel)
            (overlayStagingFile tree (f1d tmpdir) other rel) :=
        overlayStagingFile_paired paired (quiet.staging tree given) f1Clear (plain rel member)
      exact matches_foldlM step paired

theorem f1Transform_paired (quiet : QuietRun tools args tmpdir host)
    (paired : PairedOutputs args first second one other)
    (top : one.node (valF1d tmpdir) = some .directory) :
    PairedResults args.directory args.outputFiles first second
      (f1Transform one tmpdir args.staging args.dtroot)
      (f1Transform other tmpdir args.staging args.dtroot) := by
  have valBlind : Blind args.outputFiles (PurePath.ofNames valF1Names).steps :=
    outputs_blind (by decide)
  have newBlind : Blind args.outputFiles (PurePath.ofNames newF1Names).steps :=
    outputs_blind (by decide)
  have rcsPlain : ∀ rc ∈ dtOverlayRcs, NoOutput rc := by decide
  have f1Clear : Clear args (f1d tmpdir) := quiet.entry (by decide)
  unfold f1Transform
  have removed := removeTree_paired paired quiet.clear newBlind fun location located => by
    rw [locate_single located]
    exact quiet.below (List.suffix_cons _ _)
  refine removed.bind fun cleared _ removes paired => ?_
  have there : cleared.node (valF1d tmpdir) = some .directory := by
    have off : ¬ f1d tmpdir <:+ valF1d tmpdir := entry_apart (by decide)
    rw [removeTree_new removes _ off, top]
  have inside : cleared.node tmpdir = some .directory :=
    cleared.parents "_val_f1" tmpdir (by rw [show "_val_f1" :: tmpdir = valF1d tmpdir from rfl, there]; simp)
  have origin : cleared.locate true tmpdir (.ofNames valF1Names) = .ok (valF1d tmpdir) :=
    locate_entry inside (fun target => by
      rw [show "_val_f1" :: tmpdir = valF1d tmpdir from rfl, there]
      simp) true
  have copied := copytree_paired paired (paired.locate true quiet.clear valBlind)
    (fun source located inner => by
      rw [origin] at located
      cases located
      have clear : Clear args (inner ++ valF1d tmpdir) := quiet.inner_clear (by decide) inner
      exact ⟨paired.same _ clear, fun target found => paired.links _ target clear found⟩)
    quiet.clear newBlind
  refine copied.bind fun _ _ _ paired => ?_
  refine (overlayStaging_paired quiet paired).bind fun _ _ _ paired => ?_
  have step (rc : Name) (member : rc ∈ dtOverlayRcs) (one other : FileSystem Bytes)
      (paired : PairedOutputs args first second one other) :
      PairedResults args.directory args.outputFiles first second
        (overlayRc args.dtroot (f1d tmpdir) one rc) (overlayRc args.dtroot (f1d tmpdir) other rc) :=
    overlayRc_paired paired quiet.dtroot f1Clear (rcsPlain rc member)
  exact matches_foldlM step paired

theorem makeF1_paired (quiet : QuietRun tools args tmpdir host) {valFrags : List Bytes}
    (parsed : parse args.validated = .ok valFrags)
    (paired : PairedOutputs args first second one other) :
    Matches (PairedOutputs args first second) (makeF1 tools args tmpdir valFrags one)
      (makeF1 tools args tmpdir valFrags other) := by
  have valPlain : NoOutput "_val_f1" := by decide
  unfold makeF1
  cases found : fragment valFrags 1 with
  | error error => rfl
  | ok valF1 =>
      have extracted := decompressFragment_paired paired quiet.clear valPlain.not_mem quiet.apart
        fun tree unpacked => quiet.validated tree (imageTree_eq_ok parsed found unpacked)
      refine (matches_mapError extracted RunError.os).bind fun _ _ extracts paired => ?_
      have top := decompressFragment_top (mapError_eq_ok.mp extracts)
      exact matches_mapError (f1Transform_paired quiet paired top) RunError.os

/-! ### The packing -/

/-- Two calls, each with its own programs, pack one tree. -/
theorem packCpioLz4_paired (quiet : QuietRun tools args tmpdir host)
    (paired : PairedOutputs args first second one other) {name : Name} (plain : NoOutput name)
    {packer packerOther : Packer} {packed packedOther : Bytes}
    (packs : packCpioLz4 packer one (name :: tmpdir) = .ok packed)
    (packsOther : packCpioLz4 packerOther other (name :: tmpdir) = .ok packedOther) :
    ∃ tree, packTree packer tree = .ok packed ∧ packTree packerOther tree = .ok packedOther := by
  unfold packCpioLz4 at packs packsOther
  rw [← subtreeAt_congr fun inner => paired.same _ (quiet.inner_clear plain inner)] at packsOther
  obtain ⟨tree, read, packs⟩ := except_bind_eq_ok packs
  obtain ⟨treeOther, readOther, packsOther⟩ := except_bind_eq_ok packsOther
  cases read.symm.trans readOther
  exact ⟨tree, packs, packsOther⟩

theorem prepareF0_paired (quiet : QuietRun tools args tmpdir host)
    (paired : PairedOutputs args first second one other) :
    Matches (fun made madeOther => made.1 = madeOther.1 ∧ parse args.validated = .ok made.1 ∧
        PairedOutputs args first second made.2 madeOther.2)
      (prepareF0 tools args tmpdir one) (prepareF0 tools args tmpdir other) := by
  unfold prepareF0
  have made : PairedResults args.directory args.outputFiles first second (mkdtemp one tmpdir)
      (mkdtemp other tmpdir) := createAt_paired paired quiet.clear fun _ isLink => by cases isLink
  refine (matches_mapError made RunError.os).bind fun emptied _ makes paired => ?_
  obtain ⟨directory, free⟩ := (mkdtemp_ok (mapError_eq_ok.mp makes)).2.emptied
  cases parsed : parseImages args with
  | error error => rfl
  | ok frags =>
      obtain ⟨stkFrags, ciFrags, valFrags⟩ := frags
      unfold parseImages at parsed
      obtain ⟨stk, stkParsed, parsed⟩ := except_bind_eq_ok parsed
      obtain ⟨ci, ciParsed, parsed⟩ := except_bind_eq_ok parsed
      obtain ⟨val, valParsed, parsed⟩ := except_bind_eq_ok parsed
      cases parsed
      have f0 := makeF0_paired quiet (mapError_eq_ok.mp stkParsed) (mapError_eq_ok.mp ciParsed) paired
        directory (free _)
      exact f0.bind fun _ _ _ paired => ⟨rfl, mapError_eq_ok.mp valParsed, paired⟩

/-- What is to be written, from trees that differ only in the outputs. -/
structure SamePacked (tools later : Tools) (args : Arguments) (first second : FileSystem Bytes)
    (packed packedOther : Packed) : Prop where
  f0Lz4 : ∃ tree, packTree tools.f0 tree = .ok packed.f0Lz4 ∧ packTree later.f0 tree = .ok packedOther.f0Lz4
  f1Lz4 : ∃ tree, packTree tools.f1 tree = .ok packed.f1Lz4 ∧ packTree later.f1 tree = .ok packedOther.f1Lz4
  paired : PairedOutputs args first second packed.fs packedOther.fs

/-- The programs of a run with those that pack exchanged. -/
def Tools.repacking (tools : Tools) (f0 f1 : Packer) : Tools := { tools with f0, f1 }

theorem prepare_paired (quiet : QuietRun tools args tmpdir host) {f0 f1 : Packer}
    (paired : PairedOutputs args first second one other) {packed packedOther : Packed}
    (prepared : prepare tools args tmpdir one = .ok packed)
    (preparedOther : prepare (tools.repacking f0 f1) args tmpdir other = .ok packedOther) :
    SamePacked tools (tools.repacking f0 f1) args first second packed packedOther := by
  unfold prepare at prepared preparedOther
  obtain ⟨⟨valFrags, withF0⟩, f0Made, prepared⟩ := except_bind_eq_ok prepared
  obtain ⟨⟨valFragsOther, withF0Other⟩, f0MadeOther, preparedOther⟩ := except_bind_eq_ok preparedOther
  have ends := prepareF0_paired quiet paired
  change prepareF0 tools args tmpdir other = _ at f0MadeOther
  rw [f0Made, f0MadeOther] at ends
  obtain ⟨rfl, parsed, paired⟩ := ends
  obtain ⟨f0Lz4, packsF0, prepared⟩ := except_bind_eq_ok prepared
  obtain ⟨f0Lz4Other, packsF0Other, preparedOther⟩ := except_bind_eq_ok preparedOther
  obtain ⟨withF1, f1Made, prepared⟩ := except_bind_eq_ok prepared
  obtain ⟨withF1Other, f1MadeOther, preparedOther⟩ := except_bind_eq_ok preparedOther
  have pairedF1 := makeF1_paired quiet parsed paired
  change makeF1 tools args tmpdir valFrags withF0Other = _ at f1MadeOther
  rw [f1Made, f1MadeOther] at pairedF1
  obtain ⟨f1Lz4, packsF1, prepared⟩ := except_bind_eq_ok prepared
  obtain ⟨f1Lz4Other, packsF1Other, preparedOther⟩ := except_bind_eq_ok preparedOther
  cases prepared
  cases preparedOther
  exact ⟨packCpioLz4_paired quiet paired (by decide) (mapError_eq_ok.mp packsF0)
      (mapError_eq_ok.mp packsF0Other),
    packCpioLz4_paired quiet pairedF1 (by decide) (mapError_eq_ok.mp packsF1)
      (mapError_eq_ok.mp packsF1Other), pairedF1⟩

/-! ### The outputs -/

theorem Writable.removeExisting {fs : FileSystem Bytes} (writable : Writable args fs) {output : Name}
    (member : output ∈ args.outputFiles) :
    ∃ after, Python.removeExisting osRemove fs args.directory (.ofNames [output]) = .ok after ∧
      Writable args after := by
  obtain ⟨after, removed, without⟩ :=
    removeExisting_entry writable.directory (writable.files output member)
  refine ⟨after, removed, ?_, fun listed listedMember => ?_⟩
  · rw [without, if_neg (not_suffix_tail _), writable.directory]
  · rw [without]
    split
    · exact .inl rfl
    · exact writable.files listed listedMember

theorem Writable.writeFile {fs : FileSystem Bytes} (writable : Writable args fs) {output : Name}
    (member : output ∈ args.outputFiles) (data : Bytes) :
    ∃ after, Python.writeFile fs args.directory (.ofNames [output]) data = .ok after ∧
      Writable args after := by
  obtain ⟨after, written, changed⟩ :=
    writeFile_entry writable.directory (writable.files output member) data
  refine ⟨after, written, ?_, fun listed listedMember => ?_⟩
  · rw [changed, Function.update_of_ne (by simp), writable.directory]
  · rw [changed]
    by_cases same : listed = output
    · rw [same, Function.update_self]
      exact .inr ⟨data, rfl⟩
    · rw [Function.update_of_ne (by simpa using same)]
      exact writable.files listed listedMember

/-- The outputs are written where files are, or nothing. -/
theorem publish_total {packed : Packed} (writable : Writable args packed.fs) :
    ∃ after, publish args packed = .ok after ∧ Published args packed after := by
  have f0Member : args.f0File ∈ args.outputFiles := by simp [Arguments.outputFiles]
  have f1Member : args.f1File ∈ args.outputFiles := by simp [Arguments.outputFiles]
  have manifestMember : args.manifestFile ∈ args.outputFiles := by simp [Arguments.outputFiles]
  have unlinked (output : Name) (listed : output ∈ args.outputFiles) :
      Unlinked packed.fs args.directory [output] :=
    unlinked_single writable.directory fun target found => by
      rcases writable.files output listed with absent | file
      · rw [absent] at found
        cases found
      · obtain ⟨old, there⟩ := file
        rw [there] at found
        cases found
  obtain ⟨withoutF0, first, writableF0⟩ := writable.removeExisting f0Member
  obtain ⟨withoutF1, second, writableF1⟩ := writableF0.removeExisting f1Member
  obtain ⟨withF0, third, writable⟩ := writableF1.writeFile f0Member packed.f0Lz4
  obtain ⟨withF1, fourth, writable⟩ := writable.writeFile f1Member packed.f1Lz4
  obtain ⟨after, last, _⟩ := writable.writeFile manifestMember args.manifestBytes
  have published : publish args packed = .ok after := by
    unfold publish
    rw [first]
    change (Python.removeExisting osRemove withoutF0 args.directory _ >>= _) = _
    rw [second]
    change (Python.writeFile withoutF1 args.directory _ _ >>= _) = _
    rw [third]
    change (Python.writeFile withF0 args.directory _ _ >>= _) = _
    rw [fourth]
    exact last
  exact ⟨after, published, publish_ok unlinked published⟩

theorem Published.node_below {packed : Packed} {after : FileSystem Bytes}
    (published : Published args packed after) {output : Name} (member : output ∈ args.outputFiles)
    {inner : List Name} (nonempty : inner ≠ []) :
    after.node (inner ++ output :: args.directory) = none := by
  refine after.none_below inner nonempty ?_
  simp only [Arguments.outputFiles, List.mem_cons, List.not_mem_nil, or_false] at member
  rcases member with rfl | rfl | rfl
  · rw [published.f0]
    simp
  · rw [published.f1]
    simp
  · rw [published.manifest]
    simp

/-- Off the two archives the outputs are the same, and so is everything else. -/
theorem SamePacked.published {later : Tools} {packed packedOther : Packed}
    {after afterOther : FileSystem Bytes}
    (same : SamePacked tools later args first second packed packedOther)
    (published : Published args packed after) (publishedOther : Published args packedOther afterOther)
    {location : Location} (notF0 : location ≠ args.f0File :: args.directory)
    (notF1 : location ≠ args.f1File :: args.directory) :
    afterOther.node location = after.node location := by
  by_cases hidden : Hidden args.directory args.outputFiles location
  · obtain ⟨output, member, inner, rfl⟩ := hidden
    by_cases top : inner = []
    · have listed := member
      simp only [Arguments.outputFiles, List.mem_cons, List.not_mem_nil, or_false] at listed
      rw [top, List.nil_append] at notF0 notF1 ⊢
      rcases listed with rfl | rfl | rfl
      · exact absurd rfl notF0
      · exact absurd rfl notF1
      · rw [published.manifest, publishedOther.manifest]
    · rw [published.node_below member top, publishedOther.node_below member top]
  · have off (output : Name) (member : output ∈ args.outputFiles) :
        ¬ output :: args.directory <:+ location := fun below => hidden ⟨output, member, below⟩
    rw [published.same location off, publishedOther.same location off, same.paired.same location hidden]

/-! ### The run -/

/-- The two archives of two runs are made of the same trees, and the rest is the same. -/
structure SameRuns (tools later : Tools) (args : Arguments) (one other : FileSystem Bytes) : Prop where
  f0 : ∃ tree data dataOther, packTree tools.f0 tree = .ok data ∧ packTree later.f0 tree = .ok dataOther ∧
    one.node (args.f0File :: args.directory) = some (.file data) ∧
      other.node (args.f0File :: args.directory) = some (.file dataOther)
  f1 : ∃ tree data dataOther, packTree tools.f1 tree = .ok data ∧ packTree later.f1 tree = .ok dataOther ∧
    one.node (args.f1File :: args.directory) = some (.file data) ∧
      other.node (args.f1File :: args.directory) = some (.file dataOther)
  rest : ∀ location, location ≠ args.f0File :: args.directory →
    location ≠ args.f1File :: args.directory → other.node location = one.node location

theorem QuietRun.output_off (quiet : QuietRun tools args tmpdir host) {output : Name}
    (member : output ∈ args.outputFiles) : ¬ tmpdir <:+ output :: args.directory := by
  intro under
  rcases List.suffix_cons_iff.mp under with same | inside
  · exact quiet.clear ⟨output, member, same ▸ List.suffix_refl _⟩
  · exact quiet.apart inside

/-- A run writes its archives and its manifest, and what else it leaves is what it packs. -/
theorem main_published {later : Tools} {fs after : FileSystem Bytes}
    (run : main later args tmpdir fs = .ok after) {packed : Packed}
    (prepared : prepare later args tmpdir fs = .ok packed) (writable : Writable args packed.fs) :
    ∃ published, Published args packed published ∧
      ∀ location, after.node location = if tmpdir <:+ location then none else published.node location := by
  obtain ⟨_, published, again, publishes, rfl⟩ := main_eq_ok run
  cases prepared.symm.trans again
  obtain ⟨same, publishesAgain, ends⟩ := publish_total writable
  cases publishes.symm.trans publishesAgain
  exact ⟨published, ends, VerifyFragments.rmtreeIgnore_node (prepare_tmpdir prepared)⟩

theorem SamePacked.writable {later : Tools} {packed packedOther : Packed}
    (same : SamePacked tools later args first second packed packedOther) (writable : Writable args first)
    (writableOther : Writable args second) :
    Writable args packed.fs ∧ Writable args packedOther.fs := by
  have directory := same.paired.directory
  have kept (output : Name) (member : output ∈ args.outputFiles) :=
    same.paired.kept (output :: args.directory) ⟨output, member, List.suffix_refl _⟩
  refine ⟨⟨directory, fun output member => ?_⟩, ?_, fun output member => ?_⟩
  · rw [(kept output member).1]
    exact writable.files output member
  · rw [← same.paired.same _ (not_hidden_above (List.suffix_refl _)), directory]
  · rw [(kept output member).2]
    exact writableOther.files output member

/-- What earlier runs have written makes no difference to what is packed. -/
theorem main_leftovers (quiet : QuietRun tools args tmpdir host) {f0 f1 : Packer}
    {fs one other : FileSystem Bytes} (left : Leftovers args host fs)
    (run : main tools args tmpdir host = .ok one)
    (again : main (tools.repacking f0 f1) args tmpdir fs = .ok other) :
    SameRuns tools (tools.repacking f0 f1) args one other := by
  have paired : PairedOutputs args host fs host fs :=
    ⟨fun place clear => (left.same place clear).symm,
      fun place target _ found => quiet.links place target found, quiet.writable.directory,
      fun _ _ => ⟨rfl, rfl⟩⟩
  obtain ⟨packed, _, prepared, _⟩ := main_eq_ok run
  obtain ⟨packedOther, _, preparedOther, _⟩ := main_eq_ok again
  have same := prepare_paired quiet paired prepared preparedOther
  obtain ⟨writable, writableOther⟩ := same.writable quiet.writable left.writable
  obtain ⟨published, ends, nodes⟩ := main_published run prepared writable
  obtain ⟨publishedOther, endsOther, nodesOther⟩ := main_published again preparedOther writableOther
  have f0Off := quiet.output_off (show args.f0File ∈ args.outputFiles by simp [Arguments.outputFiles])
  have f1Off := quiet.output_off (show args.f1File ∈ args.outputFiles by simp [Arguments.outputFiles])
  refine ⟨?_, ?_, fun location notF0 notF1 => ?_⟩
  · obtain ⟨tree, packs, packsOther⟩ := same.f0Lz4
    exact ⟨tree, _, _, packs, packsOther, by rw [nodes, if_neg f0Off, ends.f0],
      by rw [nodesOther, if_neg f0Off, endsOther.f0]⟩
  · obtain ⟨tree, packs, packsOther⟩ := same.f1Lz4
    exact ⟨tree, _, _, packs, packsOther, by rw [nodes, if_neg f1Off, ends.f1],
      by rw [nodesOther, if_neg f1Off, endsOther.f1]⟩
  · rw [nodes, nodesOther, same.published ends endsOther notF0 notF1]

theorem PlainRun.left (plain : PlainRun tools args tmpdir host) (quiet : QuietRun tools args tmpdir host)
    {after : FileSystem Bytes} (run : main tools args tmpdir host = .ok after) :
    Leftovers args host after := by
  obtain ⟨packed, _, finished⟩ := main_finished plain run
  refine ⟨fun place clear => finished.same place fun output member below =>
    clear ⟨output, member, below⟩, ?_, fun output member => ?_⟩
  · rw [finished.same _ fun output _ => not_suffix_tail _, quiet.writable.directory]
  · simp only [Arguments.outputFiles, List.mem_cons, List.not_mem_nil, or_false] at member
    rcases member with rfl | rfl | rfl
    · exact .inr ⟨_, finished.f0⟩
    · exact .inr ⟨_, finished.f1⟩
    · exact .inr ⟨_, finished.manifest⟩

/-- Runs that differ in what earlier ones have written, and in what the programs make of a
tree, pack the same trees and leave the same but for the two archives; and what a run
leaves differs from the host only in what it has written. -/
theorem main_stable (quiet : QuietRun tools args tmpdir host) (f0 f1 : Packer)
    {fs one other : FileSystem Bytes} (left : Leftovers args host fs)
    (run : main tools args tmpdir host = .ok one)
    (again : main (tools.repacking f0 f1) args tmpdir fs = .ok other) :
    SameRuns tools (tools.repacking f0 f1) args one other ∧
      (PlainRun tools args tmpdir host → Leftovers args host one) :=
  ⟨main_leftovers quiet left run again, fun plain => plain.left quiet run⟩

end

/-! ### Two runs on a device's host -/

theorem linksBlind_of_unlinked {names : List Name} {fs : FileSystem Bytes}
    (unlinked : ∀ listed, Unlinked fs [] listed) : LinksBlind names fs := by
  intro location target found
  have plain := unlinked location.reverse location.reverse (List.prefix_refl _) target
  rw [place, List.reverse_reverse, List.append_nil] at plain
  exact absurd found plain

theorem deviceHost_writable : Writable deviceArguments deviceHost where
  directory := by decide +kernel
  files := by
    have free : ∀ output ∈ deviceArguments.outputFiles,
        deviceHost.node (output :: deviceArguments.directory) = none := by decide +kernel
    exact fun output member => .inl (free output member)

theorem deviceRun_quiet : QuietRun deviceTools deviceArguments runTmpdir deviceHost where
  writable := deviceHost_writable
  links := linksBlind_of_unlinked fun _ => deviceHost_unlinked _ _
  clear := not_hidden_cons (not_hidden_cons (not_hidden_above List.nil_suffix) (by decide)) (by decide)
  apart := by decide
  staging := by
    intro tree isTree
    cases isTree
    exact not_hidden_cons (not_hidden_above List.nil_suffix) (by decide)
  dtroot := not_hidden_cons (not_hidden_above List.nil_suffix) (by decide)
  stock := by
    intro tree read
    cases deviceTrees.1.symm.trans read
    have plain (names : List Name) : Unlinked stockF0 [] names :=
      unlinked_ofEntries _ (by decide +kernel) [] names
    exact ⟨linksBlind_of_unlinked plain, plain _⟩
  ci := by
    intro tree read
    cases deviceTrees.2.1.symm.trans read
    exact linksBlind_of_unlinked fun names => unlinked_ofEntries _ (by decide +kernel) [] names
  validated := by
    intro tree read
    cases deviceTrees.2.2.symm.trans read
    exact linksBlind_of_unlinked validatedF1_unlinked

/-- The host with an output of another run. -/
def staleHost : FileSystem Bytes :=
  deviceHost.create deviceArguments.f0File deviceArguments.directory (.file [9])
    deviceHost_writable.directory (by decide +kernel)

theorem staleHost_node : staleHost.node = Function.update deviceHost.node
    (deviceArguments.f0File :: deviceArguments.directory) (some (.file [9])) :=
  rfl

theorem staleHost_left : Leftovers deviceArguments deviceHost staleHost where
  same := by
    intro location clear
    have other : location ≠ deviceArguments.f0File :: deviceArguments.directory :=
      fun here => clear ⟨_, List.mem_cons_self, here ▸ List.suffix_refl _⟩
    rw [staleHost_node, Function.update_of_ne other]
  writable := by
    refine ⟨by decide +kernel, fun output member => ?_⟩
    rw [staleHost_node]
    by_cases same : output = deviceArguments.f0File
    · rw [same, Function.update_self]
      exact .inr ⟨[9], rfl⟩
    · rw [Function.update_of_ne (by simpa using same)]
      exact deviceHost_writable.files output member

/-- The programs of a later run, which put another byte in front. -/
def laterPacker : Packer where
  find _ := .ok (0, [])
  cpio _ _ := .ok (0, [7])
  lz4 cpio := .ok (0, 4 :: cpio)

theorem main_stable_deviceHost : ∃ one other,
    main deviceTools deviceArguments runTmpdir deviceHost = .ok one ∧
      main (deviceTools.repacking laterPacker laterPacker) deviceArguments runTmpdir staleHost = .ok other ∧
      SameRuns deviceTools (deviceTools.repacking laterPacker laterPacker) deviceArguments one other ∧
      Leftovers deviceArguments deviceHost one := by
  have returns : (main deviceTools deviceArguments runTmpdir deviceHost).toOption.map
      (fun _ => ()) = some () := by
    unfold main prepare prepareF0
    rw [show parseImages deviceArguments = parseImages threeImages from rfl, parseImages_threeImages]
    decide +kernel
  have returnsLater : (main (deviceTools.repacking laterPacker laterPacker) deviceArguments runTmpdir
      staleHost).toOption.map (fun _ => ()) = some () := by
    unfold main prepare prepareF0
    rw [show parseImages deviceArguments = parseImages threeImages from rfl, parseImages_threeImages]
    decide +kernel
  obtain ⟨one, run, _⟩ := ok_of_read returns
  obtain ⟨other, again, _⟩ := ok_of_read returnsLater
  obtain ⟨same, left⟩ := main_stable deviceRun_quiet laterPacker laterPacker staleHost_left run again
  exact ⟨one, other, run, again, same, left deviceRun_plain⟩

end DashTwrp.PrepareFragments
