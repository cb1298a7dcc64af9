import DashTwrp.PrepareFragments.F1Result
import DashTwrp.PrepareFragments.Manifest

namespace DashTwrp.PrepareFragments

open DashTwrp.Python DashTwrp.Unix DashTwrp.InitRc DashTwrp.VendorBoot
open DashTwrp.RepackF1 (subtreeAt)

/-! What a run of the fragment tool changes: its three outputs, and nothing else. -/

/-! ### The F0 step -/

section

variable {tools : Tools} {stkFrags ciFrags : List Bytes} {fs after : FileSystem Bytes}
    {tmpdir : Location}

/-- The paths of the stock tree that the F0 step leaves alone. -/
structure Untouched (names : List Name) : Prop where
  notRecovery : ¬ recoveryNames <+: names
  notRes : ¬ resNames <+: names
  notDirectory : ¬ (names ≠ [] ∧ names <+: twrp16Names)
  notLibrary : ∀ lib ∈ twrp16Libs, ¬ twrp16LibNames lib <+: names
  notScript : names ≠ initRcNames

/-- The F0 step stays in its two trees, and changes only some paths of the first. -/
structure F0Kept (tmpdir : Location) (fs stock after : FileSystem Bytes) : Prop where
  outside : ∀ place, ¬ f0d tmpdir <:+ place → ¬ ciF1d tmpdir <:+ place →
    after.node place = fs.node place
  rest : ∀ names, Untouched names →
    after.node (place (f0d tmpdir) names) = stock.node (place [] names)

theorem makeF0_kept (directory : fs.node tmpdir = some .directory)
    (free : ∀ name, fs.node (name :: tmpdir) = none)
    (made : makeF0 tools tmpdir stkFrags ciFrags fs = .ok after) :
    ∃ stkF0 ciF1 stock ci, fragment stkFrags 0 = .ok stkF0 ∧ fragment ciFrags 1 = .ok ciF1 ∧
      tools.stock.unpacked stkF0 = .ok stock ∧ tools.ci.unpacked ciF1 = .ok ci ∧
      (F0TreesUnlinked stock ci → F0Kept tmpdir fs stock after) := by
  obtain ⟨stkF0, ciF1, stock, ci, stkFound, ciFound, unpackedStock, unpackedCi, passed⟩ :=
    makeF0_passes directory free made
  refine ⟨stkF0, ciF1, stock, ci, stkFound, ciFound, unpackedStock, unpackedCi, fun unlinked => ?_⟩
  obtain ⟨both, withDirectories, withLibs, trees, passes, edited⟩ := passed unlinked
  have bothUnlinked := trees.f0Unlinked unlinked
  have script := bothUnlinked.script.of_noNewLinks passes.noNewLinks_withLibs
  have same {other : Location} (off : other ≠ place (f0d tmpdir) initRcNames) :
      after.node other = withLibs.node other := by
    rcases editScript_text script edited with absent | text
    · rw [absent.2]
    · obtain ⟨_, _, _, _, update⟩ := text
      rw [update, Function.update_of_ne off]
  constructor
  · intro other offF0 offCi
    have notScript : other ≠ place (f0d tmpdir) initRcNames :=
      fun here => offF0 (here ▸ suffix_place _ _)
    rw [same notScript, passes.outside_withLibs offF0, trees.outside other offF0 offCi]
  · intro names untouched
    have noCopy : ∀ lib ∈ twrp16Libs, InCi both (ciF1d tmpdir) lib →
        names ≠ libTargetNames both (f0d tmpdir) lib := by
      intro lib member _ equal
      apply untouched.notLibrary lib member
      rcases libTargetNames_cases both (f0d tmpdir) lib with direct | inside
      · rw [equal, direct]
      · rw [equal, inside]
        exact List.prefix_append _ _
    rw [same fun here => untouched.notScript (place_inj.mp here),
      passes.same_withLibs (apart_f0d_ciF1d tmpdir) bothUnlinked noCopy,
      passes.same_withDirectories untouched.notRecovery untouched.notRes untouched.notDirectory,
      trees.stockNode]

end

/-! ### The F1 step -/

/-- What the programs make of a fragment of an image. -/
def imageTree (unpacker : Unpacker) (image : Bytes) (index : Nat) :
    Except RunError (FileSystem Bytes) := do
  let frags ← (parse image).mapError .read
  let data ← fragment frags index
  (unpacker.unpacked data).mapError .os

theorem imageTree_eq_ok {unpacker : Unpacker} {image data : Bytes} {index : Nat}
    {frags : List Bytes} {tree : FileSystem Bytes} (parsed : parse image = .ok frags)
    (found : fragment frags index = .ok data) (unpacked : unpacker.unpacked data = .ok tree) :
    imageTree unpacker image index = .ok tree := by
  rw [imageTree, parsed]
  change (fragment frags index >>= _) = _
  rw [found]
  exact mapError_eq_ok.mpr unpacked

/-- What the third run of the programs makes of the validated image's F1. -/
def validatedTree (tools : Tools) (args : Arguments) : Except RunError (FileSystem Bytes) :=
  imageTree tools.validated args.validated 1

theorem entry_apart {dir : Location} {old new : Name} (different : old ≠ new) :
    ¬ new :: dir <:+ old :: dir :=
  sibling_outside different []

/-- The overlays do not come from the new directory, and nothing is in their way in the
validated tree. -/
structure F1TreesPlain (args : Arguments) (tmpdir : Location) (fs validated : FileSystem Bytes) :
    Prop where
  stagingSettled : ∀ tree ∈ args.staging, ∀ rel ∈ stagingOverlayFiles,
    Settled fs tmpdir tree (.ofNames rel)
  rcSettled : ∀ rc ∈ dtOverlayRcs, Settled fs tmpdir args.dtroot (.ofNames (dtRcNames rc))
  staged : ∀ tree ∈ args.staging, ∀ rel ∈ stagingOverlayFiles,
    fs.pathExists tree (.ofNames rel) = true → Ready [] rel validated
  scripts : ∀ rc ∈ dtOverlayRcs, rcNode fs args.dtroot rc ≠ none → Ready [] [rc] validated

section

variable {φ : Type} {fs later : FileSystem φ} {area start : Location} {path : PurePath}

theorem toOption_congr {ε α : Type} {one other : Except ε α}
    (same : ∀ value, one = .ok value ↔ other = .ok value) : one.toOption = other.toOption := by
  cases one with
  | ok value => rw [(same value).mp rfl]
  | error error =>
      cases other with
      | ok value => cases (same value).mpr rfl
      | error otherError => rfl

theorem nodesOf_congr {ι : Type} {target : ι → List Name} {source other : ι → Option (Node φ)}
    {items : List ι} (same : ∀ item ∈ items, source item = other item) :
    nodesOf target source items = nodesOf target other items :=
  List.filterMap_congr fun item member => by rw [same item member]

theorem stagedNode_settled {rel : List Name} (settled : Settled fs area start (.ofNames rel))
    (outside : AgreeOutside area fs later) : stagedNode later start rel = stagedNode fs start rel := by
  unfold stagedNode
  rw [toOption_congr (settled later outside false)]
  simp only [settled.exists_iff outside]

theorem rcNode_settled {rc : Name} (settled : Settled fs area start (.ofNames (dtRcNames rc)))
    (outside : AgreeOutside area fs later) : rcNode later start rc = rcNode fs start rc :=
  toOption_congr (settled later outside true)

end

section

variable {tools : Tools} {args : Arguments} {fs before after validated : FileSystem Bytes}
    {tmpdir : Location}

/-- The nodes that the overlays put over the validated tree. -/
def overlayNodes (fs : FileSystem Bytes) (args : Arguments) : List (List Name × Node Bytes) :=
  stagedNodes fs args.staging ++ rcNodes fs args.dtroot

theorem overlayNodes_settled (plain : F1TreesPlain args tmpdir fs validated)
    (outside : AgreeOutside tmpdir fs before) : overlayNodes before args = overlayNodes fs args := by
  unfold overlayNodes
  congr 1
  · cases isTree : args.staging with
    | none => rfl
    | some tree =>
        exact nodesOf_congr fun rel member =>
          stagedNode_settled (plain.stagingSettled tree isTree rel member) outside
  · exact nodesOf_congr fun rc member => rcNode_settled (plain.rcSettled rc member) outside

/-- The new tree on disk, by the validated tree and the overlays. -/
structure F1Made (args : Arguments) (tmpdir : Location) (fs validated after : FileSystem Bytes) :
    Prop where
  overlaid : ∀ entry ∈ overlayNodes fs args, after.node (place (f1d tmpdir) entry.1) = some entry.2
  validated : ∀ names, (∀ entry ∈ overlayNodes fs args, ¬ names <+: entry.1) →
    after.node (place (f1d tmpdir) names) = validated.node (place [] names)

theorem f1Transform_made (plain : F1TreesPlain args tmpdir fs validated)
    (outside : AgreeOutside tmpdir fs before) (directory : before.node tmpdir = some .directory)
    (inside : ∀ inner, before.node (inner ++ valF1d tmpdir) = validated.node inner)
    (fresh : before.node (f1d tmpdir) = none)
    (made : f1Transform before tmpdir args.staging args.dtroot = .ok after) :
    F1Made args tmpdir fs validated after ∧ AgreeOutside (f1d tmpdir) before after := by
  have below : tmpdir <:+ f1d tmpdir := suffix_place _ _
  have placed (names : List Name) :
      before.node (place (valF1d tmpdir) names) = validated.node (place [] names) := by
    rw [place, inside, place, List.append_nil]
  have workspace : F1Workspace tmpdir args.staging args.dtroot before :=
    ⟨directory, (inside []).trans validated.root, fresh,
      fun tree isTree rel member => (plain.stagingSettled tree isTree rel member).inner outside below,
      fun rc member => (plain.rcSettled rc member).inner outside below⟩
  have ready {names : List Name} (readyTree : Ready [] names validated) :
      Ready (valF1d tmpdir) names before := by
    refine ⟨fun front within target => ?_, ?_⟩
    · rw [placed]
      exact readyTree.unlinked front within target
    · rw [placed]
      exact readyTree.noDirectory
  obtain ⟨copied, staged, same, stagedOk, rcsOk⟩ := f1Transform_eq_ok workspace made
  have puts : Puts (f1d tmpdir) (overlayNodes before args) copied after :=
    f1Puts workspace same stagedOk rcsOk
      (fun tree isTree rel member present => ready (plain.staged tree isTree rel member
        (((plain.stagingSettled tree isTree rel member).exists_iff outside).mp present)))
      (fun rc member present => ready (plain.scripts rc member
        (by rwa [rcNode_settled (plain.rcSettled rc member) outside] at present)))
  rw [overlayNodes_settled plain outside] at puts
  have separate := f1Nodes_separate fs args.staging args.dtroot
  refine ⟨⟨fun entry listed => puts.there separate listed, fun names off => ?_⟩, fun other off => ?_⟩
  · rw [puts.same_names off, same.inside, placed]
  · rw [puts.outside off, same.outside other off]

theorem makeF1_made {valFrags : List Bytes} {host : FileSystem Bytes}
    (directory : fs.node tmpdir = some .directory) (free : fs.node ("_val_f1" :: tmpdir) = none)
    (fresh : fs.node (f1d tmpdir) = none) (outside : AgreeOutside tmpdir host fs)
    (made : makeF1 tools args tmpdir valFrags fs = .ok after) :
    ∃ valF1 validated, fragment valFrags 1 = .ok valF1 ∧
      tools.validated.unpacked valF1 = .ok validated ∧
      (F1TreesPlain args tmpdir host validated →
        F1Made args tmpdir host validated after ∧ AgreeOutside tmpdir host after) := by
  unfold makeF1 at made
  obtain ⟨valF1, found, made⟩ := except_bind_eq_ok made
  obtain ⟨before, extracted, made⟩ := except_bind_eq_ok made
  obtain ⟨validated, unpacked, planted⟩ := decompressFragment_planted (mapError_eq_ok.mp extracted)
  refine ⟨valF1, validated, found, unpacked, fun plain => ?_⟩
  have planted : Planted (valF1d tmpdir) fs validated before := planted directory free
  have beforeOutside : AgreeOutside tmpdir host before := fun other off =>
    (planted.outside other fun under => off ((List.suffix_cons _ _).trans under)).trans
      (outside other off)
  have beforeDirectory : before.node tmpdir = some .directory := by
    rw [planted.outside tmpdir (not_suffix_tail tmpdir), directory]
  have beforeFresh : before.node (f1d tmpdir) = none := by
    have off : ¬ valF1d tmpdir <:+ f1d tmpdir := entry_apart (by decide)
    rw [planted.outside _ off, fresh]
  obtain ⟨result, kept⟩ := f1Transform_made plain beforeOutside beforeDirectory planted.inside
    beforeFresh (mapError_eq_ok.mp made)
  exact ⟨result, fun other off =>
    (kept other fun under => off ((suffix_place _ _).trans under)).trans (beforeOutside other off)⟩

end

/-! ### The run -/

/-- A run that follows no links out of its trees, with outputs outside the new directory. -/
structure PlainRun (tools : Tools) (args : Arguments) (tmpdir : Location) (fs : FileSystem Bytes) :
    Prop where
  f0Trees : ∀ stock ci, stockTree tools args = .ok stock → ciTree tools args = .ok ci →
    F0TreesUnlinked stock ci
  f1Trees : ∀ validated, validatedTree tools args = .ok validated →
    F1TreesPlain args tmpdir fs validated
  outputs : ∀ output ∈ args.outputFiles, Unlinked fs args.directory [output]
  apart : ∀ output ∈ args.outputFiles, ¬ tmpdir <:+ output :: args.directory

section

variable {tools : Tools} {args : Arguments} {fs after : FileSystem Bytes} {tmpdir : Location}

/-- What the F0 step does not change is as it is in the stock tree. -/
theorem f0Tree_rest (plain : PlainRun tools args tmpdir fs) {stock tree : FileSystem Bytes}
    (stockRead : stockTree tools args = .ok stock) (made : f0Tree tools args tmpdir fs = .ok tree)
    (names : List Name) (untouched : Untouched names) :
    tree.node (place [] names) = stock.node (place [] names) := by
  unfold f0Tree at made
  obtain ⟨⟨valFrags, withF0⟩, f0, read⟩ := except_bind_eq_ok made
  obtain ⟨emptied, stkFrags, ciFrags, makes, stkParsed, ciParsed, _, makesF0⟩ := prepareF0_eq_ok f0
  obtain ⟨inside, free⟩ := (mkdtemp_ok makes).2.emptied
  obtain ⟨stkF0, ciF1, stockAgain, ci, stkFound, ciFound, unpackedStock, unpackedCi, kept⟩ :=
    makeF0_kept inside free makesF0
  have stockReadAgain := imageTree_eq_ok stkParsed stkFound unpackedStock
  have kept := kept (plain.f0Trees stockAgain ci stockReadAgain
    (imageTree_eq_ok ciParsed ciFound unpackedCi))
  cases stockRead.symm.trans stockReadAgain
  rw [subtreeAt_eq_ok (mapError_eq_ok.mp read), kept.rest names untouched]

/-- What is packed as F1, and what else the steps have changed. -/
theorem prepare_f1 (plain : PlainRun tools args tmpdir fs) {packed : Packed}
    (prepared : prepare tools args tmpdir fs = .ok packed) :
    ∃ validated tree, validatedTree tools args = .ok validated ∧
      subtreeAt packed.fs (f1d tmpdir) = .ok tree ∧ packTree tools.f1 tree = .ok packed.f1Lz4 ∧
      F1Made args tmpdir fs validated packed.fs ∧ AgreeOutside tmpdir fs packed.fs := by
  unfold prepare at prepared
  obtain ⟨⟨valFrags, withF0⟩, f0, prepared⟩ := except_bind_eq_ok prepared
  obtain ⟨f0Lz4, _, prepared⟩ := except_bind_eq_ok prepared
  obtain ⟨withF1, f1, prepared⟩ := except_bind_eq_ok prepared
  obtain ⟨f1Lz4, packsF1, prepared⟩ := except_bind_eq_ok prepared
  cases prepared
  obtain ⟨tree, read, packs⟩ := except_bind_eq_ok (mapError_eq_ok.mp packsF1)
  obtain ⟨made, stkFrags, ciFrags, makes, stkParsed, ciParsed, valParsed, makesF0⟩ :=
    prepareF0_eq_ok f0
  have planted := (mkdtemp_ok makes).2
  obtain ⟨madeInside, madeFree⟩ := planted.emptied
  obtain ⟨stkF0, ciF1, stock, ci, stkFound, ciFound, unpackedStock, unpackedCi, kept⟩ :=
    makeF0_kept madeInside madeFree makesF0
  have kept := (kept (plain.f0Trees stock ci (imageTree_eq_ok stkParsed stkFound unpackedStock)
    (imageTree_eq_ok ciParsed ciFound unpackedCi))).outside
  have outside : AgreeOutside tmpdir fs withF0 := fun other off => by
    rw [kept other (fun under => off ((List.suffix_cons _ _).trans under))
      (fun under => off ((List.suffix_cons _ _).trans under)), planted.outside other off]
  have directory : withF0.node tmpdir = some .directory := by
    rw [kept tmpdir (not_suffix_tail tmpdir) (not_suffix_tail tmpdir), madeInside]
  have free (name : Name) (notF0 : name ≠ "_f0") (notCi : name ≠ "_ci_f1") :
      withF0.node (name :: tmpdir) = none := by
    rw [kept _ (entry_apart notF0) (entry_apart notCi), madeFree]
  obtain ⟨valF1, validated, valFound, unpackedVal, result⟩ :=
    makeF1_made directory (free _ (by decide) (by decide)) (free _ (by decide) (by decide)) outside f1
  have valRead : validatedTree tools args = .ok validated :=
    imageTree_eq_ok valParsed valFound unpackedVal
  obtain ⟨f1Made, all⟩ := result (plain.f1Trees validated valRead)
  exact ⟨validated, tree, valRead, read, packs, f1Made, all⟩

theorem prepare_fresh {packed : Packed} (prepared : prepare tools args tmpdir fs = .ok packed) :
    fs.node tmpdir = none := by
  unfold prepare at prepared
  obtain ⟨⟨valFrags, withF0⟩, f0, _⟩ := except_bind_eq_ok prepared
  obtain ⟨made, _, _, makes, _⟩ := prepareF0_eq_ok f0
  exact (mkdtemp_ok makes).1

/-- The outputs hold what was packed, and the rest is as it was. -/
structure Finished (args : Arguments) (packed : Packed) (fs after : FileSystem Bytes) : Prop where
  f0 : after.node (args.f0File :: args.directory) = some (.file packed.f0Lz4)
  f1 : after.node (args.f1File :: args.directory) = some (.file packed.f1Lz4)
  manifest : after.node (args.manifestFile :: args.directory) = some (.file args.manifestBytes)
  same : ∀ place, (∀ output ∈ args.outputFiles, ¬ output :: args.directory <:+ place) →
    after.node place = fs.node place

theorem main_finished (plain : PlainRun tools args tmpdir fs)
    (run : main tools args tmpdir fs = .ok after) :
    ∃ packed, prepare tools args tmpdir fs = .ok packed ∧ Finished args packed fs after := by
  obtain ⟨packed, published, prepared, publishes, rfl⟩ := main_eq_ok run
  obtain ⟨_, _, _, _, _, _, outside⟩ := prepare_f1 plain prepared
  have inner := prepare_tmpdir prepared
  have directoryKept : packed.fs.node args.directory = fs.node args.directory :=
    outside _ fun under => plain.apart args.f0File (by simp [Arguments.outputFiles])
      (under.trans (List.suffix_cons _ _))
  have unlinked (output : Name) (member : output ∈ args.outputFiles) :
      Unlinked packed.fs args.directory [output] := by
    intro front within target
    rcases List.prefix_concat_iff.mp (show front <+: [] ++ [output] from within) with whole | shorter
    · rw [whole, List.nil_append, place_cons, place_nil, outside _ (plain.apart output member)]
      exact plain.outputs output member _ (List.prefix_refl _) target
    · rw [List.prefix_nil.mp shorter, place_nil, directoryKept]
      exact plain.outputs output member [] List.nil_prefix target
  have outputs := publish_ok unlinked publishes
  have there {output : Name} {data : Bytes} (member : output ∈ args.outputFiles)
      (written : published.node (output :: args.directory) = some (.file data)) :
      (rmtreeIgnore published tmpdir).node (output :: args.directory) = some (.file data) := by
    rw [VerifyFragments.rmtreeIgnore_node inner, if_neg (plain.apart output member), written]
  refine ⟨packed, prepared, there (by simp [Arguments.outputFiles]) outputs.f0,
    there (by simp [Arguments.outputFiles]) outputs.f1,
    there (by simp [Arguments.outputFiles]) outputs.manifest, fun place off => ?_⟩
  rw [VerifyFragments.rmtreeIgnore_node inner]
  by_cases below : tmpdir <:+ place
  · rw [if_pos below]
    obtain ⟨back, rfl⟩ := below
    have free := prepare_fresh prepared
    by_cases top : back = []
    · rw [top, List.nil_append, free]
    · exact (fs.none_below back top (by rw [free]; simp)).symm
  · rw [if_neg below, outputs.same place off, outside place below]

/-- The tree that is packed as F1: the validated tree with the overlays over it. -/
structure F1Tree (args : Arguments) (fs validated tree : FileSystem Bytes) : Prop where
  overlaid : ∀ entry ∈ overlayNodes fs args, tree.node (place [] entry.1) = some entry.2
  validated : ∀ names, (∀ entry ∈ overlayNodes fs args, ¬ names <+: entry.1) →
    tree.node (place [] names) = validated.node (place [] names)

theorem F1Made.tree {validated tree : FileSystem Bytes}
    (made : F1Made args tmpdir fs validated after) (read : subtreeAt after (f1d tmpdir) = .ok tree) :
    F1Tree args fs validated tree where
  overlaid entry listed := by
    rw [subtreeAt_eq_ok read, made.overlaid entry listed]
  validated names off := by
    rw [subtreeAt_eq_ok read, made.validated names off]

/-- What a run leaves: an archive of the stock F0 as it is edited, an archive of the
validated F1 with its overlays, their manifest, and nothing else. -/
theorem main_result (plain : PlainRun tools args tmpdir fs)
    (run : main tools args tmpdir fs = .ok after) :
    ∃ stock ci validated f0 f1 f0Lz4 f1Lz4, stockTree tools args = .ok stock ∧
      ciTree tools args = .ok ci ∧ validatedTree tools args = .ok validated ∧
      F0Made stock ci f0 ∧
      (∀ names, Untouched names → f0.node (place [] names) = stock.node (place [] names)) ∧
      packTree tools.f0 f0 = .ok f0Lz4 ∧ F1Tree args fs validated f1 ∧ packTree tools.f1 f1 = .ok f1Lz4 ∧
      after.node (args.f0File :: args.directory) = some (.file f0Lz4) ∧
      after.node (args.f1File :: args.directory) = some (.file f1Lz4) ∧
      after.node (args.manifestFile :: args.directory) = some (.file args.manifestBytes) ∧
      ∀ place, (∀ output ∈ args.outputFiles, ¬ output :: args.directory <:+ place) →
        after.node place = fs.node place := by
  obtain ⟨packed, prepared, finished⟩ := main_finished plain run
  obtain ⟨stock, ci, f0, stockRead, ciRead, f0Read, packsF0, f0Made⟩ := prepare_f0 prepared
  obtain ⟨validated, f1, valRead, read, packsF1, f1Made, _⟩ := prepare_f1 plain prepared
  exact ⟨stock, ci, validated, f0, f1, packed.f0Lz4, packed.f1Lz4, stockRead, ciRead, valRead,
    f0Made (plain.f0Trees stock ci stockRead ciRead), f0Tree_rest plain stockRead f0Read, packsF0,
    f1Made.tree read, packsF1, finished.f0, finished.f1, finished.manifest, finished.same⟩

end

/-! ### A device tree with its scripts -/

/-- A host with a staging tree, a device tree, and an empty `/tmp` and `/out`. -/
def deviceEntries : List (Location × Node Bytes) :=
  [(["tmp"], .directory), (["out"], .directory), (["staging"], .directory), (["dash"], .directory)] ++
    [["system"], ["system", "bin"]].map (fun names => (place ["staging"] names, .directory)) ++
    [["recovery"], ["recovery", "root"]].map (fun names => (place ["dash"] names, .directory)) ++
    [(place ["staging"] ["system", "bin", "recovery"], .file [0x7f])] ++
    dtOverlayRcs.map (fun rc => (place ["dash"] (dtRcNames rc), .file [2]))

def deviceHost : FileSystem Bytes := .ofEntries deviceEntries (by decide +kernel)

/-- A validated tree with the two libraries. -/
def validatedF1 : FileSystem Bytes :=
  .ofEntries [(["system"], .directory), (["lib64", "system"], .directory),
    (["libc.so", "lib64", "system"], .file []),
    (["libtwrpmtp-ffs.so", "lib64", "system"], .file [])] (by decide)

def deviceArguments : Arguments :=
  { threeImages with staging := some ["staging"], dtroot := ["dash"] }

def deviceTools : Tools := { workingTools with validated := unpackerOf 0 validatedF1 }

theorem deviceHost_unlinked (start : Location) (names : List Name) :
    Unlinked deviceHost start names :=
  unlinked_ofEntries _ (by decide +kernel) start names

theorem validatedF1_unlinked (names : List Name) : Unlinked validatedF1 [] names :=
  unlinked_ofEntries _ (by decide) [] names

theorem deviceTrees : stockTree deviceTools deviceArguments = .ok stockF0 ∧
    ciTree deviceTools deviceArguments = .ok ciF1 ∧
    validatedTree deviceTools deviceArguments = .ok validatedF1 := by
  have parsed : parse oneEntryLayout.encode = .ok [[0xf0], [0xf1]] := oneEntryLayout.parse_encode
  exact ⟨imageTree_eq_ok parsed rfl rfl, imageTree_eq_ok parsed rfl rfl,
    imageTree_eq_ok parsed rfl rfl⟩

theorem deviceRun_plain : PlainRun deviceTools deviceArguments runTmpdir deviceHost where
  f0Trees := by
    intro stock ci stockRead ciRead
    obtain ⟨stockTree, ciTree, _⟩ := deviceTrees
    cases stockTree.symm.trans stockRead
    cases ciTree.symm.trans ciRead
    have stockPlain (names : List Name) : Unlinked stockF0 [] names :=
      unlinked_ofEntries _ (by decide +kernel) [] names
    have ciPlain (names : List Name) : Unlinked ciF1 [] names :=
      unlinked_ofEntries _ (by decide +kernel) [] names
    exact ⟨stockPlain _, stockPlain _, fun _ _ => stockPlain _, fun _ _ => ciPlain _, stockPlain _⟩
  f1Trees := by
    intro validated read
    cases deviceTrees.2.2.symm.trans read
    have free : (∀ rel ∈ stagingOverlayFiles,
        validatedF1.node (place [] rel) ≠ some .directory) ∧
        ∀ rc ∈ dtOverlayRcs, validatedF1.node (place [] [rc]) ≠ some .directory := by
      decide +kernel
    refine ⟨?_, ?_, ?_, ?_⟩
    · intro tree isTree rel member
      cases isTree
      refine .of_unlinked (deviceHost_unlinked _ _) ?_
      revert member
      revert rel
      decide +kernel
    · intro rc member
      refine .of_unlinked (deviceHost_unlinked _ _) ?_
      revert member
      revert rc
      decide +kernel
    · intro tree _ rel member _
      exact ⟨validatedF1_unlinked _, free.1 rel member⟩
    · intro rc member _
      exact ⟨validatedF1_unlinked _, free.2 rc member⟩
  outputs := fun _ _ => deviceHost_unlinked _ _
  apart := by decide

theorem main_result_deviceHost : ∃ after f1 f1Lz4,
    main deviceTools deviceArguments runTmpdir deviceHost = .ok after ∧
      F1Tree deviceArguments deviceHost validatedF1 f1 ∧
      after.node (deviceArguments.f1File :: deviceArguments.directory) = some (.file f1Lz4) := by
  have returns : (main deviceTools deviceArguments runTmpdir deviceHost).toOption.map
      (fun _ => ()) = some () := by
    unfold main prepare prepareF0
    rw [show parseImages deviceArguments = parseImages threeImages from rfl, parseImages_threeImages]
    decide +kernel
  obtain ⟨after, run, _⟩ := ok_of_read returns
  obtain ⟨_, _, validated, _, f1, _, f1Lz4, _, _, valRead, _, _, _, f1Tree, _, _, written, _⟩ :=
    main_result deviceRun_plain run
  cases deviceTrees.2.2.symm.trans valRead
  exact ⟨after, f1, f1Lz4, run, f1Tree, written⟩

end DashTwrp.PrepareFragments
