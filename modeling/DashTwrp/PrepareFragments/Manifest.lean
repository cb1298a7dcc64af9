import DashTwrp.PrepareFragments.F0Made
import DashTwrp.VendorBoot.RepackImage
import DashTwrp.VerifyFragments.Acceptance

namespace DashTwrp.PrepareFragments

open DashTwrp.Python DashTwrp.Unix DashTwrp.InitRc DashTwrp.VendorBoot
open DashTwrp.RepackF1 (subtreeAt readFile)

/-! Whether the F0 fragment that a manifest names passes the checks of the other tool. -/

/-! ### What is published -/

namespace Arguments

variable (args : Arguments)

def outputFiles : List Name := [args.f0File, args.f1File, args.manifestFile]

theorem outputFiles_nodup : args.outputFiles.Nodup := by
  simp [outputFiles, f0File, f1File, manifestFile]

end Arguments

/-- An absolute path of names. -/
def absolutePath (location : Location) : PurePath :=
  { absolute := true, steps := location.reverse.map .name }

section

variable {fs after : FileSystem Bytes} {args : Arguments} {packed : Packed}

theorem readFile_absolute {location : Location} {data : Bytes}
    (found : fs.node location = some (.file data)) (start : Location) :
    readFile fs start (absolutePath location) = .ok data := by
  have there : fs.node (place [] location.reverse) = some (.file data) := by
    rw [place, List.reverse_reverse, List.append_nil, found]
  have opened : fs.stat true start (absolutePath location) = .ok (.file data) :=
    ((unlinked_of_node there (by simp)).stat_iff true).mpr there
  rw [RepackF1.readFile, opened]

theorem removeExisting_without {start : Location} {name : Name}
    (unlinked : Unlinked fs start [name])
    (removed : removeExisting osRemove fs start (.ofNames [name]) = .ok after) :
    Without (name :: start) fs after := by
  unfold removeExisting at removed
  split at removed
  · have front : Unlinked fs start [] := unlinked.prefix_of List.nil_prefix
    have gone : Without (place start ([] ++ [name])) fs after := osRemove_ok front removed
    exact gone
  · rename_i absent
    cases removed
    exact without_of_absent (not_not.mp fun present => absent (unlinked.exists_iff.mpr present))

/-- The outputs hold what they should, and the rest is as before. -/
structure Published (args : Arguments) (packed : Packed) (after : FileSystem Bytes) : Prop where
  f0 : after.node (args.f0File :: args.directory) = some (.file packed.f0Lz4)
  f1 : after.node (args.f1File :: args.directory) = some (.file packed.f1Lz4)
  manifest : after.node (args.manifestFile :: args.directory) = some (.file args.manifestBytes)
  same : ∀ other, (∀ output ∈ args.outputFiles, ¬ output :: args.directory <:+ other) →
    after.node other = packed.fs.node other

theorem publish_ok
    (unlinked : ∀ output ∈ args.outputFiles, Unlinked packed.fs args.directory [output])
    (published : publish args packed = .ok after) : Published args packed after := by
  unfold publish at published
  obtain ⟨withoutF0, first, published⟩ := except_bind_eq_ok published
  obtain ⟨withoutF1, second, published⟩ := except_bind_eq_ok published
  obtain ⟨withF0, third, published⟩ := except_bind_eq_ok published
  obtain ⟨withF1, fourth, last⟩ := except_bind_eq_ok published
  have f0Unlinked := unlinked args.f0File (by simp [Arguments.outputFiles])
  have f1Unlinked := unlinked args.f1File (by simp [Arguments.outputFiles])
  have manifestUnlinked := unlinked args.manifestFile (by simp [Arguments.outputFiles])
  have f0Gone := removeExisting_without f0Unlinked first
  have f1Gone := removeExisting_without (f1Unlinked.of_noNewLinks f0Gone.noNewLinks) second
  have removed := f0Gone.noNewLinks.trans f1Gone.noNewLinks
  have f0Written := (writeFile_ok (f0Unlinked.of_noNewLinks removed) third).2
  have f0Kept := removed.trans (noNewLinks_update f0Written (by simp))
  have f1Written := (writeFile_ok (f1Unlinked.of_noNewLinks f0Kept) fourth).2
  have f1Kept := f0Kept.trans (noNewLinks_update f1Written (by simp))
  have written := (writeFile_ok (manifestUnlinked.of_noNewLinks f1Kept) last).2
  simp only [place_cons, place_nil] at f0Written f1Written written
  have distinct := args.outputFiles_nodup
  simp only [Arguments.outputFiles, List.nodup_cons, List.mem_cons, List.not_mem_nil, or_false,
    not_or] at distinct
  obtain ⟨⟨notF1, notManifest⟩, f1NotManifest, _⟩ := distinct
  constructor
  · rw [written, Function.update_of_ne (by simpa using notManifest), f1Written,
      Function.update_of_ne (by simpa using notF1), f0Written, Function.update_self]
  · rw [written, Function.update_of_ne (by simpa using f1NotManifest), f1Written,
      Function.update_self]
  · rw [written, Function.update_self]
  · intro other off
    have notAt (output : Name) (member : output ∈ args.outputFiles) :
        other ≠ output :: args.directory := fun here => off output member (here ▸ List.suffix_refl _)
    simp only [Arguments.outputFiles, List.mem_cons, List.not_mem_nil, or_false] at off notAt
    rw [written, Function.update_of_ne (notAt _ (.inr (.inr rfl))), f1Written,
      Function.update_of_ne (notAt _ (.inr (.inl rfl))), f0Written,
      Function.update_of_ne (notAt _ (.inl rfl)), f1Gone, if_neg (off _ (.inr (.inl rfl))), f0Gone,
      if_neg (off _ (.inl rfl))]

end

/-! ### The trees that F0 is made of -/

section

variable (tools : Tools) (args : Arguments) (tmpdir : Location)

/-- What the first run of the programs makes of the stock image's F0. -/
def stockTree : Except RunError (FileSystem Bytes) := do
  let frags ← (parse args.stock).mapError .read
  let stkF0 ← fragment frags 0
  (tools.stock.unpacked stkF0).mapError .os

/-- What the second run makes of the CI image's F1. -/
def ciTree : Except RunError (FileSystem Bytes) := do
  let frags ← (parse args.ci).mapError .read
  let ciF1 ← fragment frags 1
  (tools.ci.unpacked ciF1).mapError .os

/-- The tree that is packed as F0. -/
def f0Tree (fs : FileSystem Bytes) : Except RunError (FileSystem Bytes) := do
  let (_, fs) ← prepareF0 tools args tmpdir fs
  (subtreeAt fs (f0d tmpdir)).mapError .os

/-- The files that the checks of F0 ask for. -/
def checkedFiles : List (List Name) := initRcNames :: twrp16Libs.map twrp16LibNames

/-- The libraries and a script that has the setenv line or gets it are in the images,
and the archive of F0 can be unpacked without a loss of any of these files. -/
structure Complete (checker : Unpacker) (fs : FileSystem Bytes) : Prop where
  libraries : ∀ stock ci, stockTree tools args = .ok stock → ciTree tools args = .ok ci →
    ∀ lib ∈ twrp16Libs, ci.node (place [] (ciLibNames lib)) ≠ none ∨
      stock.node (place [] (twrp16LibNames lib)) ≠ none
  script : ∀ stock, stockTree tools args = .ok stock →
    ∃ raw c, stock.node (place [] initRcNames) = some (.file raw) ∧ decodeText raw = some c ∧
      (editGuard c ∨ VerifyFragments.libraryPathText <:+: c ∧ VerifyFragments.twrp16Text <:+: c)
  archive : ∀ tree f0Lz4, f0Tree tools args tmpdir fs = .ok tree →
    packTree tools.f0 tree = .ok f0Lz4 → ∃ unpacked, checker.Unpacks f0Lz4 unpacked ∧
      ∀ names ∈ checkedFiles, tree.node (place [] names) ≠ none →
        unpacked.node (place [] names) ≠ none

/-- The other tool's checks accept the F0 that a manifest names, where they extract it
to the directory `probe`. -/
def FailsClosed (checker : Unpacker) (probe : Location) (fs : FileSystem Bytes) : Prop :=
  ∀ after, main tools args tmpdir fs = .ok after → ∃ left,
    VerifyFragments.verifyF0 checker after probe []
      (absolutePath (args.f0File :: args.directory)) = .ok (true, left)

/-- There are no links where the tools read and write, the directories of `mkdtemp` are new
ones and hold no output, and what can be unpacked of an archive is in the packed tree. -/
structure OrdinaryRun (checker : Unpacker) (probe : Location) (fs : FileSystem Bytes) : Prop where
  trees : ∀ stock ci, stockTree tools args = .ok stock → ciTree tools args = .ok ci →
    F0TreesUnlinked stock ci
  outputs : ∀ packed, prepare tools args tmpdir fs = .ok packed →
    ∀ output ∈ args.outputFiles, Unlinked packed.fs args.directory [output]
  apart : ∀ output ∈ args.outputFiles, ¬ tmpdir <:+ output :: args.directory
  probe : ∀ after, main tools args tmpdir fs = .ok after →
    ∃ checked, mkdtemp after probe = .ok checked
  recovers : ∀ tree f0Lz4 unpacked, f0Tree tools args tmpdir fs = .ok tree →
    packTree tools.f0 tree = .ok f0Lz4 → checker.Unpacks f0Lz4 unpacked → unpacked.Extends tree

end

section

variable {tools : Tools} {args : Arguments} {tmpdir : Location} {fs after : FileSystem Bytes}

theorem main_eq_ok (run : main tools args tmpdir fs = .ok after) :
    ∃ packed published, prepare tools args tmpdir fs = .ok packed ∧
      publish args packed = .ok published ∧ after = rmtreeIgnore published tmpdir := by
  unfold main at run
  obtain ⟨packed, prepared, run⟩ := except_bind_eq_ok run
  obtain ⟨published, publishes, run⟩ := except_bind_eq_ok run
  cases run
  exact ⟨packed, published, prepared, mapError_eq_ok.mp publishes, rfl⟩

theorem prepareF0_eq_ok {valFrags : List Bytes}
    (prepared : prepareF0 tools args tmpdir fs = .ok (valFrags, after)) :
    ∃ made stkFrags ciFrags, mkdtemp fs tmpdir = .ok made ∧ parse args.stock = .ok stkFrags ∧
      parse args.ci = .ok ciFrags ∧ parse args.validated = .ok valFrags ∧
      makeF0 tools tmpdir stkFrags ciFrags made = .ok after := by
  unfold prepareF0 at prepared
  obtain ⟨made, makes, prepared⟩ := except_bind_eq_ok prepared
  obtain ⟨⟨stkFrags, ciFrags, read⟩, parsed, prepared⟩ := except_bind_eq_ok prepared
  obtain ⟨result, f0, prepared⟩ := except_bind_eq_ok prepared
  cases prepared
  unfold parseImages at parsed
  obtain ⟨stk, stkParsed, parsed⟩ := except_bind_eq_ok parsed
  obtain ⟨ci, ciParsed, parsed⟩ := except_bind_eq_ok parsed
  obtain ⟨val, valParsed, parsed⟩ := except_bind_eq_ok parsed
  cases parsed
  exact ⟨made, stkFrags, ciFrags, mapError_eq_ok.mp makes, mapError_eq_ok.mp stkParsed,
    mapError_eq_ok.mp ciParsed, mapError_eq_ok.mp valParsed, f0⟩

theorem prepare_tmpdir {packed : Packed} (prepared : prepare tools args tmpdir fs = .ok packed) :
    tmpdir ≠ [] := by
  unfold prepare at prepared
  obtain ⟨⟨valFrags, withF0⟩, f0, _⟩ := except_bind_eq_ok prepared
  obtain ⟨made, _, _, makes, _⟩ := prepareF0_eq_ok f0
  rintro rfl
  have free := (mkdtemp_ok makes).1
  rw [fs.root] at free
  cases free

/-- F0 is packed from the tree, and the tree is made of the two extracted ones. -/
theorem prepare_f0 {packed : Packed} (prepared : prepare tools args tmpdir fs = .ok packed) :
    ∃ stock ci tree, stockTree tools args = .ok stock ∧ ciTree tools args = .ok ci ∧
      f0Tree tools args tmpdir fs = .ok tree ∧ packTree tools.f0 tree = .ok packed.f0Lz4 ∧
      (F0TreesUnlinked stock ci → F0Made stock ci tree) := by
  unfold prepare at prepared
  obtain ⟨⟨valFrags, withF0⟩, f0, prepared⟩ := except_bind_eq_ok prepared
  obtain ⟨f0Lz4, packsF0, prepared⟩ := except_bind_eq_ok prepared
  obtain ⟨withF1, f1, prepared⟩ := except_bind_eq_ok prepared
  obtain ⟨f1Lz4, packsF1, prepared⟩ := except_bind_eq_ok prepared
  cases prepared
  obtain ⟨tree, read, packs⟩ := except_bind_eq_ok (mapError_eq_ok.mp packsF0)
  obtain ⟨made, stkFrags, ciFrags, makes, stkParsed, ciParsed, _, makesF0⟩ := prepareF0_eq_ok f0
  obtain ⟨madeInside, madeFree⟩ := (mkdtemp_ok makes).2.emptied
  obtain ⟨stkF0, ciF1, stock, ci, stkFound, ciFound, unpackedStock, unpackedCi, result⟩ :=
    makeF0_made madeInside madeFree makesF0
  refine ⟨stock, ci, tree, ?_, ?_, ?_, packs, fun unlinked => result unlinked tree read⟩
  · rw [stockTree, stkParsed]
    change (fragment stkFrags 0 >>= _) = _
    rw [stkFound]
    exact mapError_eq_ok.mpr unpackedStock
  · rw [ciTree, ciParsed]
    change (fragment ciFrags 1 >>= _) = _
    rw [ciFound]
    exact mapError_eq_ok.mpr unpackedCi
  · rw [f0Tree, f0]
    exact mapError_eq_ok.mpr read

theorem checkedLibs_iff (lib : Name) : lib ∈ VerifyFragments.checkedLibs ↔ lib ∈ twrp16Libs := by
  simp only [VerifyFragments.checkedLibs, twrp16Libs, List.mem_cons, List.not_mem_nil, or_false]
  tauto

/-- The script has both texts after the edit when it had them, or when it is edited. -/
theorem editText_texts_iff (c : List Char) :
    (VerifyFragments.libraryPathText <:+: editText c ∧ VerifyFragments.twrp16Text <:+: editText c) ↔
      editGuard c ∨ VerifyFragments.libraryPathText <:+: c ∧ VerifyFragments.twrp16Text <:+: c := by
  by_cases guarded : editGuard c
  · obtain ⟨front, rest, rfl, none⟩ := first_occurrence guarded.1
    have line : setenvLine <:+: editText (front ++ marker ++ rest) := by
      rw [editText, if_pos guarded, replace_found none]
      exact ⟨front ++ marker, replace marker (marker ++ setenvLine) rest,
        by simp only [List.append_assoc]⟩
    have texts : VerifyFragments.libraryPathText <:+: setenvLine ∧
        VerifyFragments.twrp16Text <:+: setenvLine := by decide +kernel
    exact iff_of_true ⟨texts.1.trans line, texts.2.trans line⟩ (.inl guarded)
  · rw [editText, if_neg guarded, or_iff_right guarded]

/-- What is unpacked of F0 has no links where the checks look. -/
theorem F0Made.checkUnlinked {stock ci tree unpacked : FileSystem Bytes}
    (made : F0Made stock ci tree) (plain : F0TreesUnlinked stock ci)
    (smaller : unpacked.Extends tree) : VerifyFragments.F0Unlinked unpacked [] := by
  have unlinked {names : List Name} (stockPlain : Unlinked stock [] names) :
      Unlinked unpacked [] names := fun front within target found =>
    made.unlinked names stockPlain front within target (smaller _ _ found)
  refine ⟨unlinked plain.recovery, unlinked plain.res, fun lib member => ?_,
    unlinked plain.script⟩
  exact unlinked ((plain.targets lib ((checkedLibs_iff lib).mp member)).prefix_of
    (List.prefix_append _ _))

theorem present_of_smaller {tree unpacked : FileSystem Bytes} (smaller : unpacked.Extends tree)
    {location : Location} (present : unpacked.node location ≠ none) :
    tree.node location ≠ none := by
  obtain ⟨node, found⟩ := Option.ne_none_iff_exists'.mp present
  rw [smaller location node found]
  simp

/-- What the checks see in the unpacked tree, by the trees that F0 is made of. -/
theorem F0Made.accepted_iff {stock ci tree unpacked : FileSystem Bytes}
    (made : F0Made stock ci tree) (smaller : unpacked.Extends tree) :
    VerifyFragments.F0Accepted unpacked [] ↔
      (∀ lib ∈ twrp16Libs, ci.node (place [] (ciLibNames lib)) ≠ none ∨
        stock.node (place [] (twrp16LibNames lib)) ≠ none) ∧
      (∃ raw c, stock.node (place [] initRcNames) = some (.file raw) ∧ decodeText raw = some c ∧
        (editGuard c ∨ VerifyFragments.libraryPathText <:+: c ∧
          VerifyFragments.twrp16Text <:+: c)) ∧
      ∀ names ∈ checkedFiles, tree.node (place [] names) ≠ none →
        unpacked.node (place [] names) ≠ none := by
  have edited (c : List Char) (noReturn : '\r' ∉ c) :
      decodeText (encodeUtf8 (String.ofList (editText c))) = some (editText c) :=
    decodeText_plain (editText_plain noReturn) (decodeUtf8_encodeUtf8 _)
  have plainText {raw : Bytes} {c : List Char} (decoded : decodeText raw = some c) : '\r' ∉ c := by
    obtain ⟨text, _, rfl⟩ := Option.map_eq_some_iff.mp decoded
    exact universalNewlines_noReturn _
  constructor
  · intro accepted
    obtain ⟨data, content, found, read, texts⟩ := accepted.script
    obtain ⟨raw, c, stockScript, decoded, rfl⟩ := (made.script data).mp (smaller _ _ found)
    rw [edited c (plainText decoded)] at read
    cases read
    refine ⟨fun lib member => ?_, ⟨raw, c, stockScript, decoded, (editText_texts_iff c).mp texts⟩, ?_⟩
    · exact (made.library lib member).mp (present_of_smaller smaller
        (accepted.libs lib ((checkedLibs_iff lib).mpr member)))
    · intro names member _
      simp only [checkedFiles, List.mem_cons, List.mem_map] at member
      rcases member with rfl | lib
      · intro absent
        have there : unpacked.node (place [] initRcNames) = _ := found
        rw [absent] at there
        cases there
      · obtain ⟨lib, member, rfl⟩ := lib
        exact accepted.libs lib ((checkedLibs_iff lib).mpr member)
  · intro complete
    obtain ⟨libraries, ⟨raw, c, stockScript, decoded, texts⟩, kept⟩ := complete
    have absent {names : List Name} (gone : tree.node (place [] names) = none) :
        unpacked.node (place [] names) = none :=
      not_not.mp fun present => present_of_smaller smaller present gone
    have script : tree.node (place [] initRcNames) =
        some (.file (encodeUtf8 (String.ofList (editText c)))) :=
      (made.script _).mpr ⟨raw, c, stockScript, decoded, rfl⟩
    refine ⟨absent made.noRecovery, absent made.noRes, fun lib member => ?_, ?_⟩
    · have inPacked := (checkedLibs_iff lib).mp member
      refine kept (twrp16LibNames lib) ?_ ((made.library lib inPacked).mpr (libraries lib inPacked))
      exact List.mem_cons_of_mem _ (List.mem_map_of_mem inPacked)
    · have there := kept initRcNames List.mem_cons_self (by rw [script]; simp)
      obtain ⟨node, found⟩ := Option.ne_none_iff_exists'.mp there
      have same := smaller _ _ found
      rw [script] at same
      cases same
      exact ⟨_, editText c, found, edited c (plainText decoded), (editText_texts_iff c).mpr texts⟩

end

/-! ### Two runs -/

/-- A host with an empty `/tmp` and an empty `/out`. -/
def emptyHost : FileSystem Bytes :=
  .ofEntries [(["tmp"], .directory), (["out"], .directory)] (by decide)

/-- The same image three times, with F0 and F1 of one byte. -/
def threeImages : Arguments where
  stock := oneEntryLayout.encode
  ci := oneEntryLayout.encode
  validated := oneEntryLayout.encode
  staging := none
  dtroot := ["dt"]
  directory := ["out"]
  base := "fragments"

def runTmpdir : Location := ["frag", "tmp"]

def checkTmpdir : Location := ["check", "tmp"]

theorem parseImages_threeImages : parseImages threeImages =
    .ok ([[0xf0], [0xf1]], [[0xf0], [0xf1]], [[0xf0], [0xf1]]) := by
  have parsed : parse oneEntryLayout.encode = .ok [[0xf0], [0xf1]] := oneEntryLayout.parse_encode
  unfold parseImages threeImages
  simp only [parsed]
  rfl

/-- Programs that leave a tree, whatever they are given. -/
def unpackerOf (status : Int) (tree : FileSystem Bytes) : Unpacker where
  lz4 _ := .ok (status, [])
  cpio _ := .ok (status, tree)

def packer : Packer where
  find _ := .ok (0, [])
  cpio _ _ := .ok (0, [])
  lz4 _ := .ok (0, [1])

/-- One byte is no archive, and the programs fail on it. -/
def failingTools : Tools where
  stock := unpackerOf 1 .empty
  ci := unpackerOf 1 .empty
  validated := unpackerOf 1 .empty
  f0 := packer
  f1 := packer

/-- What the failing run packs as F0. -/
def bareF0 : FileSystem Bytes :=
  .ofEntries [(["system"], .directory), (["lib64", "system"], .directory),
    (["twrp16", "lib64", "system"], .directory)] (by decide)

/-- The script's directory, and a script that is edited. -/
def initRcEntries (script : List Char) : List (Location × Node Bytes) :=
  [(["system"], .directory), (["etc", "system"], .directory),
    (["init", "etc", "system"], .directory), (["hw", "init", "etc", "system"], .directory),
    (["init.rc", "hw", "init", "etc", "system"], .file (encodeUtf8 (String.ofList script)))]

def stockF0 : FileSystem Bytes := .ofEntries (initRcEntries marker) (by decide +kernel)

/-- A CI tree with all libraries. -/
def ciF1 : FileSystem Bytes :=
  .ofEntries ([(["system"], .directory), (["lib64", "system"], .directory)] ++
    twrp16Libs.map fun lib => ([lib, "lib64", "system"], .file [])) (by decide +kernel)

def editedEntries : List (Location × Node Bytes) :=
  initRcEntries (editText marker) ++ [(["lib64", "system"], .directory),
    (["twrp16", "lib64", "system"], .directory)] ++
    twrp16Libs.map fun lib => ([lib, "twrp16", "lib64", "system"], .file [])

def editedF0 : FileSystem Bytes := .ofEntries editedEntries (by decide +kernel)

def workingTools : Tools where
  stock := unpackerOf 0 stockF0
  ci := unpackerOf 0 ciF1
  validated := unpackerOf 0 .empty
  f0 := packer
  f1 := packer

theorem ofEntries_extends {φ : Type} {entries : List (Location × Node φ)}
    {closed : ∀ location ∈ entries.map Prod.fst,
      location.tail = [] ∨ entries.lookup location.tail = some .directory}
    {tree : FileSystem φ} (there : ∀ entry ∈ entries, tree.node entry.1 = some entry.2) :
    (FileSystem.ofEntries entries closed).Extends tree := by
  intro location node found
  change (if location = [] then some .directory else entries.lookup location) = some node at found
  split at found
  · rename_i top
    rw [top, tree.root, ← found]
  · obtain ⟨front, back, split, _⟩ := List.lookup_eq_some_iff.mp found
    exact there (location, node) (by simp [split])

theorem f0Tree_working : ∃ tree, f0Tree workingTools threeImages runTmpdir emptyHost = .ok tree ∧
    ∀ entry ∈ editedEntries, tree.node entry.1 = some entry.2 := by
  have read : (f0Tree workingTools threeImages runTmpdir emptyHost).toOption.map (fun tree =>
      decide (∀ entry ∈ editedEntries, tree.node entry.1 = some entry.2)) = some true := by
    unfold f0Tree prepareF0
    rw [parseImages_threeImages]
    decide +kernel
  obtain ⟨tree, made, entries⟩ := ok_of_read read
  exact ⟨tree, made, of_decide_eq_true entries⟩

theorem stockTree_working : stockTree workingTools threeImages = .ok stockF0 := by
  rw [stockTree, threeImages, oneEntryLayout.parse_encode]
  rfl

theorem ciTree_working : ciTree workingTools threeImages = .ok ciF1 := by
  rw [ciTree, threeImages, oneEntryLayout.parse_encode]
  rfl

theorem workingRun_ordinary :
    OrdinaryRun workingTools threeImages runTmpdir (unpackerOf 0 editedF0) checkTmpdir
      emptyHost where
  trees := by
    intro stock ci stockRead ciRead
    rw [stockTree_working] at stockRead
    rw [ciTree_working] at ciRead
    cases stockRead
    cases ciRead
    have stockPlain (names : List Name) : Unlinked stockF0 [] names :=
      unlinked_ofEntries _ (by decide +kernel) [] names
    have ciPlain (names : List Name) : Unlinked ciF1 [] names :=
      unlinked_ofEntries _ (by decide +kernel) [] names
    exact ⟨stockPlain _, stockPlain _, fun _ _ => stockPlain _, fun _ _ => ciPlain _, stockPlain _⟩
  outputs := by
    intro packed prepared output member
    have read : (prepare workingTools threeImages runTmpdir emptyHost).toOption.map (fun packed =>
        decide (packed.fs.node ["out"] = some .directory ∧
          ∀ output ∈ threeImages.outputFiles, packed.fs.node [output, "out"] = none)) =
        some true := by
      unfold prepare prepareF0
      rw [parseImages_threeImages]
      decide +kernel
    obtain ⟨again, made, nodes⟩ := ok_of_read read
    rw [made] at prepared
    cases prepared
    obtain ⟨directory, free⟩ := of_decide_eq_true nodes
    exact unlinked_single directory fun target found => by
      rw [threeImages, free output member] at found
      cases found
  apart := by decide
  probe := by
    intro after run
    have read : (main workingTools threeImages runTmpdir emptyHost).toOption.map (fun after =>
        (mkdtemp after checkTmpdir).isOk) = some true := by
      unfold main prepare prepareF0
      rw [parseImages_threeImages]
      decide +kernel
    obtain ⟨again, ran, made⟩ := ok_of_read read
    rw [ran] at run
    cases run
    cases makes : mkdtemp after checkTmpdir with
    | error error =>
        rw [makes] at made
        cases made
    | ok checked => exact ⟨checked, rfl⟩
  recovers := by
    intro tree f0Lz4 unpacked made _ unpacks
    obtain ⟨treeAgain, madeAgain, entries⟩ := f0Tree_working
    rw [made] at madeAgain
    cases madeAgain
    obtain ⟨archive, _, extracts⟩ := unpacks
    cases extracts
    exact ofEntries_extends entries

end DashTwrp.PrepareFragments
