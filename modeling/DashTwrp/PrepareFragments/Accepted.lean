import DashTwrp.PrepareFragments.Frame
import DashTwrp.RepackF1.Fixpoint
import DashTwrp.VerifyFragments.Main

namespace DashTwrp.PrepareFragments

open DashTwrp.Python DashTwrp.Unix DashTwrp.InitRc DashTwrp.VendorBoot
open DashTwrp.RepackF1 (subtreeAt readFile nodesAt nodesAt_injective nodesAt_above)
open DashTwrp.VerifyFragments (f1Names F0Accepted F1Accepted F1Unlinked Session Holds PlainFragment)

/-! When the checker accepts both fragments that a run leaves. -/

/-! ### The files that the checks of F1 ask for -/

/-- One of the two overlays puts a file at a path. -/
def Overlaid (fs : FileSystem Bytes) (args : Arguments) (names : List Name) : Prop :=
  (∃ tree ∈ args.staging, names ∈ stagingOverlayFiles ∧
    fs.pathExists tree (.ofNames names) = true) ∨
  ∃ rc ∈ dtOverlayRcs, names = [rc] ∧ fs.pathExists args.dtroot (.ofNames (dtRcNames rc)) = true

section

variable {args : Arguments} {fs validated tree unpacked : FileSystem Bytes} {names : List Name}

theorem overlaid_iff : Overlaid fs args names ↔ ∃ node, (names, node) ∈ overlayNodes fs args := by
  simp only [overlayNodes, List.mem_append, mem_stagedNodes, rcNodes, mem_nodesOf, Overlaid,
    exists_or]
  refine or_congr ⟨?_, ?_⟩ ⟨?_, ?_⟩
  · intro staged
    obtain ⟨root, isRoot, member, present⟩ := staged
    obtain ⟨node, found⟩ := stagedNode_of_exists present
    exact ⟨node, root, isRoot, member, found⟩
  · intro listed
    obtain ⟨node, root, isRoot, member, found⟩ := listed
    exact ⟨root, isRoot, member, (stagedNode_eq_some_iff.mp found).1⟩
  · intro script
    obtain ⟨rc, member, rfl, present⟩ := script
    obtain ⟨node, found⟩ := exists_iff_stat.mp present
    exact ⟨node, rc, member, rcNode_eq_some_iff.mpr found, rfl⟩
  · intro listed
    obtain ⟨node, rc, member, found, rfl⟩ := listed
    exact ⟨rc, member, rfl, exists_iff_stat.mpr ⟨node, rcNode_eq_some_iff.mp found⟩⟩

theorem overlayNodes_path {entry : List Name × Node Bytes} (listed : entry ∈ overlayNodes fs args) :
    entry.1 ∈ stagingOverlayFiles ++ dtOverlayRcs.map fun rc => [rc] := by
  have paths : (overlayNodes fs args).map Prod.fst |>.Sublist
      (stagingOverlayFiles ++ dtOverlayRcs.map fun rc => [rc]) := by
    rw [overlayNodes, List.map_append]
    exact (stagedNodes_sublist fs args.staging).append (nodesOf_sublist _ _ _)
  exact paths.subset (List.mem_map_of_mem listed)

/-- On the way to an overlay lies none of the files. -/
theorem f1Names_apart : ∀ names ∈ f1Names,
    ∀ path ∈ stagingOverlayFiles ++ dtOverlayRcs.map (fun rc => [rc]),
      names <+: path → names = path := by
  decide

theorem F1Tree.present_iff (made : F1Tree args fs validated tree) (member : names ∈ f1Names) :
    tree.node (place [] names) ≠ none ↔
      validated.node (place [] names) ≠ none ∨ Overlaid fs args names := by
  by_cases overlaid : Overlaid fs args names
  · obtain ⟨node, listed⟩ := overlaid_iff.mp overlaid
    refine iff_of_true ?_ (.inr overlaid)
    rw [made.overlaid (names, node) listed]
    simp
  · rw [made.validated names, or_iff_left overlaid]
    intro entry listed within
    have same := f1Names_apart names member entry.1 (overlayNodes_path listed) within
    exact overlaid (overlaid_iff.mpr ⟨entry.2, same ▸ listed⟩)

/-- The tree that is packed has no links where the checks look. -/
theorem F1Tree.unlinked (made : F1Tree args fs validated tree) (plain : F1Unlinked validated [])
    (overlays : ∀ entry ∈ overlayNodes fs args, ∀ target, entry.2 ≠ .link target) :
    F1Unlinked tree [] := by
  intro names member front within target found
  by_cases onWay : ∃ entry ∈ overlayNodes fs args, front <+: entry.1
  · obtain ⟨entry, listed, inside⟩ := onWay
    have there := made.overlaid entry listed
    by_cases whole : front = entry.1
    · rw [whole, there] at found
      exact overlays entry listed target (Option.some.inj found)
    · have present : nodesAt tree entry.1 ≠ none := by
        rw [nodesAt, there]
        simp
      have directory : tree.node (place [] front) = some .directory :=
        nodesAt_above present inside whole
      rw [directory] at found
      cases found
  · rw [made.validated front fun entry listed inside => onWay ⟨entry, listed, inside⟩] at found
    exact plain names member front within target found

/-- The validated tree and the overlays determine the tree that is packed. -/
theorem F1Tree.unique {other : FileSystem Bytes} (made : F1Tree args fs validated tree)
    (again : F1Tree args fs validated other) : tree = other := by
  refine nodesAt_injective (funext fun names => ?_)
  by_cases onWay : ∃ entry ∈ overlayNodes fs args, names <+: entry.1
  · obtain ⟨entry, listed, inside⟩ := onWay
    by_cases whole : names = entry.1
    · rw [whole, nodesAt, nodesAt, made.overlaid entry listed, again.overlaid entry listed]
    · have present {tree : FileSystem Bytes} (made : F1Tree args fs validated tree) :
          nodesAt tree entry.1 ≠ none := by
        rw [nodesAt, made.overlaid entry listed]
        simp
      rw [nodesAt_above (present made) inside whole, nodesAt_above (present again) inside whole]
  · have off : ∀ entry ∈ overlayNodes fs args, ¬ names <+: entry.1 :=
      fun entry listed inside => onWay ⟨entry, listed, inside⟩
    rw [nodesAt, nodesAt, made.validated names off, again.validated names off]

theorem f1Unlinked_of_extends (smaller : unpacked.Extends tree) (plain : F1Unlinked tree []) :
    F1Unlinked unpacked [] :=
  fun names member front within target found =>
    plain names member front within target (smaller _ _ found)

end

/-! ### Both fragments -/

section

variable (tools : Tools) (args : Arguments) (tmpdir : Location)

/-- The files that the checks of F1 ask for are in the validated tree or in an overlay, and
the archive of F1 can be unpacked without a loss of any of them. -/
structure CompleteF1 (checker : Unpacker) (fs : FileSystem Bytes) : Prop where
  files : ∀ validated, validatedTree tools args = .ok validated →
    ∀ names ∈ f1Names, validated.node (place [] names) ≠ none ∨ Overlaid fs args names
  archive : ∀ validated tree f1Lz4, validatedTree tools args = .ok validated →
    F1Tree args fs validated tree → packTree tools.f1 tree = .ok f1Lz4 →
      ∃ unpacked, checker.Unpacks f1Lz4 unpacked ∧
        ∀ names ∈ f1Names, tree.node (place [] names) ≠ none →
          unpacked.node (place [] names) ≠ none

/-- A run without links where the tools read and write, with archives from which nothing
comes that was not packed. -/
structure CheckedRun (f0Checker f1Checker : Unpacker) (fs : FileSystem Bytes) : Prop where
  plain : PlainRun tools args tmpdir fs
  f1Links : ∀ validated, validatedTree tools args = .ok validated → F1Unlinked validated []
  overlays : ∀ entry ∈ overlayNodes fs args, ∀ target, entry.2 ≠ .link target
  f0Recovers : ∀ tree f0Lz4 unpacked, f0Tree tools args tmpdir fs = .ok tree →
    packTree tools.f0 tree = .ok f0Lz4 → f0Checker.Unpacks f0Lz4 unpacked → unpacked.Extends tree
  f1Recovers : ∀ validated tree f1Lz4 unpacked, validatedTree tools args = .ok validated →
    F1Tree args fs validated tree → packTree tools.f1 tree = .ok f1Lz4 →
      f1Checker.Unpacks f1Lz4 unpacked → unpacked.Extends tree

end

section

variable {tools : Tools} {args : Arguments} {tmpdir : Location} {checker : Unpacker}
    {fs stock ci validated f0 f1 : FileSystem Bytes} {f0Lz4 f1Lz4 : Bytes}

/-- What is complete about the trees and the archive that there are. -/
theorem complete_iff (stockRead : stockTree tools args = .ok stock)
    (ciRead : ciTree tools args = .ok ci) (f0Read : f0Tree tools args tmpdir fs = .ok f0)
    (packs : packTree tools.f0 f0 = .ok f0Lz4) :
    Complete tools args tmpdir checker fs ↔
      (∀ lib ∈ twrp16Libs, ci.node (place [] (ciLibNames lib)) ≠ none ∨
        stock.node (place [] (twrp16LibNames lib)) ≠ none) ∧
      (∃ raw c, stock.node (place [] initRcNames) = some (.file raw) ∧ decodeText raw = some c ∧
        (editGuard c ∨ VerifyFragments.libraryPathText <:+: c ∧
          VerifyFragments.twrp16Text <:+: c)) ∧
      ∃ unpacked, checker.Unpacks f0Lz4 unpacked ∧
        ∀ names ∈ checkedFiles, f0.node (place [] names) ≠ none →
          unpacked.node (place [] names) ≠ none := by
  constructor
  · intro complete
    exact ⟨complete.libraries stock ci stockRead ciRead, complete.script stock stockRead,
      complete.archive f0 f0Lz4 f0Read packs⟩
  · intro given
    obtain ⟨libraries, script, archive⟩ := given
    refine ⟨fun stockAgain ciAgain stockReadAgain ciReadAgain => ?_,
      fun stockAgain stockReadAgain => ?_, fun f0Again f0Lz4Again f0ReadAgain packsAgain => ?_⟩
    · cases stockRead.symm.trans stockReadAgain
      cases ciRead.symm.trans ciReadAgain
      exact libraries
    · cases stockRead.symm.trans stockReadAgain
      exact script
    · cases f0Read.symm.trans f0ReadAgain
      cases packs.symm.trans packsAgain
      exact archive

theorem f0_accepted_iff (stockRead : stockTree tools args = .ok stock)
    (ciRead : ciTree tools args = .ok ci) (f0Read : f0Tree tools args tmpdir fs = .ok f0)
    (packs : packTree tools.f0 f0 = .ok f0Lz4) (made : F0Made stock ci f0)
    (recovers : ∀ unpacked, checker.Unpacks f0Lz4 unpacked → unpacked.Extends f0) :
    (∃ unpacked, checker.Unpacks f0Lz4 unpacked ∧ F0Accepted unpacked []) ↔
      Complete tools args tmpdir checker fs := by
  rw [complete_iff stockRead ciRead f0Read packs]
  constructor
  · intro accepted
    obtain ⟨unpacked, unpacks, accepted⟩ := accepted
    obtain ⟨libraries, script, kept⟩ := (made.accepted_iff (recovers unpacked unpacks)).mp accepted
    exact ⟨libraries, script, unpacked, unpacks, kept⟩
  · intro complete
    obtain ⟨libraries, script, unpacked, unpacks, kept⟩ := complete
    exact ⟨unpacked, unpacks,
      (made.accepted_iff (recovers unpacked unpacks)).mpr ⟨libraries, script, kept⟩⟩

theorem f1_accepted_iff (valRead : validatedTree tools args = .ok validated)
    (packs : packTree tools.f1 f1 = .ok f1Lz4) (made : F1Tree args fs validated f1)
    (recovers : ∀ unpacked, checker.Unpacks f1Lz4 unpacked → unpacked.Extends f1) :
    (∃ unpacked, checker.Unpacks f1Lz4 unpacked ∧ F1Accepted unpacked []) ↔
      CompleteF1 tools args checker fs := by
  constructor
  · intro accepted
    obtain ⟨unpacked, unpacks, accepted⟩ := accepted
    refine ⟨fun validatedAgain valReadAgain names member => ?_,
      fun validatedAgain f1Again f1Lz4Again valReadAgain madeAgain packsAgain => ?_⟩
    · cases valRead.symm.trans valReadAgain
      exact (made.present_iff member).mp
        (present_of_smaller (recovers unpacked unpacks) (accepted names member))
    · cases valRead.symm.trans valReadAgain
      cases made.unique madeAgain
      cases packs.symm.trans packsAgain
      exact ⟨unpacked, unpacks, fun names member _ => accepted names member⟩
  · intro complete
    obtain ⟨unpacked, unpacks, kept⟩ := complete.archive validated f1 f1Lz4 valRead made packs
    exact ⟨unpacked, unpacks, fun names member =>
      kept names member ((made.present_iff member).mpr (complete.files validated valRead names member))⟩

theorem holds_iff {after : FileSystem Bytes} {path : PurePath} {data : Bytes}
    {Accepted : FileSystem Bytes → Prop} (read : readFile after [] path = .ok data) :
    Holds checker after [] path Accepted ↔ ∃ tree, checker.Unpacks data tree ∧ Accepted tree := by
  constructor
  · intro holds
    obtain ⟨dataAgain, tree, readAgain, unpacks, accepted⟩ := holds
    cases read.symm.trans readAgain
    exact ⟨tree, unpacks, accepted⟩
  · intro found
    obtain ⟨tree, unpacks, accepted⟩ := found
    exact ⟨data, tree, read, unpacks, accepted⟩

end

section

variable {tools : Tools} {args : Arguments} {tmpdir : Location} {f0Session f1Session : Session}
    {fs after left : FileSystem Bytes} {status : Nat}

theorem fragmentPath_absolute (directory : Location) (base suffix : Name) :
    VerifyFragments.fragmentPath (absolutePath directory) base suffix =
      absolutePath ((base ++ suffix) :: directory) := by
  simp [VerifyFragments.fragmentPath, absolutePath]

/-- The checker exits with 0 on the prefix of a run exactly when the images, the staging
tree and the device tree have what the two fragments need, and both archives keep it. -/
theorem checker_accepts_iff
    (ordinary : CheckedRun tools args tmpdir f0Session.unpacker f1Session.unpacker fs)
    (run : main tools args tmpdir fs = .ok after)
    (checked : VerifyFragments.main f0Session f1Session [] (absolutePath args.directory) args.base
      after = .ok (status, left)) :
    left = after ∧
      (status = 0 ↔ Complete tools args tmpdir f0Session.unpacker fs ∧
        CompleteF1 tools args f1Session.unpacker fs) := by
  have plain := ordinary.plain
  obtain ⟨packed, prepared, finished⟩ := main_finished plain run
  obtain ⟨stock, ci, f0, stockRead, ciRead, f0Read, packsF0, f0Made⟩ := prepare_f0 prepared
  obtain ⟨validated, f1, valRead, read, packsF1, f1Made, _⟩ := prepare_f1 plain prepared
  have trees := plain.f0Trees stock ci stockRead ciRead
  have f0Made := f0Made trees
  have f1Tree := f1Made.tree read
  have f0Opened : readFile after [] (VerifyFragments.f0Path (absolutePath args.directory) args.base) =
      .ok packed.f0Lz4 := by
    rw [VerifyFragments.f0Path, fragmentPath_absolute]
    exact readFile_absolute finished.f0 []
  have f1Opened : readFile after [] (VerifyFragments.f1Path (absolutePath args.directory) args.base) =
      .ok packed.f1Lz4 := by
    rw [VerifyFragments.f1Path, fragmentPath_absolute]
    exact readFile_absolute finished.f1 []
  have f0Recovers := fun unpacked => ordinary.f0Recovers f0 packed.f0Lz4 unpacked f0Read packsF0
  have f1Recovers := fun unpacked =>
    ordinary.f1Recovers validated f1 packed.f1Lz4 unpacked valRead f1Tree packsF1
  have f1Links := f1Tree.unlinked (ordinary.f1Links validated valRead) ordinary.overlays
  rcases VerifyFragments.main_eq_ok checked with missing | both
  · obtain ⟨_, _, absent⟩ := missing
    rw [VerifyFragments.readFile_exists f0Opened, VerifyFragments.readFile_exists f1Opened] at absent
    cases absent <;> contradiction
  · obtain ⟨f0Ok, f1Ok, middle, f0Run, f1Run, rfl⟩ := both
    obtain ⟨rfl, f0Verdict⟩ := VerifyFragments.verifyF0_verdict (fun data tree opened unpacks => by
      cases f0Opened.symm.trans opened
      exact f0Made.checkUnlinked trees (f0Recovers tree unpacks)) f0Run
    obtain ⟨rfl, f1Verdict⟩ := VerifyFragments.verifyF1_verdict (fun data tree opened unpacks => by
      cases f1Opened.symm.trans opened
      exact f1Unlinked_of_extends (f1Recovers tree unpacks) f1Links) f1Run
    refine ⟨rfl, ?_⟩
    rw [VerifyFragments.status_eq_zero_iff, f0Verdict, f1Verdict, holds_iff f0Opened,
      holds_iff f1Opened, f0_accepted_iff stockRead ciRead f0Read packsF0 f0Made f0Recovers,
      f1_accepted_iff valRead packsF1 f1Tree f1Recovers]

end

/-- What is packed as F1 on the host with the device tree. -/
def packedF1Entries : List (Location × Node Bytes) :=
  [(["system"], .directory), (["lib64", "system"], .directory), (["bin", "system"], .directory),
    (["libc.so", "lib64", "system"], .file []), (["libtwrpmtp-ffs.so", "lib64", "system"], .file []),
    (["recovery", "bin", "system"], .file [0x7f])] ++
    dtOverlayRcs.map fun rc => ([rc], .file [2])

def packedF1 : FileSystem Bytes := .ofEntries packedF1Entries (by decide +kernel)

theorem packedF1_tree : F1Tree deviceArguments deviceHost validatedF1 packedF1 where
  overlaid := by decide +kernel
  validated := by
    have each : ∀ location ∈ [] :: packedF1Entries.map Prod.fst,
        (∀ entry ∈ overlayNodes deviceHost deviceArguments, ¬ location.reverse <+: entry.1) →
          packedF1.node location = validatedF1.node location := by
      decide +kernel
    have fewer : ∀ location ∈ [[], ["system"], ["lib64", "system"], ["libc.so", "lib64", "system"],
        ["libtwrpmtp-ffs.so", "lib64", "system"]],
        location ∈ [] :: packedF1Entries.map Prod.fst := by
      decide +kernel
    intro names off
    by_cases listed : place [] names ∈ [] :: packedF1Entries.map Prod.fst
    · refine each _ listed ?_
      simpa [place] using off
    · have absent : packedF1.node (place [] names) = none :=
        not_not.mp fun present => listed ((lists_ofEntries _ _).mpr present)
      have absentValidated : validatedF1.node (place [] names) = none :=
        not_not.mp fun present => listed (fewer _ ((lists_ofEntries _ _).mpr present))
      rw [absent, absentValidated]

theorem f0Tree_device : ∃ tree,
    f0Tree deviceTools deviceArguments runTmpdir deviceHost = .ok tree ∧
      ∀ entry ∈ editedEntries, tree.node entry.1 = some entry.2 := by
  have read : (f0Tree deviceTools deviceArguments runTmpdir deviceHost).toOption.map (fun tree =>
      decide (∀ entry ∈ editedEntries, tree.node entry.1 = some entry.2)) = some true := by
    unfold f0Tree prepareF0
    rw [show parseImages deviceArguments = parseImages threeImages from rfl, parseImages_threeImages]
    decide +kernel
  obtain ⟨tree, made, entries⟩ := ok_of_read read
  exact ⟨tree, made, of_decide_eq_true entries⟩

theorem deviceRun_checked : CheckedRun deviceTools deviceArguments runTmpdir
    (unpackerOf 0 editedF0) (unpackerOf 0 packedF1) deviceHost where
  plain := deviceRun_plain
  f1Links := by
    intro validated read
    cases deviceTrees.2.2.symm.trans read
    exact fun _ _ => validatedF1_unlinked _
  overlays := by
    have files : ∀ entry ∈ overlayNodes deviceHost deviceArguments, entry.2.isLink = false := by
      decide +kernel
    intro entry listed target link
    have plain := files entry listed
    rw [link] at plain
    cases plain
  f0Recovers := by
    intro tree f0Lz4 unpacked made _ unpacks
    obtain ⟨treeAgain, madeAgain, entries⟩ := f0Tree_device
    cases made.symm.trans madeAgain
    obtain ⟨_, _, extracts⟩ := unpacks
    cases extracts
    exact ofEntries_extends entries
  f1Recovers := by
    intro validated tree f1Lz4 unpacked read made _ unpacks
    cases deviceTrees.2.2.symm.trans read
    obtain ⟨_, _, extracts⟩ := unpacks
    cases extracts
    rw [made.unique packedF1_tree]
    exact .refl _

theorem checker_accepts_iff_deviceHost :
    (∃ after, main deviceTools deviceArguments runTmpdir deviceHost = .ok after) ∧
      Complete deviceTools deviceArguments runTmpdir (unpackerOf 0 editedF0) deviceHost ∧
      CompleteF1 deviceTools deviceArguments (unpackerOf 0 packedF1) deviceHost := by
  have runs : (main deviceTools deviceArguments runTmpdir deviceHost).toOption.map (fun after =>
      (VerifyFragments.main ⟨unpackerOf 0 editedF0, checkTmpdir⟩ ⟨unpackerOf 0 packedF1, checkTmpdir⟩
        [] (absolutePath deviceArguments.directory) deviceArguments.base after).toOption.map
          Prod.fst) = some (some 0) := by
    unfold main prepare prepareF0
    rw [show parseImages deviceArguments = parseImages threeImages from rfl, parseImages_threeImages]
    decide +kernel
  obtain ⟨after, run, verdict⟩ := ok_of_read runs
  obtain ⟨⟨status, left⟩, checked, zero⟩ := ok_of_read verdict
  exact ⟨⟨after, run⟩, (checker_accepts_iff deviceRun_checked run checked).2.mp zero⟩

end DashTwrp.PrepareFragments
