import DashTwrp.ExtractFiles.Result
import DashTwrp.VerifyTree.Main

namespace DashTwrp.ExtractFiles

open DashTwrp.Python DashTwrp.Unix
open DashTwrp.VerifyTree (WorkingTree Artifact artifactChecks allPassed)

/-! The extraction script beside the artifact checks of the tree verifier.

`hexdigest` is a parameter: the digest that the verifier computes of a file's bytes. -/

/-- The entries of `artifacts.json`. -/
def pinned : List Artifact :=
  [{ destination := "prebuilt/dash-stock.dtb".toList, size := 535963
     sha256 := "2636d5a861e909f5bf32fb3b5c80b25824fbb6591e31a21b6b1326b6dc52d7e3".toList },
   { destination := "evidence/stock-recovery.fstab".toList, size := 9978
     sha256 := "dcd57d2fbab10b683ddecea92ae3a54a69ac161af7ef1b90d07190335931b565".toList },
   { destination := "rootdir/init.recovery.mt6991.rc".toList, size := 356
     sha256 := "ba8eddd72cbaad183012da73c1ebd1d2abbacb0ff1ed4eaad5dd0b4ec395371e".toList }]

/-- An entry for the file of a call. -/
def Copy.artifact (copy : Copy) (size : Int) : Artifact where
  destination := posixText copy.destination
  size := size
  sha256 := copy.sha256

/-- The sizes of `artifacts.json`, in the order of the calls. -/
def pinnedSizes : List Int := pinned.map Artifact.size

/-- The script and the verifier name the same files and digests. -/
theorem pinned_eq : pinned = (copies.zip pinnedSizes).map fun entry => entry.1.artifact entry.2 := by
  decide +kernel

theorem artifact_path {copy : Copy} {size : Int} (member : copy ∈ copies) :
    VerifyTree.purePath (copy.artifact size).destination = .ofNames [copy.folder, copy.file] := by
  have all : ∀ copy ∈ copies,
      VerifyTree.purePath (posixText copy.destination) = .ofNames [copy.folder, copy.file] := by
    decide +kernel
  exact all copy member

section

variable {hexdigest : Bytes → List Char} {tree later : WorkingTree} {copy : Copy} {size : Int}

theorem holdsArtifact_iff (host : PlainHost tree.root tree.files) (member : copy ∈ copies) :
    tree.HoldsArtifact hexdigest (copy.artifact size) ↔
      ∃ data, tree.files.node (place tree.root copy.destination) = some (.file data) ∧
        (data.length : Int) = size ∧ hexdigest data = copy.sha256 := by
  unfold WorkingTree.HoldsArtifact
  rw [artifact_path member]
  simp only [((host.free copy member).unlinked.stat_iff true)]
  rfl

theorem pinned_passed_iff : allPassed (pinned.flatMap (artifactChecks hexdigest tree)) = true ↔
    ∀ entry ∈ copies.zip pinnedSizes, tree.HoldsArtifact hexdigest (entry.1.artifact entry.2) := by
  rw [VerifyTree.allPassed_flatMap, pinned_eq, List.forall_mem_map]
  exact forall₂_congr fun entry _ => VerifyTree.artifactChecks_passed_iff

/-- The three sources are files with their digests. -/
theorem sources_of_all {sha256sum : Location → Bytes → List Char} {deviceRoot : Location}
    {fs : FileSystem Bytes}
    (prints : ∀ copy ∈ copies, ∀ data, sha256sum (sourceOf deviceRoot copy) data = hexdigest data)
    (all : ∀ copy ∈ copies, hasDigest sha256sum deviceRoot fs copy = true) :
    ∀ copy ∈ copies, ∃ data, fs.node (sourceOf deviceRoot copy) = some (.file data) ∧
      hexdigest data = copy.sha256 := by
  intro copy member
  obtain ⟨data, found, digest⟩ := hasDigest_iff.mp (all copy member)
  exact ⟨data, found, by rw [← prints copy member, digest]⟩

/-- A file of the device tree that has the digest of its source is the source's. -/
def NoCollisions (hexdigest : Bytes → List Char) (tree : WorkingTree) : Prop :=
  ∀ copy ∈ copies, ∀ data old, tree.files.node (sourceOf tree.root copy) = some (.file data) →
    tree.files.node (place tree.root copy.destination) = some (.file old) →
      hexdigest old = hexdigest data → old = data

/-- The file of a call is there with its digest. -/
def Installed (hexdigest : Bytes → List Char) (tree : WorkingTree) (copy : Copy) : Prop :=
  ∃ old, tree.files.node (place tree.root copy.destination) = some (.file old) ∧
    hexdigest old = copy.sha256

/-- A run that succeeds leaves the artifacts that the verifier wants, up to the sizes of the
sources, and changes nothing where they are there already. -/
theorem main_verified (sha256sum : Location → Bytes → List Char) (hexdigest : Bytes → List Char)
    (tree later : WorkingTree) (host : PlainHost tree.root tree.files)
    (prints : ∀ copy ∈ copies, ∀ data, sha256sum (sourceOf tree.root copy) data = hexdigest data)
    (sameRoot : later.root = tree.root)
    (ran : main sha256sum tree.root tree.files = (0, later.files)) :
    (allPassed (pinned.flatMap (artifactChecks hexdigest later)) = true ↔
      ∀ entry ∈ copies.zip pinnedSizes, ∃ data,
        tree.files.node (sourceOf tree.root entry.1) = some (.file data) ∧
          (data.length : Int) = entry.2) ∧
    ((∀ copy ∈ copies, Installed hexdigest tree copy) → NoCollisions hexdigest tree →
      later.files = tree.files) := by
  obtain ⟨after, made, progress⟩ := main_progress sha256sum host
  rw [made, Prod.mk.injEq] at ran
  obtain ⟨zero, rfl⟩ := ran
  have all : ∀ copy ∈ copies, hasDigest sha256sum tree.root tree.files copy = true := by
    rw [← List.all_eq_true]
    by_contra notAll
    rw [if_neg notAll] at zero
    cases zero
  rw [List.takeWhile_eq_self_iff.mpr all] at progress
  have sources := sources_of_all prints all
  have plain : PlainHost later.root later.files := sameRoot ▸ progress.plain
  constructor
  · rw [pinned_passed_iff]
    refine forall₂_congr fun entry listed => ?_
    have member := (List.of_mem_zip listed).1
    rw [holdsArtifact_iff plain member, sameRoot, progress.extracted.there entry.1 member]
    obtain ⟨data, found, digest⟩ := sources entry.1 member
    simp only [found, Option.some.injEq, Node.file.injEq, exists_eq_left', digest, and_true]
  · intro installed distinct
    refine progress.extracted.unchanged (fun copy member => ?_) fun copy member => ?_
    · obtain ⟨data, found, digest⟩ := sources copy member
      obtain ⟨old, there, oldDigest⟩ := installed copy member
      rw [found, there, distinct copy member data old found there (oldDigest.trans digest.symm)]
    · obtain ⟨data, found, _⟩ := sources copy member
      rw [found]
      simp

end

/-! ### A working copy with its three files -/

/-- The calls with the bytes of their sources. -/
def numbered : List (Copy × Bytes) := copies.zip [[1], [2], [3]]

/-- The files are in the device tree already. -/
def installedEntries : List (Location × Node Bytes) :=
  stockFolders ++ numbered.map (fun entry => (place [] entry.1.source, .file entry.2)) ++
    [["prebuilt"], ["evidence"], ["rootdir"]].map (fun names => (place dash names, .directory)) ++
    numbered.map fun entry => (place dash entry.1.destination, .file entry.2)

def installedHost : FileSystem Bytes := .ofEntries installedEntries (by decide +kernel)

def installedTree : WorkingTree where
  files := installedHost
  root := dash
  listing := _
  lists := lists_ofEntries _
  named := by
    intro location present
    have listed := (lists_ofEntries _ location).mpr present
    have every : ∀ location ∈ [] :: installedEntries.map Prod.fst, ∀ name ∈ location,
        name ≠ "" ∧ name ≠ "." ∧ name ≠ ".." ∧ '/' ∉ name.toList := by decide +kernel
    intro name member
    obtain ⟨nonempty, notHere, notUp, noSeparator⟩ := every location listed name member
    exact ⟨nonempty, notHere, notUp, noSeparator⟩

/-- The digests of the three sources. -/
def numberedDigest (data : Bytes) : List Char :=
  ((numbered.find? (·.2 = data)).map (·.1.sha256)).getD []

theorem installedHost_plain : PlainHost dash installedHost where
  sources := fun _ _ => unlinked_ofEntries _ (by decide +kernel) _ _
  apart := by decide
  free := by
    have nodes : installedHost.node dash = some .directory ∧ ∀ copy ∈ copies,
        installedHost.node (copy.folder :: dash) = some .directory ∧
          ∃ data ∈ numbered.map Prod.snd,
            installedHost.node (copy.file :: copy.folder :: dash) = some (.file data) := by
      decide +kernel
    intro copy member
    obtain ⟨folder, data, _, file⟩ := nodes.2 copy member
    exact ⟨nodes.1, .inr folder, .inr ⟨data, file⟩⟩

theorem installedHost_kept : main (fun _ => numberedDigest) dash installedHost =
    (0, installedHost) := by
  obtain ⟨after, made, progress⟩ := main_progress (fun _ => numberedDigest) installedHost_plain
  have all : ∀ copy ∈ copies,
      hasDigest (fun _ => numberedDigest) dash installedHost copy = true := by decide +kernel
  have there : ∀ copy ∈ copies, installedHost.node (place dash copy.destination) =
      installedHost.node (sourceOf dash copy) := by decide +kernel
  have present : ∀ copy ∈ copies, installedHost.node (sourceOf dash copy) ≠ none := by
    decide +kernel
  rw [List.takeWhile_eq_self_iff.mpr all] at progress
  rw [made, progress.extracted.unchanged there present, if_pos (List.all_eq_true.mpr all)]

/-- The digests are right and the sizes are not. -/
theorem main_verified_installedTree :
    ¬ allPassed (pinned.flatMap (artifactChecks numberedDigest installedTree)) = true := by
  have sizes := (main_verified (fun _ => numberedDigest) numberedDigest installedTree installedTree
    installedHost_plain (fun _ _ _ => rfl) rfl installedHost_kept).1
  intro passed
  have first : ∃ entry ∈ copies.zip pinnedSizes,
      installedHost.node (sourceOf dash entry.1) = some (.file [1]) ∧ entry.2 ≠ 1 := by
    decide +kernel
  obtain ⟨entry, listed, found, notOne⟩ := first
  obtain ⟨data, there, size⟩ := sizes.mp passed entry listed
  have same : data = [1] := Node.file.inj (Option.some.inj (there.symm.trans found))
  rw [same] at size
  exact notOne size.symm

end DashTwrp.ExtractFiles
