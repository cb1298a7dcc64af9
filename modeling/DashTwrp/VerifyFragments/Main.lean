import DashTwrp.VerifyFragments.Acceptance

namespace DashTwrp.VerifyFragments

open DashTwrp.Python DashTwrp.Unix
open DashTwrp.PrepareFragments (initRcNames twrp16LibNames)
open DashTwrp.RepackF1 (readFile)

/-! The fragment checker as a whole: its exit status for the two fragments of a prefix. -/

/-- The programs and the new directory of the checks of one fragment. -/
structure Session where
  unpacker : Unpacker
  tmpdir : Location

/-- `f"{prefix}.f0.lz4"` and `f"{prefix}.f1.lz4"`, where the prefix has the given last
component. -/
def fragmentPath (directory : PurePath) (base suffix : Name) : PurePath :=
  { directory with steps := directory.steps ++ [.name (base ++ suffix)] }

section

variable (f0Session f1Session : Session) (start : Location) (directory : PurePath) (base : Name)

/-- `f0` -/
def f0Path : PurePath := fragmentPath directory base ".f0.lz4"

/-- `f1` -/
def f1Path : PurePath := fragmentPath directory base ".f1.lz4"

/-- `main`: the exit status, and the files it leaves. -/
def main (fs : FileSystem Bytes) : Except RunError (Nat × FileSystem Bytes) :=
  if fs.pathExists start (f0Path directory base) = false then .ok (1, fs)
  else if fs.pathExists start (f1Path directory base) = false then .ok (1, fs)
  else do
    let (f0Ok, fs) ← verifyF0 f0Session.unpacker fs f0Session.tmpdir start (f0Path directory base)
    let (f1Ok, fs) ← verifyF1 f1Session.unpacker fs f1Session.tmpdir start (f1Path directory base)
    pure (if f0Ok && f1Ok then 0 else 1, fs)

end

/-- The paths that the checks of F1 ask for. -/
def f1Names : List (List Name) :=
  [["system", "bin", "recovery"], ["init.recovery.mt6991.rc"], ["init.recovery.project.rc"],
    ["system", "lib64", "libc.so"], ["system", "lib64", "libtwrpmtp-ffs.so"]]

def F1Unlinked (fs : FileSystem Bytes) (root : Location) : Prop :=
  ∀ names ∈ f1Names, Unlinked fs root names

/-- The checks of F1, by the nodes of the tree. -/
def F1Accepted (fs : FileSystem Bytes) (root : Location) : Prop :=
  ∀ names ∈ f1Names, fs.node (place root names) ≠ none

section

variable {fs before tree after : FileSystem Bytes} {root : Location}

theorem verifyF1Tree_accepts_iff (unlinked : F1Unlinked fs root) :
    verifyF1Tree fs root = .ok true ↔ F1Accepted fs root := by
  have paths : f1Checks = f1Names.map .ofNames := rfl
  rw [verifyF1Tree, Except.ok.injEq, paths, List.all_map, List.all_eq_true]
  exact forall₂_congr fun names member => (unlinked names member).exists_iff

theorem f1Accepted_planted (planted : Planted root before tree after) :
    F1Accepted after root ↔ F1Accepted tree [] := by
  simp only [F1Accepted, planted.node_place]

theorem F1Unlinked.planted (unlinked : F1Unlinked tree []) (planted : Planted root before tree after) :
    F1Unlinked after root :=
  fun names member => planted.unlinked (unlinked names member)

end

/-! ### The verdict -/

/-- A file from which the programs get an acceptable tree. -/
def Holds (unpacker : Unpacker) (fs : FileSystem Bytes) (start : Location) (path : PurePath)
    (Accepted : FileSystem Bytes → Prop) : Prop :=
  ∃ data tree, readFile fs start path = .ok data ∧ unpacker.Unpacks data tree ∧ Accepted tree

/-- The trees that a check is given have no links where it looks. -/
def PlainFragment (unpacker : Unpacker) (fs : FileSystem Bytes) (start : Location) (path : PurePath)
    (Plain : FileSystem Bytes → Prop) : Prop :=
  ∀ data tree, readFile fs start path = .ok data → unpacker.Unpacks data tree → Plain tree

section

variable {unpacker : Unpacker} {fs left : FileSystem Bytes} {tmpdir start : Location} {dest : Name}
  {path : PurePath} {check : FileSystem Bytes → Location → Except VerifyError Bool}
  {Plain Accepted : FileSystem Bytes → Prop}

/-- Where the check of a tree is what it should be, so is that of a file. -/
theorem verifyFragment_verdict {accepted : Bool}
    (plain : PlainFragment unpacker fs start path Plain)
    (decides : ∀ before tree after, Planted (dest :: tmpdir) before tree after → Plain tree →
      (check after (dest :: tmpdir) = .ok true ↔ Accepted tree))
    (verified : verifyFragment unpacker fs tmpdir start path check dest = .ok (accepted, left)) :
    left = fs ∧ (accepted = true ↔ Holds unpacker fs start path Accepted) := by
  obtain ⟨same, data, read, accepts⟩ := verifyFragment_eq_ok verified
  refine ⟨same, ?_, ?_⟩
  · intro isAccepted
    obtain ⟨tree, made, after, unpacks, planted, checked⟩ := accepts isAccepted
    exact ⟨data, tree, read, unpacks,
      (decides made tree after planted (plain data tree read unpacks)).mp checked⟩
  · intro holds
    obtain ⟨dataAgain, tree, readAgain, unpacks, acceptable⟩ := holds
    have makes : ∃ made, mkdtemp fs tmpdir = .ok made := by
      unfold verifyFragment at verified
      obtain ⟨_, _, verified⟩ := except_bind_eq_ok verified
      obtain ⟨made, makes, _⟩ := except_bind_eq_ok verified
      exact ⟨made, mapError_eq_ok.mp makes⟩
    obtain ⟨made, makes⟩ := makes
    have accepting := verifyFragment_accepts makes readAgain unpacks
      fun before after planted =>
        (decides before tree after planted (plain _ tree readAgain unpacks)).mpr acceptable
    rw [verified] at accepting
    cases accepting
    rfl

end

section

variable {f0Session f1Session : Session} {start : Location} {directory : PurePath} {base : Name}
  {fs left : FileSystem Bytes} {status : Nat}

theorem readFile_exists {data : Bytes} {path : PurePath} (read : readFile fs start path = .ok data) :
    fs.pathExists start path = true := by
  unfold RepackF1.readFile at read
  split at read
  · cases read
  · rename_i opened
    exact exists_iff_stat.mpr ⟨_, opened⟩
  · cases read

/-- A file is missing, or both are checked. -/
theorem main_eq_ok (run : main f0Session f1Session start directory base fs = .ok (status, left)) :
    (status = 1 ∧ left = fs ∧ (fs.pathExists start (f0Path directory base) = false ∨
      fs.pathExists start (f1Path directory base) = false)) ∨
    ∃ f0Ok f1Ok middle,
      verifyF0 f0Session.unpacker fs f0Session.tmpdir start (f0Path directory base) =
        .ok (f0Ok, middle) ∧
      verifyF1 f1Session.unpacker middle f1Session.tmpdir start (f1Path directory base) =
        .ok (f1Ok, left) ∧
      status = if f0Ok && f1Ok then 0 else 1 := by
  unfold main at run
  split at run
  · rename_i absent
    cases run
    exact .inl ⟨rfl, rfl, .inl absent⟩
  · split at run
    · rename_i absent
      cases run
      exact .inl ⟨rfl, rfl, .inr absent⟩
    · obtain ⟨⟨f0Ok, middle⟩, f0Run, run⟩ := except_bind_eq_ok run
      obtain ⟨⟨f1Ok, after⟩, f1Run, run⟩ := except_bind_eq_ok run
      cases run
      exact .inr ⟨f0Ok, f1Ok, middle, f0Run, f1Run, rfl⟩

theorem verifyF0_verdict {unpacker : Unpacker} {tmpdir : Location} {path : PurePath} {accepted : Bool}
    (plain : PlainFragment unpacker fs start path (F0Unlinked · []))
    (verified : verifyF0 unpacker fs tmpdir start path = .ok (accepted, left)) :
    left = fs ∧ (accepted = true ↔ Holds unpacker fs start path (F0Accepted · [])) :=
  verifyFragment_verdict plain
    (fun _ _ _ planted unlinked =>
      (verifyF0Tree_accepts_iff (unlinked.planted planted)).trans (f0Accepted_planted planted))
    verified

theorem verifyF1_verdict {unpacker : Unpacker} {tmpdir : Location} {path : PurePath} {accepted : Bool}
    (plain : PlainFragment unpacker fs start path (F1Unlinked · []))
    (verified : verifyF1 unpacker fs tmpdir start path = .ok (accepted, left)) :
    left = fs ∧ (accepted = true ↔ Holds unpacker fs start path (F1Accepted · [])) :=
  verifyFragment_verdict plain
    (fun _ _ _ planted unlinked =>
      (verifyF1Tree_accepts_iff (unlinked.planted planted)).trans (f1Accepted_planted planted))
    verified

theorem status_eq_zero_iff {f0Ok f1Ok : Bool} :
    (if f0Ok && f1Ok then 0 else 1) = 0 ↔ f0Ok = true ∧ f1Ok = true := by
  cases f0Ok <;> cases f1Ok <;> simp

/-- The checker leaves everything as it was, and its status is 0 exactly when both files
are there, both unpack without an error, and both trees are what they should be. -/
theorem main_verdict
    (f0Plain : PlainFragment f0Session.unpacker fs start (f0Path directory base) (F0Unlinked · []))
    (f1Plain : PlainFragment f1Session.unpacker fs start (f1Path directory base) (F1Unlinked · []))
    (run : main f0Session f1Session start directory base fs = .ok (status, left)) :
    left = fs ∧ (status = 0 ∨ status = 1) ∧
      (status = 0 ↔
        Holds f0Session.unpacker fs start (f0Path directory base) (F0Accepted · []) ∧
        Holds f1Session.unpacker fs start (f1Path directory base) (F1Accepted · [])) := by
  rcases main_eq_ok run with missing | checked
  · obtain ⟨rfl, rfl, absent⟩ := missing
    refine ⟨rfl, .inr rfl, fun zero => absurd zero (by decide), fun both => ?_⟩
    obtain ⟨⟨_, _, f0Read, _⟩, _, _, f1Read, _⟩ := both
    rw [readFile_exists f0Read, readFile_exists f1Read] at absent
    cases absent <;> contradiction
  · obtain ⟨f0Ok, f1Ok, middle, f0Run, f1Run, rfl⟩ := checked
    obtain ⟨rfl, f0Verdict⟩ := verifyF0_verdict f0Plain f0Run
    obtain ⟨rfl, f1Verdict⟩ := verifyF1_verdict f1Plain f1Run
    refine ⟨rfl, ?_, ?_⟩
    · split
      · exact .inl rfl
      · exact .inr rfl
    · rw [← f0Verdict, ← f1Verdict, status_eq_zero_iff]

end

/-- Both fragments of a prefix, and programs that leave a tree, whatever they are given. -/
def checkedHost : FileSystem Bytes :=
  .ofEntries [(["tmp"], .directory), (["out"], .directory), (["a.f0.lz4", "out"], .file [0xf0]),
    (["a.f1.lz4", "out"], .file [0xf1])] (by decide)

def checkedDirectory : PurePath := { absolute := true, steps := [.name "out"] }

def goodF0Entries : List (Location × Node Bytes) :=
  [["system"], ["system", "lib64"], ["system", "lib64", "twrp16"], ["system", "etc"],
    ["system", "etc", "init"], ["system", "etc", "init", "hw"]].map (fun names =>
      (place [] names, .directory)) ++
    checkedLibs.map (fun lib => (place [] (twrp16LibNames lib), .file [])) ++
    [(place [] initRcNames, .file (encodeUtf8 (String.ofList (libraryPathText ++ twrp16Text))))]

def goodF1Entries : List (Location × Node Bytes) :=
  [["system"], ["system", "bin"], ["system", "lib64"]].map (fun names =>
      (place [] names, .directory)) ++
    f1Names.map fun names => (place [] names, .file [])

def goodF0 : FileSystem Bytes := .ofEntries goodF0Entries (by decide +kernel)

def goodF1 : FileSystem Bytes := .ofEntries goodF1Entries (by decide +kernel)

def sessionOf (tree : FileSystem Bytes) (name : Name) : Session where
  unpacker := { lz4 := fun _ => .ok (0, []), cpio := fun _ => .ok (0, tree) }
  tmpdir := [name, "tmp"]

theorem main_verdict_checkedHost :
    Holds (sessionOf goodF0 "f").unpacker checkedHost [] (f0Path checkedDirectory "a")
        (F0Accepted · []) ∧
      Holds (sessionOf goodF1 "g").unpacker checkedHost [] (f1Path checkedDirectory "a")
        (F1Accepted · []) := by
  have f0Unlinked (names : List Name) : Unlinked goodF0 [] names :=
    unlinked_ofEntries _ (by decide +kernel) [] names
  have f1Unlinked (names : List Name) : Unlinked goodF1 [] names :=
    unlinked_ofEntries _ (by decide +kernel) [] names
  obtain ⟨⟨status, left⟩, run, zero⟩ := ok_of_read
    (show (main (sessionOf goodF0 "f") (sessionOf goodF1 "g") [] checkedDirectory "a"
      checkedHost).toOption.map Prod.fst = some 0 by decide +kernel)
  refine (main_verdict ?_ ?_ run).2.2.mp zero
  · intro _ _ _ unpacks
    obtain ⟨_, _, extracts⟩ := unpacks
    cases extracts
    exact ⟨f0Unlinked _, f0Unlinked _, fun _ _ => f0Unlinked _, f0Unlinked _⟩
  · intro _ _ _ unpacks
    obtain ⟨_, _, extracts⟩ := unpacks
    cases extracts
    exact fun _ _ => f1Unlinked _

end DashTwrp.VerifyFragments
