import DashTwrp.Python.GuardedRemovals
import DashTwrp.Python.Process

namespace DashTwrp.Unix.Disk

open DashTwrp.Python

/-! Files that are written anew, and removals on a disk. -/

/-- `open(path, "wb")`: the inode of the file, which is now empty. -/
def openWrite (cwd : Location) (path : PurePath) (disk : Disk) : Except OsError (Inode × Disk) :=
  match disk.tree.locate true cwd path with
  | .error error => .error error
  | .ok location =>
      match disk.tree.node location with
      | some (.file inode) =>
          .ok (inode, {
            tree := disk.tree, contents := Function.update disk.contents inode []
            next := disk.next, used := disk.used })
      | some .directory => .error .isDirectory
      | some (.link _) => .error .loop
      | none =>
          match created : disk.tree.createAt (.file disk.next) location with
          | .error error => .error error
          | .ok tree =>
              .ok (disk.next, {
                tree, contents := Function.update disk.contents disk.next [], next := disk.next + 1
                used := by
                  intro other inode found
                  rw [(FileSystem.createAt_eq_ok created).2] at found
                  by_cases here : other = location
                  · subst here
                    simp only [Function.update_self, Option.some.injEq, Node.file.injEq] at found
                    subst found
                    exact Nat.lt_succ_self _
                  · rw [Function.update_of_ne here] at found
                    exact Nat.lt_succ_of_lt (disk.used _ _ found) })

/-- A disk with fewer names. -/
def shrink (disk : Disk) (tree : FileSystem Inode) (smaller : tree.Extends disk.tree) : Disk where
  tree := tree
  contents := disk.contents
  next := disk.next
  used := fun location inode found => disk.used location inode (smaller _ _ found)

/-- A removal on the tree of names, where the files' inodes stay as they are. -/
def removeWith
    {remove : FileSystem Inode → Location → PurePath → Except OsError (FileSystem Inode)}
    (removes : Removes remove) (cwd : Location) (path : PurePath) (disk : Disk) :
    Except OsError (Unit × Disk) :=
  match removed : remove disk.tree cwd path with
  | .error error => .error error
  | .ok tree => .ok ((), disk.shrink tree (by
      obtain ⟨_, _, without⟩ := removes _ _ _ _ removed
      exact without.extends))

/-- The opened file is where the path leads, and it is empty. -/
theorem openWrite_eq_ok {cwd : Location} {path : PurePath} {before after : Disk} {inode : Inode}
    (opened : before.openWrite cwd path = .ok (inode, after)) :
    ∃ location, before.tree.locate true cwd path = .ok location ∧
      after.tree.locate true cwd path = .ok location ∧
      after.tree.node location = some (.file inode) ∧ after.contents inode = [] := by
  unfold openWrite at opened
  split at opened
  · contradiction
  · rename_i location located
    split at opened
    · rename_i old found
      cases opened
      exact ⟨location, located, located, found, by simp⟩
    · contradiction
    · contradiction
    · rename_i free
      split at opened
      · contradiction
      · rename_i tree created
        cases opened
        obtain ⟨-, same⟩ := FileSystem.createAt_eq_ok created
        have node : tree.node location = some (.file before.next) := by simp [same]
        refine ⟨location, located, ?_, node, by simp⟩
        refine FileSystem.locate_extends (FileSystem.createAt_extends created) (fun _ _ target => ?_)
          located
        rw [node]
        simp

theorem removeWith_eq_ok
    {remove : FileSystem Inode → Location → PurePath → Except OsError (FileSystem Inode)}
    {removes : Removes remove} {cwd : Location} {path : PurePath} {before after : Disk}
    {result : Unit} (removed : before.removeWith removes cwd path = .ok (result, after)) :
    after.contents = before.contents ∧ ∃ location,
      before.tree.locate false cwd path = .ok location ∧ Without location before.tree after.tree := by
  unfold removeWith at removed
  split at removed
  · contradiction
  · rename_i tree found
    cases removed
    exact ⟨rfl, removes _ _ _ _ found⟩

end DashTwrp.Unix.Disk

namespace DashTwrp.Python

open DashTwrp.Unix

section

variable {ε : Type} (env : Environment)

/-- `open(path, "wb")` -/
def openWrite (path : PurePath) : Program ε Inode := onDisk env (Disk.openWrite env.cwd path)

/-- `os.path.getsize(path)` of a file. -/
def getSize (path : PurePath) : Program ε Nat :=
  onDisk env fun disk => (disk.readBytes env.cwd path).map fun bytes => (bytes.length, disk)

/-- `if os.path.exists(path): remove(path)` -/
def removeWhenThere
    {remove : FileSystem Inode → Location → PurePath → Except OsError (FileSystem Inode)}
    (removes : Removes remove) (path : PurePath) : Program ε Unit := do
  let present ← ask fun disk => disk.tree.pathExists env.cwd path
  if present then onDisk env (Disk.removeWith removes env.cwd path) else pure ()

theorem getSize_eq_ok_iff {path : PurePath} {before after : World} {size : Nat} :
    (getSize env path : Program ε Nat) before = .ok size after ↔
      env.fault before.clock = none ∧
        (∃ bytes, before.disk.readBytes env.cwd path = .ok bytes ∧ size = bytes.length) ∧
        after = { before with clock := before.clock + 1 } := by
  rw [getSize, onDisk_eq_ok_iff]
  refine and_congr_right fun _ => ?_
  cases found : before.disk.readBytes env.cwd path with
  | error error => simp [Except.map]
  | ok content => simp [Except.map, and_assoc, eq_comm]

/-! ### What leaves a file as it is -/

/-- The tree has nothing new, and the file has its content. -/
structure FileStays (tree : FileSystem Inode) (location : Location) (bytes : Bytes)
    (disk : Disk) : Prop where
  smaller : disk.tree.Extends tree
  file : disk.fileAt location = some bytes

variable {tree : FileSystem Inode} {location : Location} {bytes : Bytes}

theorem getSize_stays (path : PurePath) :
    Maintains (fun world => FileStays tree location bytes world.disk)
      (getSize env path : Program ε Nat) fun _ => True := by
  refine onDisk_maintains env fun before value after stays done => ?_
  cases read : before.readBytes env.cwd path with
  | error error =>
      rw [read] at done
      contradiction
  | ok content =>
      rw [read] at done
      cases done
      exact stays

/-- A removal elsewhere leaves the file. -/
theorem removeWhenThere_stays
    {remove : FileSystem Inode → Location → PurePath → Except OsError (FileSystem Inode)}
    (removes : Removes remove) (path : PurePath)
    (apart : ∀ removed, tree.locate false env.cwd path = .ok removed → ¬ removed <:+ location) :
    Maintains (fun world => FileStays tree location bytes world.disk)
      (removeWhenThere env removes path : Program ε Unit) fun _ => True := by
  refine maintains_bind (ask_maintains _) fun present _ => ?_
  split
  · refine onDisk_maintains env fun before value after stays done => ?_
    obtain ⟨contents, removed, located, without⟩ := Disk.removeWith_eq_ok done
    refine ⟨without.extends.trans stays.smaller, ?_⟩
    obtain ⟨inode, node, holds⟩ := Disk.fileAt_eq_some_iff.mp stays.file
    refine Disk.fileAt_eq_some_iff.mpr ⟨inode, ?_, by rw [contents, holds]⟩
    rw [without, if_neg, node]
    by_cases present : before.tree.node removed = none
    · intro below
      obtain ⟨inner, rfl⟩ := below
      by_cases here : inner = []
      · subst here
        rw [List.nil_append, present] at node
        cases node
      · have nothing : before.tree.node (inner ++ removed) = none :=
          before.tree.none_below inner here (by rw [present]; simp)
        rw [nothing] at node
        cases node
    · exact apart removed (FileSystem.locate_extends stays.smaller
        (fun free => absurd free present) located)
  · exact maintains_pure trivial

end

end DashTwrp.Python
