import DashTwrp.Python.Slices
import DashTwrp.Unix.FileSystem

namespace DashTwrp.Unix

open DashTwrp.Python (Bytes)

/-! A disk whose files are inodes, so that a file can have several names. -/

abbrev Inode := Nat

/-- A tree of names, and what each inode holds.  Inodes from `next` on are unused. -/
structure Disk where
  tree : FileSystem Inode
  contents : Inode → Bytes
  next : Inode
  used : ∀ location inode, tree.node location = some (.file inode) → inode < next

namespace Disk

/-- Every node of the old disk is in its place, and every old inode has its contents. -/
structure Kept (before after : Disk) : Prop where
  nodes : before.tree.Extends after.tree
  contents : ∀ inode < before.next, after.contents inode = before.contents inode
  next : before.next ≤ after.next

theorem Kept.refl (disk : Disk) : disk.Kept disk :=
  ⟨.refl _, fun _ _ => rfl, Nat.le_refl _⟩

theorem Kept.trans {first second third : Disk} (front : first.Kept second)
    (back : second.Kept third) : first.Kept third where
  nodes := front.nodes.trans back.nodes
  contents := by
    intro inode old
    rw [back.contents inode (Nat.lt_of_lt_of_le old front.next), front.contents inode old]
  next := Nat.le_trans front.next back.next

/-- The bytes of the file at a location. -/
def fileAt (disk : Disk) (location : Location) : Option Bytes :=
  match disk.tree.node location with
  | some (.file inode) => some (disk.contents inode)
  | _ => none

theorem fileAt_eq_some_iff {disk : Disk} {location : Location} {bytes : Bytes} :
    disk.fileAt location = some bytes ↔
      ∃ inode, disk.tree.node location = some (.file inode) ∧ disk.contents inode = bytes := by
  unfold fileAt
  cases found : disk.tree.node location with
  | none => simp
  | some node => cases node <;> simp

theorem Kept.fileAt {before after : Disk} (kept : before.Kept after) {location : Location}
    {bytes : Bytes} (file : before.fileAt location = some bytes) :
    after.fileAt location = some bytes := by
  obtain ⟨inode, found, holds⟩ := fileAt_eq_some_iff.mp file
  refine fileAt_eq_some_iff.mpr ⟨inode, kept.nodes _ _ found, ?_⟩
  rw [kept.contents inode (before.used _ _ found), holds]

/-- A free location of the new disk was free on the old one. -/
theorem Kept.free {before after : Disk} (kept : before.Kept after) {location : Location}
    (free : after.tree.node location = none) : before.tree.node location = none := by
  by_contra present
  obtain ⟨node, found⟩ := Option.ne_none_iff_exists'.mp present
  rw [kept.nodes _ _ found] at free
  contradiction

/-- `os.mkdir` -/
def makeDirectory (cwd : Location) (path : PurePath) (disk : Disk) : Except OsError (Unit × Disk) :=
  match made : disk.tree.makeNode .directory cwd path with
  | .error error => .error error
  | .ok (tree, location) =>
      .ok ((), {
        tree, contents := disk.contents, next := disk.next
        used := by
          intro other inode found
          obtain ⟨_, created⟩ := FileSystem.makeNode_eq_ok made
          rw [(FileSystem.createAt_eq_ok created).2] at found
          by_cases here : other = location
          · subst here
            simp at found
          · rw [Function.update_of_ne here] at found
            exact disk.used _ _ found })

/-- `open(path, "xb")`: the inode of the new, empty file. -/
def makeFile (cwd : Location) (path : PurePath) (disk : Disk) : Except OsError (Inode × Disk) :=
  match made : disk.tree.makeNode (.file disk.next) cwd path with
  | .error error => .error error
  | .ok (tree, location) =>
      .ok (disk.next, {
        tree, contents := Function.update disk.contents disk.next [], next := disk.next + 1
        used := by
          intro other inode found
          obtain ⟨_, created⟩ := FileSystem.makeNode_eq_ok made
          rw [(FileSystem.createAt_eq_ok created).2] at found
          by_cases here : other = location
          · subst here
            simp only [Function.update_self, Option.some.injEq, Node.file.injEq] at found
            subst found
            exact Nat.lt_succ_self _
          · rw [Function.update_of_ne here] at found
            exact Nat.lt_succ_of_lt (disk.used _ _ found) })

/-- Append to an open file. -/
def append (inode : Inode) (bytes : Bytes) (disk : Disk) : Disk where
  tree := disk.tree
  contents := Function.update disk.contents inode (disk.contents inode ++ bytes)
  next := disk.next
  used := disk.used

/-- `path.read_bytes()` -/
def readBytes (cwd : Location) (path : PurePath) (disk : Disk) : Except OsError Bytes :=
  match disk.tree.stat true cwd path with
  | .error error => .error error
  | .ok (.file inode) => .ok (disk.contents inode)
  | .ok _ => .error .isDirectory

theorem makeDirectory_kept {cwd : Location} {path : PurePath} {before after : Disk} {result : Unit}
    (made : before.makeDirectory cwd path = .ok (result, after)) : before.Kept after := by
  unfold makeDirectory at made
  split at made
  · contradiction
  · rename_i tree location found
    cases made
    obtain ⟨_, created⟩ := FileSystem.makeNode_eq_ok found
    exact ⟨FileSystem.createAt_extends created, fun _ _ => rfl, Nat.le_refl _⟩

/-- A file that is opened exclusively is a new inode at a free location. -/
theorem makeFile_eq_ok {cwd : Location} {path : PurePath} {before after : Disk} {inode : Inode}
    (made : before.makeFile cwd path = .ok (inode, after)) :
    inode = before.next ∧ before.Kept after ∧ after.contents inode = [] ∧
      ∃ location, before.tree.locate false cwd path = .ok location ∧
        before.tree.node location = none ∧ after.tree.node location = some (.file inode) := by
  unfold makeFile at made
  split at made
  · contradiction
  · rename_i tree location found
    cases made
    obtain ⟨located, created⟩ := FileSystem.makeNode_eq_ok found
    obtain ⟨free, same⟩ := FileSystem.createAt_eq_ok created
    refine ⟨rfl, ⟨FileSystem.createAt_extends created, ?_, Nat.le_succ _⟩, by simp,
      location, located, free, by simp [same]⟩
    intro inode old
    exact Function.update_of_ne (Nat.ne_of_lt old) _ _

theorem makeFile_node {cwd : Location} {path : PurePath} {before after : Disk} {inode : Inode}
    (made : before.makeFile cwd path = .ok (inode, after)) :
    ∃ location, after.tree.node = Function.update before.tree.node location (some (.file inode)) := by
  unfold makeFile at made
  split at made
  · contradiction
  · rename_i tree location found
    cases made
    obtain ⟨-, created⟩ := FileSystem.makeNode_eq_ok found
    exact ⟨location, (FileSystem.createAt_eq_ok created).2⟩

/-- Writing to an inode that the old disk did not use leaves its files alone. -/
theorem append_kept {before disk : Disk} {inode : Inode} {bytes : Bytes}
    (kept : before.Kept disk) (unused : before.next ≤ inode) :
    before.Kept (disk.append inode bytes) where
  nodes := kept.nodes
  contents := by
    intro old below
    have other : old ≠ inode := Nat.ne_of_lt (Nat.lt_of_lt_of_le below unused)
    simp only [append, Function.update_of_ne other]
    exact kept.contents old below
  next := kept.next

theorem append_contents (disk : Disk) (inode : Inode) (bytes : Bytes) :
    (disk.append inode bytes).contents inode = disk.contents inode ++ bytes := by
  simp [append]

theorem Kept.of_append_nil (disk : Disk) (inode : Inode) : (disk.append inode []).Kept disk where
  nodes := .refl _
  contents := by simp [append]
  next := Nat.le_refl _

/-- Whatever is new on the second disk is a directory. -/
def NoNewFile (before after : Disk) : Prop :=
  ∀ location, before.tree.node location = none →
    after.tree.node location = none ∨ after.tree.node location = some .directory

theorem NoNewFile.refl (disk : Disk) : disk.NoNewFile disk := fun _ free => .inl free

/-- What is new is no link. -/
theorem NoNewFile.link {before after : Disk} (noNew : before.NoNewFile after)
    (kept : before.Kept after) {location : Location} {target : PurePath} :
    before.tree.node location = some (.link target) ↔
      after.tree.node location = some (.link target) := by
  refine ⟨kept.nodes _ _, fun found => ?_⟩
  cases old : before.tree.node location with
  | none =>
      rcases noNew location old with none | directory
      · rw [none] at found
        cases found
      · rw [directory] at found
        cases found
  | some node => rw [← found, kept.nodes _ _ old]

theorem makeDirectory_noNewFile {base before after : Disk} {cwd : Location} {path : PurePath}
    {result : Unit} (noNew : base.NoNewFile before)
    (made : before.makeDirectory cwd path = .ok (result, after)) : base.NoNewFile after := by
  unfold makeDirectory at made
  split at made
  · contradiction
  · rename_i tree location found
    cases made
    obtain ⟨_, created⟩ := FileSystem.makeNode_eq_ok found
    obtain ⟨-, same⟩ := FileSystem.createAt_eq_ok created
    intro other free
    by_cases here : other = location
    · subst here
      right
      simp [same]
    · simp only [same, Function.update_of_ne here]
      exact noNew other free

/-- A path leads to a file that is not on the old disk, nor is its place. -/
structure NewFile (before after : Disk) (cwd : Location) (path : PurePath) (location : Location)
    (inode : Inode) (bytes : Bytes) : Prop where
  free : before.tree.node location = none
  unused : before.next ≤ inode
  path : after.tree.locate false cwd path = .ok location
  node : after.tree.node location = some (.file inode)
  contents : after.contents inode = bytes

theorem newFile_of_makeFile {cwd : Location} {path : PurePath} {before after : Disk} {inode : Inode}
    (made : before.makeFile cwd path = .ok (inode, after)) :
    ∃ location, NewFile before after cwd path location inode [] := by
  obtain ⟨rfl, kept, empty, location, located, free, node⟩ := makeFile_eq_ok made
  refine ⟨location, free, Nat.le_refl _, ?_, node, empty⟩
  exact FileSystem.locate_extends kept.nodes (fun _ follows => nomatch follows) located

namespace NewFile

variable {before after : Disk} {cwd location : Location} {path : PurePath} {inode : Inode}
  {bytes : Bytes}

theorem earlier {first : Disk} (kept : first.Kept before)
    (new : NewFile before after cwd path location inode bytes) :
    NewFile first after cwd path location inode bytes :=
  { new with free := kept.free new.free, unused := Nat.le_trans kept.next new.unused }

theorem later {last : Disk} (kept : after.Kept last)
    (new : NewFile before after cwd path location inode bytes) :
    NewFile before last cwd path location inode bytes where
  free := new.free
  unused := new.unused
  path := FileSystem.locate_extends kept.nodes (fun _ follows => nomatch follows) new.path
  node := kept.nodes _ _ new.node
  contents := (kept.contents _ (after.used _ _ new.node)).trans new.contents

theorem append (new : NewFile before after cwd path location inode bytes) (more : Bytes) :
    NewFile before (after.append inode more) cwd path location inode (bytes ++ more) :=
  { new with contents := by rw [append_contents, new.contents] }

theorem fileAt (new : NewFile before after cwd path location inode bytes) :
    after.fileAt location = some bytes :=
  fileAt_eq_some_iff.mpr ⟨inode, new.node, new.contents⟩

theorem not_noNewFile (new : NewFile before after cwd path location inode bytes) :
    ¬ before.NoNewFile after := by
  intro noNew
  have there := noNew location new.free
  rw [new.node] at there
  rcases there with none | directory
  · cases none
  · cases directory

/-- Reading the path gives the contents of the new file. -/
theorem readBytes (new : NewFile before after cwd path location inode bytes) :
    after.readBytes cwd path = .ok bytes := by
  have plain : ∀ target, after.tree.node location ≠ some (.link target) := by
    intro target
    rw [new.node]
    simp
  unfold Disk.readBytes FileSystem.stat
  rw [FileSystem.locate_follow new.path plain]
  simp only [new.node, new.contents]

end NewFile

end Disk

end DashTwrp.Unix
