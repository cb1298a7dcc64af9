import DashTwrp.Python.Removals
import DashTwrp.Python.Slices

namespace DashTwrp.Python

open DashTwrp.Unix

/-! Trees that other programs pack and unpack, and the directories made for them. -/

/-- `lz4 -d -c` and `cpio -idm`, by their exit statuses and what they leave: an output,
and a tree in an empty directory.  An error is that of a program that does not start. -/
structure Unpacker where
  lz4 : Bytes → Except OsError (Int × Bytes)
  cpio : Bytes → Except OsError (Int × FileSystem Bytes)

/-- The tree that the two programs leave, whether they succeed or not. -/
def Unpacker.unpacked (unpacker : Unpacker) (data : Bytes) : Except OsError (FileSystem Bytes) := do
  let r ← unpacker.lz4 data
  let p ← unpacker.cpio r.2
  pure p.2

/-- Both programs succeed, and the tree is what they leave. -/
def Unpacker.Unpacks (unpacker : Unpacker) (data : Bytes) (tree : FileSystem Bytes) : Prop :=
  ∃ archive, unpacker.lz4 data = .ok (0, archive) ∧ unpacker.cpio archive = .ok (0, tree)

/-- `find . -print0`, `cpio -o -H newc --null` and `lz4 -l -9 --force` in one call of the
function that runs them.  Another call may have other answers on the same tree, since an
archive also holds the times and inode numbers that the tree has at that moment. -/
structure Packer where
  find : FileSystem Bytes → Except OsError (Int × Bytes)
  cpio : FileSystem Bytes → Bytes → Except OsError (Int × Bytes)
  lz4 : Bytes → Except OsError (Int × Bytes)

variable {φ : Type}

/-- `tempfile.mkdtemp()`, where `tmpdir` is the directory it finds a new name for. -/
def mkdtemp (fs : FileSystem φ) (tmpdir : Location) : Except OsError (FileSystem φ) :=
  fs.createAt .directory tmpdir

/-- `shutil.rmtree(tmpdir, ignore_errors=True)` of a directory that was made here. -/
def rmtreeIgnore (fs : FileSystem φ) (tmpdir : Location) : FileSystem φ :=
  if inner : tmpdir ≠ [] then fs.removeBelow tmpdir inner else fs

/-- A tree in the new and empty directory of a name. -/
def extractInto (fs tree : FileSystem φ) (dir : Location) (dest : Name) :
    Except OsError (FileSystem φ) :=
  match inside : fs.node dir with
  | some .directory => .ok (fs.graft tree [] dest dir inside)
  | _ => .error .notDirectory

/-- A tree lies at a location, and the rest is as before. -/
structure Planted (base : Location) (before tree after : FileSystem φ) : Prop where
  inside : ∀ inner, after.node (inner ++ base) = tree.node inner
  outside : ∀ place, ¬ base <:+ place → after.node place = before.node place

/-- `mkdtemp` makes an empty directory where nothing was. -/
theorem mkdtemp_ok {fs after : FileSystem φ} {tmpdir : Location}
    (made : mkdtemp fs tmpdir = .ok after) :
    fs.node tmpdir = none ∧ Planted tmpdir fs .empty after := by
  obtain ⟨free, changed⟩ := FileSystem.createAt_eq_ok made
  refine ⟨free, fun inner => ?_, fun place off => ?_⟩
  · rw [changed]
    by_cases top : inner = []
    · rw [top, List.nil_append, Function.update_self]
      rfl
    · rw [Function.update_of_ne (by simpa using top),
        fs.none_below inner top (by rw [free]; simp)]
      exact (if_neg top).symm
  · rw [changed, Function.update_of_ne]
    exact fun here => off (here ▸ List.suffix_refl _)

theorem Planted.emptied {fs after : FileSystem φ} {tmpdir : Location}
    (made : Planted tmpdir fs .empty after) :
    after.node tmpdir = some .directory ∧ ∀ name, after.node (name :: tmpdir) = none :=
  ⟨made.inside [], fun name => made.inside [name]⟩

section

variable {base : Location} {before tree after : FileSystem φ}

theorem Planted.node_place (planted : Planted base before tree after) (names : List Name) :
    after.node (place base names) = tree.node (place [] names) := by
  rw [place, planted.inside, place, List.append_nil]

theorem Planted.unlinked (planted : Planted base before tree after) {names : List Name}
    (unlinked : Unlinked tree [] names) : Unlinked after base names := by
  intro front inside target
  rw [planted.node_place]
  exact unlinked front inside target

end

section

variable {fs : FileSystem φ} {dir : Location} {dest : Name}

/-- What was at the name makes way for an empty directory. -/
theorem emptied_planted (inside : fs.node dir = some .directory)
    (left : fs.node (dest :: dir) = none ∨ fs.node (dest :: dir) = some .directory) :
    ∃ cleared made, removeTree fs dir (.ofNames [dest]) = .ok cleared ∧
      makedirs false cleared dir (.ofNames [dest]) = .ok made ∧
      Planted (dest :: dir) fs .empty made := by
  obtain ⟨cleared, removed, without⟩ := removeTree_entry inside left
  have clearedDir : cleared.node dir = some .directory := by
    rw [without, if_neg (not_suffix_tail dir), inside]
  obtain ⟨made, makes, changed⟩ := makedirs_entry clearedDir
    (by rw [without, if_pos (List.suffix_refl _)])
  refine ⟨cleared, made, removed, makes, fun inner => ?_, fun place off => ?_⟩
  · rw [changed]
    by_cases top : inner = []
    · rw [top, List.nil_append, Function.update_self]
      rfl
    · rw [Function.update_of_ne (by simpa using top), without, if_pos (List.suffix_append _ _)]
      exact (if_neg top).symm
  · rw [changed, Function.update_of_ne, without, if_neg off]
    exact fun here => off (here ▸ List.suffix_refl _)

/-- A tree takes the place of another one. -/
theorem extractInto_planted {earlier tree : FileSystem φ} (inside : fs.node dir = some .directory)
    (outside : ∀ place, ¬ dest :: dir <:+ place → fs.node place = earlier.node place) :
    ∃ after, extractInto fs tree dir dest = .ok after ∧
      Planted (dest :: dir) earlier tree after := by
  unfold extractInto
  split
  · rename_i there
    refine ⟨_, rfl, fun inner => ?_, fun place off => ?_⟩
    · change FileSystem.graftNode tree [] (dest :: dir) fs (inner ++ dest :: dir) = _
      rw [FileSystem.graftNode, within_append]
      simp only [List.append_nil]
    · change FileSystem.graftNode tree [] (dest :: dir) fs place = _
      rw [FileSystem.graftNode, within, if_neg off]
      exact outside place off
  · rename_i other
    exact absurd inside other

theorem extractInto_top {tree after : FileSystem φ}
    (extracted : extractInto fs tree dir dest = .ok after) :
    after.node (dest :: dir) = some .directory := by
  unfold extractInto at extracted
  split at extracted
  · cases extracted
    change FileSystem.graftNode tree [] (dest :: dir) fs ([] ++ dest :: dir) = _
    rw [FileSystem.graftNode, within_append]
    exact tree.root
  · cases extracted

end

end DashTwrp.Python
