import DashTwrp.Python.Removals

namespace DashTwrp.Python

open DashTwrp.Unix

/-! Removals that `os.path.exists` guards.

The guard follows links, so a link that leads nowhere passes for nothing. -/

variable {φ : Type}

/-- What removes the entry at a path, with all that lies below it. -/
def Removes (remove : FileSystem φ → Location → PurePath → Except OsError (FileSystem φ)) : Prop :=
  ∀ fs start path after, remove fs start path = .ok after →
    ∃ location, fs.locate false start path = .ok location ∧ Without location fs after

/-- `if os.path.exists(path): remove(path)` -/
def removeExisting (remove : FileSystem φ → Location → PurePath → Except OsError (FileSystem φ))
    (fs : FileSystem φ) (start : Location) (path : PurePath) : Except OsError (FileSystem φ) :=
  if fs.pathExists start path then remove fs start path else .ok fs

/-- There is an entry at the path, and it is a link that leads nowhere. -/
def Dangling (fs : FileSystem φ) (start : Location) (path : PurePath) : Prop :=
  fs.lexists start path = true ∧ fs.pathExists start path = false

instance (fs : FileSystem φ) (start : Location) (path : PurePath) :
    Decidable (Dangling fs start path) := inferInstanceAs (Decidable (_ ∧ _))

/-- The path leads to no entry any more, and the entry it led to is not in the tree. -/
structure Gone (before after : FileSystem φ) (start : Location) (path : PurePath) : Prop where
  unreached : after.lexists start path = false
  entry : ∀ location, before.locate false start path = .ok location → after.node location = none

theorem osRemove_removes : Removes (φ := φ) osRemove := by
  intro fs start path after removed
  unfold osRemove at removed
  split at removed
  · contradiction
  · rename_i location located
    split at removed
    · contradiction
    · contradiction
    · split at removed
      · rename_i inner
        cases removed
        exact ⟨location, located, without_removeBelow fs inner⟩
      · contradiction

theorem rmtree_removes : Removes (φ := φ) rmtree := by
  intro fs start path after removed
  unfold rmtree at removed
  split at removed
  · contradiction
  · rename_i location located
    split at removed
    · contradiction
    · split at removed
      · rename_i inner
        cases removed
        exact ⟨location, located, without_removeBelow fs inner⟩
      · contradiction
    · contradiction

theorem Without.extends {location : Location} {before after : FileSystem φ}
    (without : Without location before after) : after.Extends before := by
  intro other node found
  rw [without other] at found
  split at found
  · contradiction
  · exact found

section

variable {fs reached after : FileSystem φ} {start : Location} {path : PurePath}

/-- What is left of a tree has a path's entry where the tree has it. -/
theorem lexists_of_extends (smaller : after.Extends reached)
    (present : after.lexists start path = true) :
    ∃ location, reached.locate false start path = .ok location ∧ after.node location ≠ none := by
  by_contra absent
  have gone : after.lexists start path = false := by
    rw [FileSystem.lexists_eq_false_iff]
    intro location located
    by_contra there
    have earlier := FileSystem.locate_extends smaller (fun free => absurd free there) located
    exact absent ⟨location, earlier, there⟩
  rw [gone] at present
  contradiction

theorem Gone.of_entry (smaller : after.Extends reached)
    (entry : ∀ location, reached.locate false start path = .ok location →
      after.node location = none) : Gone reached after start path := by
  refine ⟨?_, entry⟩
  by_contra present
  obtain ⟨location, located, there⟩ :=
    lexists_of_extends smaller (by simpa using present)
  exact there (entry location located)

theorem Gone.of_lexists (smaller : after.Extends reached)
    (absent : reached.lexists start path = false) : Gone reached after start path := by
  refine .of_entry smaller fun location located => ?_
  by_contra present
  obtain ⟨node, found⟩ := Option.ne_none_iff_exists'.mp present
  have there := FileSystem.lexists_eq_false_iff.mp absent location located
  rw [smaller _ _ found] at there
  contradiction

/-- A dangling link has an entry in the tree. -/
theorem Dangling.entry (dangling : Dangling reached start path) :
    ∃ location, reached.locate false start path = .ok location ∧ reached.node location ≠ none :=
  lexists_of_extends (.refl reached) dangling.1

variable {remove : FileSystem φ → Location → PurePath → Except OsError (FileSystem φ)}

/-- The guard lets an entry go only by its removal. -/
theorem removeExisting_extends (removes : Removes remove)
    (removed : removeExisting remove fs start path = .ok after) : after.Extends fs := by
  unfold removeExisting at removed
  split at removed
  · obtain ⟨location, -, without⟩ := removes _ _ _ _ removed
    exact without.extends
  · cases removed
    exact .refl fs

theorem Gone.not_dangling {before : FileSystem φ} (gone : Gone before fs start path) :
    ¬ Dangling fs start path := by
  intro dangling
  have present := dangling.1
  rw [gone.unreached] at present
  contradiction

theorem removeExisting_dangling (dangling : Dangling fs start path) :
    removeExisting remove fs start path = .ok fs := by
  rw [removeExisting, dangling.2]
  rfl

/-- What is no dangling link is gone after its removal, and stays gone. -/
theorem removeExisting_gone (removes : Removes remove) {next : FileSystem φ}
    (removed : removeExisting remove fs start path = .ok next)
    (sound : ¬ Dangling fs start path) (smaller : after.Extends next) :
    Gone fs after start path := by
  have whole := smaller.trans (removeExisting_extends removes removed)
  unfold removeExisting at removed
  split at removed
  · obtain ⟨location, located, without⟩ := removes _ _ _ _ removed
    refine .of_entry whole fun other same => ?_
    rw [located] at same
    cases same
    by_contra present
    obtain ⟨node, found⟩ := Option.ne_none_iff_exists'.mp present
    have there := smaller _ _ found
    rw [without, if_pos (List.suffix_refl _)] at there
    contradiction
  · rename_i absent
    refine .of_lexists whole ?_
    by_contra present
    exact sound ⟨by simpa using present, by simpa using absent⟩

end

/-- A file that may be in a directory is removed from it. -/
theorem removeExisting_entry {fs : FileSystem φ} {dir : Location} {name : Name}
    (inside : fs.node dir = some .directory)
    (left : fs.node (name :: dir) = none ∨ ∃ old, fs.node (name :: dir) = some (.file old)) :
    ∃ after, removeExisting osRemove fs dir (.ofNames [name]) = .ok after ∧
      Without (name :: dir) fs after := by
  have plain (target : PurePath) : fs.node (name :: dir) ≠ some (.link target) := by
    rcases left with absent | file
    · rw [absent]
      simp
    · obtain ⟨old, found⟩ := file
      rw [found]
      simp
  have located (follow : Bool) : fs.locate follow dir (.ofNames [name]) = .ok (name :: dir) :=
    locate_entry inside plain follow
  unfold removeExisting
  rcases left with absent | file
  · have missing : fs.pathExists dir (.ofNames [name]) = false := by
      rw [FileSystem.pathExists, FileSystem.stat, located]
      simp only [absent]
      rfl
    exact ⟨fs, by rw [missing]; rfl, without_of_absent absent⟩
  · obtain ⟨old, found⟩ := file
    have present : fs.pathExists dir (.ofNames [name]) = true := by
      rw [FileSystem.pathExists, FileSystem.stat, located]
      simp only [found]
      rfl
    refine ⟨fs.removeBelow (name :: dir) (by simp), ?_, without_removeBelow fs (by simp)⟩
    rw [if_pos present, osRemove, located]
    simp [found]

/-! ### A run of removals -/

/-- A path that ends with a name leads to an entry of that name. -/
theorem locate_last {fs : FileSystem φ} {start location : Location} {front : List Name}
    {last : Name} (located : fs.locate false start (.ofNames (front ++ [last])) = .ok location) :
    location.head? = some last := by
  have walkWith_last : ∀ {onLink : Location → List Step → Except OsError Location},
      (∀ here steps, onLink here (steps ++ [.name last]) = .ok location →
        location.head? = some last) →
      ∀ steps here, fs.walkWith false onLink here (steps ++ [.name last]) = .ok location →
        location.head? = some last := by
    intro onLink links steps
    induction steps with
    | nil =>
        intro here walked
        rw [List.nil_append, FileSystem.walkWith] at walked
        cases found : fs.node (last :: here) with
        | none =>
            simp only [found, if_true] at walked
            exact (Except.ok.inj walked) ▸ rfl
        | some node =>
            cases node with
            | directory =>
                simp only [found] at walked
                exact (Except.ok.inj walked) ▸ rfl
            | file data =>
                simp only [found, if_true] at walked
                exact (Except.ok.inj walked) ▸ rfl
            | link target =>
                simp only [found, and_self, if_true] at walked
                exact (Except.ok.inj walked) ▸ rfl
    | cons step rest ih =>
        intro here walked
        cases step with
        | up => exact ih _ walked
        | name name =>
            rw [List.cons_append, FileSystem.walkWith] at walked
            cases found : fs.node (name :: here) with
            | none => simp [found] at walked
            | some node =>
                cases node with
                | directory =>
                    simp only [found] at walked
                    exact ih _ walked
                | file data => simp [found] at walked
                | link target =>
                    simp only [found] at walked
                    rw [if_neg (by simp), ← List.append_assoc] at walked
                    exact links _ _ walked
  have walk_last : ∀ links steps here, fs.walk false links here (steps ++ [.name last]) = .ok location →
      location.head? = some last := by
    intro links
    induction links with
    | zero => exact walkWith_last fun _ _ failed => by cases failed
    | succ links ih => exact walkWith_last fun here steps => ih steps here
  unfold FileSystem.locate PurePath.ofNames at located
  rw [List.map_append] at located
  exact walk_last _ _ _ located

end DashTwrp.Python
