import DashTwrp.Unix.Unlinked

namespace DashTwrp.Unix

/-! What a path leads to in a tree that has grown, or that has lost entries.

Where a path leads does not depend on what files hold, so trees are compared by the
kinds of their nodes. -/

variable {φ : Type}

def Node.kind : Node φ → Node Unit
  | .directory => .directory
  | .file _ => .file ()
  | .link target => .link target

namespace FileSystem

/-- The tree without what its files hold. -/
def kinds (fs : FileSystem φ) : FileSystem Unit where
  node location := (fs.node location).map Node.kind
  root := by rw [fs.root]; rfl
  parents := by
    intro name location present
    rw [fs.parents name location fun absent => present (by rw [absent]; rfl)]
    rfl

theorem kinds_eq_none {fs : FileSystem φ} {location : Location} :
    fs.kinds.node location = none ↔ fs.node location = none := Option.map_eq_none_iff

theorem kinds_eq_directory {fs : FileSystem φ} {location : Location} :
    fs.kinds.node location = some .directory ↔ fs.node location = some .directory := by
  change (fs.node location).map Node.kind = _ ↔ _
  cases found : fs.node location with
  | none => simp
  | some node => cases node <;> simp [Node.kind]

theorem walkWith_kinds (fs : FileSystem φ) {follow : Bool}
    {onLink onLinkKinds : Location → List Step → Except OsError Location}
    (links : ∀ here steps, onLinkKinds here steps = onLink here steps) (steps : List Step)
    (here : Location) :
    fs.kinds.walkWith follow onLinkKinds here steps = fs.walkWith follow onLink here steps := by
  induction steps generalizing here with
  | nil => rfl
  | cons step rest ih =>
      cases step with
      | up => exact ih _
      | name name =>
          have same : fs.kinds.node (name :: here) = (fs.node (name :: here)).map Node.kind := rfl
          rw [walkWith, walkWith, same]
          cases fs.node (name :: here) with
          | none => rfl
          | some node =>
              cases node with
              | directory => exact ih _
              | file data => rfl
              | link target =>
                  simp only [Option.map_some, Node.kind]
                  rw [links]

theorem locate_kinds (fs : FileSystem φ) (follow : Bool) (cwd : Location) (path : PurePath) :
    fs.kinds.locate follow cwd path = fs.locate follow cwd path := by
  have walk_kinds : ∀ links here steps,
      fs.kinds.walk follow links here steps = fs.walk follow links here steps := by
    intro links
    induction links with
    | zero => exact fun here steps => walkWith_kinds fs (fun _ _ => rfl) steps here
    | succ links ih => exact fun here steps => walkWith_kinds fs ih steps here
  exact walk_kinds _ _ _

theorem lexists_kinds (fs : FileSystem φ) (cwd : Location) (path : PurePath) :
    fs.kinds.lexists cwd path = fs.lexists cwd path := by
  rw [Bool.eq_iff_iff, ← not_iff_not, Bool.not_eq_true, Bool.not_eq_true, lexists_eq_false_iff,
    lexists_eq_false_iff]
  simp only [locate_kinds, kinds_eq_none]

/-! ### Lost entries -/

/-- What the first tree has is lost in the other or the same there. -/
def Thinned (before after : FileSystem φ) : Prop :=
  ∀ location node, before.node location = some node →
    after.node location = none ∨ after.node location = some node

/-- A path leads to the same place where entries are lost, or to a lost one. -/
theorem walkWith_thinned {before after : FileSystem φ} (thinned : Thinned before after)
    {follow : Bool} {onLink onLinkAfter : Location → List Step → Except OsError Location}
    {location other : Location} (settled : follow = true → before.node location ≠ none)
    (links : ∀ here steps, onLink here steps = .ok location →
      onLinkAfter here steps = .ok other → other = location ∨ after.node other = none)
    {steps : List Step} {here : Location}
    (walked : before.walkWith follow onLink here steps = .ok location)
    (walkedAfter : after.walkWith follow onLinkAfter here steps = .ok other) :
    other = location ∨ after.node other = none := by
  induction steps generalizing here with
  | nil =>
      cases walked
      cases walkedAfter
      exact .inl rfl
  | cons step rest ih =>
      cases step with
      | up => exact ih walked walkedAfter
      | name name =>
          rw [walkWith] at walked walkedAfter
          have lost (absent : after.node (name :: here) = none) :
              other = location ∨ after.node other = none := by
            simp only [absent] at walkedAfter
            split at walkedAfter
            · cases walkedAfter
              exact .inr absent
            · contradiction
          cases found : before.node (name :: here) with
          | none =>
              simp only [found] at walked
              split at walked
              · rename_i last
                cases walked
                have stays : follow = false := by
                  by_contra follows
                  exact settled (by simpa using follows) found
                subst last stays
                cases new : after.node (name :: here) with
                | none => exact lost new
                | some node =>
                    cases node <;> simp only [new, and_self, if_true] at walkedAfter <;>
                      exact .inl (Except.ok.inj walkedAfter).symm
              · contradiction
          | some node =>
              rcases thinned _ _ found with absent | same
              · exact lost absent
              · cases node with
                | directory =>
                    simp only [found] at walked
                    simp only [same] at walkedAfter
                    exact ih walked walkedAfter
                | file data =>
                    simp only [found] at walked
                    simp only [same] at walkedAfter
                    split at walked
                    · rename_i last
                      rw [if_pos last] at walkedAfter
                      cases walked
                      exact .inl (Except.ok.inj walkedAfter).symm
                    · contradiction
                | link target =>
                    simp only [found] at walked
                    simp only [same] at walkedAfter
                    split at walked
                    · rename_i last
                      rw [if_pos last] at walkedAfter
                      cases walked
                      exact .inl (Except.ok.inj walkedAfter).symm
                    · rename_i inner
                      rw [if_neg inner] at walkedAfter
                      exact links _ _ walked walkedAfter

theorem locate_thinned {before after : FileSystem φ} (thinned : Thinned before after)
    {follow : Bool} {cwd location other : Location} {path : PurePath}
    (settled : follow = true → before.node location ≠ none)
    (located : before.locate follow cwd path = .ok location)
    (locatedAfter : after.locate follow cwd path = .ok other) :
    other = location ∨ after.node other = none := by
  have walk_thinned : ∀ links here steps, before.walk follow links here steps = .ok location →
      after.walk follow links here steps = .ok other →
        other = location ∨ after.node other = none := by
    intro links
    induction links with
    | zero =>
        exact fun here steps =>
          walkWith_thinned thinned settled (fun _ _ failed => by cases failed)
    | succ links ih => exact fun here steps => walkWith_thinned thinned settled ih
  exact walk_thinned _ _ _ located locatedAfter

/-- What two such trees have at the end of a path is at the same place. -/
theorem locate_same {before after : FileSystem φ} (thinned : Thinned before.kinds after.kinds)
    {cwd location other : Location} {path : PurePath}
    (located : before.locate true cwd path = .ok location) (there : before.node location ≠ none)
    (locatedAfter : after.locate true cwd path = .ok other) (present : after.node other ≠ none) :
    other = location ∧ after.kinds.node location = before.kinds.node location := by
  rw [← locate_kinds] at located locatedAfter
  have same : other = location := by
    rcases locate_thinned thinned (fun _ => mt kinds_eq_none.mp there) located locatedAfter with
      same | absent
    · exact same
    · exact absurd (kinds_eq_none.mp absent) present
  subst same
  obtain ⟨node, found⟩ := Option.ne_none_iff_exists'.mp (mt kinds_eq_none.mp there)
  rcases thinned _ _ found with absent | kept
  · exact absurd (kinds_eq_none.mp absent) present
  · exact ⟨rfl, kept.trans found.symm⟩

/-! ### The last component -/

section

variable {fs : FileSystem φ} {cwd : Location} {last : Name}

theorem walkWith_concat {onLink onLinkLast : Location → List Step → Except OsError Location}
    {directory : Location} (isDirectory : fs.node directory = some .directory)
    (links : ∀ here steps, onLink here steps = .ok directory →
      onLinkLast here (steps ++ [.name last]) = .ok (last :: directory))
    {steps : List Step} {here : Location}
    (walked : fs.walkWith true onLink here steps = .ok directory) :
    fs.walkWith false onLinkLast here (steps ++ [.name last]) = .ok (last :: directory) := by
  induction steps generalizing here with
  | nil =>
      cases walked
      rw [List.nil_append, walkWith]
      cases fs.node (last :: directory) with
      | none => exact if_pos rfl
      | some node => cases node <;> simp [walkWith]
  | cons step rest ih =>
      cases step with
      | up => exact ih walked
      | name name =>
          rw [List.cons_append, walkWith]
          rw [walkWith] at walked
          cases found : fs.node (name :: here) with
          | none =>
              simp only [found] at walked
              split at walked
              · cases walked
                rw [found] at isDirectory
                cases isDirectory
              · contradiction
          | some node =>
              cases node with
              | directory =>
                  simp only [found] at walked
                  exact ih walked
              | file data =>
                  simp only [found] at walked
                  split at walked
                  · cases walked
                    rw [found] at isDirectory
                    cases isDirectory
                  · contradiction
              | link target =>
                  simp only [found, Bool.true_eq_false, and_false, if_false] at walked
                  simp only [List.append_eq_nil_iff, List.cons_ne_nil, and_false, false_and,
                    if_false]
                  rw [← List.append_assoc]
                  exact links _ _ walked

/-- An entry is looked up in the directory that the rest of its path leads to. -/
theorem locate_concat (front : List Name) {directory : Location} (isDirectory : fs.node directory = some .directory)
    (located : fs.locate true cwd (.ofNames front) = .ok directory) :
    fs.locate false cwd (.ofNames (front ++ [last])) = .ok (last :: directory) := by
  have walk_concat : ∀ links here steps, fs.walk true links here steps = .ok directory →
      fs.walk false links here (steps ++ [.name last]) = .ok (last :: directory) := by
    intro links
    induction links with
    | zero =>
        exact fun here steps => walkWith_concat isDirectory (fun _ _ failed => by cases failed)
    | succ links ih => exact fun here steps => walkWith_concat isDirectory ih
  have walked := walk_concat _ _ _ located
  unfold locate PurePath.ofNames
  rw [List.map_append]
  exact walked

theorem walkWith_of_concat {onLink onLinkLast : Location → List Step → Except OsError Location}
    {location : Location} (present : fs.node location ≠ none)
    (links : ∀ here steps, onLinkLast here (steps ++ [.name last]) = .ok location →
      ∃ directory, onLink here steps = .ok directory ∧ fs.node directory = some .directory ∧
        location = last :: directory)
    {steps : List Step} {here : Location}
    (walked : fs.walkWith false onLinkLast here (steps ++ [.name last]) = .ok location) :
    ∃ directory, fs.walkWith true onLink here steps = .ok directory ∧
      fs.node directory = some .directory ∧ location = last :: directory := by
  induction steps generalizing here with
  | nil =>
      have here_eq : location = last :: here := by
        rw [List.nil_append, walkWith] at walked
        cases found : fs.node (last :: here) with
        | none =>
            simp only [found, if_true] at walked
            exact (Except.ok.inj walked).symm
        | some node =>
            cases node <;> simp only [found, and_self, if_true] at walked <;>
              exact (Except.ok.inj walked).symm
      subst here_eq
      exact ⟨here, rfl, fs.parents last here present, rfl⟩
  | cons step rest ih =>
      cases step with
      | up => exact ih walked
      | name name =>
          rw [List.cons_append, walkWith] at walked
          rw [walkWith]
          cases found : fs.node (name :: here) with
          | none => simp [found] at walked
          | some node =>
              cases node with
              | directory =>
                  simp only [found] at walked
                  exact ih walked
              | file data => simp [found] at walked
              | link target =>
                  simp only [found] at walked
                  rw [if_neg (by simp), ← List.append_assoc] at walked
                  simp only [Bool.true_eq_false, and_false, if_false]
                  exact links _ _ walked

theorem locate_of_concat (front : List Name) {location : Location} (present : fs.node location ≠ none)
    (located : fs.locate false cwd (.ofNames (front ++ [last])) = .ok location) :
    ∃ directory, fs.locate true cwd (.ofNames front) = .ok directory ∧
      fs.node directory = some .directory ∧ location = last :: directory := by
  have walk_of_concat : ∀ links here steps,
      fs.walk false links here (steps ++ [.name last]) = .ok location →
        ∃ directory, fs.walk true links here steps = .ok directory ∧
          fs.node directory = some .directory ∧ location = last :: directory := by
    intro links
    induction links with
    | zero =>
        exact fun here steps => walkWith_of_concat present (fun _ _ failed => by cases failed)
    | succ links ih => exact fun here steps => walkWith_of_concat present ih
  unfold locate PurePath.ofNames at located
  rw [List.map_append] at located
  exact walk_of_concat _ _ _ located

/-- A single name is looked up where the path starts. -/
theorem locate_name (fs : FileSystem φ) (cwd : Location) (name : Name) :
    fs.locate false cwd (.ofNames [name]) = .ok (name :: cwd) := by
  change fs.walkWith false _ cwd [.name name] = _
  rw [walkWith]
  cases fs.node (name :: cwd) with
  | none => rfl
  | some node => cases node <;> rfl

end

/-! ### Growth -/

/-- The tree has kept its entries, and each that is new is of some kind. -/
structure Grown (fresh : Location → Node φ → Prop) (before after : FileSystem φ) : Prop where
  kept : before.kinds.Extends after.kinds
  fresh : ∀ location node, before.node location = none → after.node location = some node →
    fresh location node

variable {fresh fresher : Location → Node φ → Prop} {before between after : FileSystem φ}

theorem Grown.refl (fs : FileSystem φ) : Grown fresh fs fs :=
  ⟨.refl _, fun _ _ absent present => by rw [absent] at present; cases present⟩

theorem Grown.weaken (grown : Grown fresh before after)
    (weaker : ∀ location node, fresh location node → fresher location node) :
    Grown fresher before after :=
  ⟨grown.kept, fun location node absent present =>
    weaker location node (grown.fresh location node absent present)⟩

theorem Grown.present (grown : Grown fresh before after) {location : Location}
    (present : before.node location ≠ none) : after.node location ≠ none := by
  obtain ⟨node, found⟩ := Option.ne_none_iff_exists'.mp (mt kinds_eq_none.mp present)
  have there := grown.kept location node found
  exact fun absent => by rw [kinds_eq_none.mpr absent] at there; cases there

theorem Grown.lexists (grown : Grown fresh before after) {cwd : Location} {path : PurePath}
    (present : before.lexists cwd path = true) : after.lexists cwd path = true := by
  rw [← lexists_kinds] at present ⊢
  by_contra absent
  rw [Bool.not_eq_true, lexists_eq_false_iff] at absent
  have gone : before.kinds.lexists cwd path = false := by
    rw [lexists_eq_false_iff]
    intro location located
    by_contra there
    obtain ⟨node, found⟩ := Option.ne_none_iff_exists'.mp there
    have later := locate_extends grown.kept (fun free => absurd free there) located
    have none := absent location later
    rw [grown.kept _ _ found] at none
    cases none
  rw [gone] at present
  cases present

/-- What is new at the end was new in one of two steps, of the same kind. -/
theorem Grown.trans (first : Grown fresh before between) (second : Grown fresh between after)
    (settled : ∀ location old new, fresh location (.file old) → fresh location (.file new)) :
    Grown fresh before after := by
  refine ⟨first.kept.trans second.kept, fun location node absent present => ?_⟩
  cases found : between.node location with
  | none => exact second.fresh location node found present
  | some old =>
      have isFresh := first.fresh location old absent found
      have kept := second.kept location old.kind
        (show (between.node location).map Node.kind = some old.kind by rw [found]; rfl)
      change (after.node location).map Node.kind = some old.kind at kept
      rw [present] at kept
      cases node with
      | directory =>
          cases old <;> first | exact isFresh | cases kept
      | link target =>
          cases old <;> first | (cases kept; exact isFresh) | cases kept
      | file new =>
          cases old <;> first | exact settled _ _ _ isFresh | cases kept

theorem grown_createAt {node : Node φ} {location : Location}
    (created : before.createAt node location = .ok after) :
    Grown (fun other new => other = location ∧ new = node) before after := by
  have extended := createAt_extends created
  refine ⟨fun other old found => ?_, fun other new absent present => ?_⟩
  · obtain ⟨found, same⟩ := Option.map_eq_some_iff.mp found
    change (after.node other).map Node.kind = some old
    rw [extended other found same.1, ← same.2]
    rfl
  · rw [(createAt_eq_ok created).2] at present
    by_cases here : other = location
    · rw [here, Function.update_self, Option.some.injEq] at present
      exact ⟨here, present.symm⟩
    · rw [Function.update_of_ne here, absent] at present
      cases present

theorem grown_setFile (fs : FileSystem φ) {location : Location} {data : φ}
    (isFile : ∃ old, fs.node location = some (.file old)) :
    Grown fresh fs (fs.setFile location data isFile) := by
  obtain ⟨old, found⟩ := isFile
  refine ⟨fun other node there => ?_, fun other node absent present => ?_⟩
  · change (Function.update fs.node location (some (.file data)) other).map Node.kind = some node
    by_cases here : other = location
    · rw [here, Function.update_self]
      rw [here] at there
      change (fs.node location).map Node.kind = some node at there
      rwa [found] at there
    · rwa [Function.update_of_ne here]
  · change Function.update fs.node location (some (.file data)) other = some node at present
    rw [Function.update_of_ne, absent] at present
    · cases present
    · rintro rfl
      rw [found] at absent
      cases absent

end FileSystem

end DashTwrp.Unix
