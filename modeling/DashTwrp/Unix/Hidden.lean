import DashTwrp.Unix.Unlinked
import DashTwrp.Unix.Programs

namespace DashTwrp.Unix

/-! Two trees that differ only at and below hidden names of one directory, and paths
that do not lead there. -/

/-- At or below one of the names of a directory. -/
def Hidden (dir : Location) (names : List Name) (location : Location) : Prop :=
  ∃ name ∈ names, name :: dir <:+ location

/-- None of the names is a step. -/
def Blind (names : List Name) (steps : List Step) : Prop := ∀ name ∈ names, .name name ∉ steps

section

variable {dir location inner : Location} {names : List Name}

theorem Hidden.below (hidden : Hidden dir names location) (below : location <:+ inner) :
    Hidden dir names inner := by
  obtain ⟨name, member, above⟩ := hidden
  exact ⟨name, member, above.trans below⟩

theorem not_hidden_cons {name : Name} (clear : ¬ Hidden dir names location)
    (other : name ∉ names) : ¬ Hidden dir names (name :: location) := by
  intro hidden
  obtain ⟨covered, member, below⟩ := hidden
  rcases List.suffix_cons_iff.mp below with whole | above
  · exact other ((List.cons.inj whole).1 ▸ member)
  · exact clear ⟨covered, member, above⟩

theorem not_hidden_above (above : location <:+ dir) : ¬ Hidden dir names location := by
  intro hidden
  obtain ⟨name, -, below⟩ := hidden
  exact not_suffix_tail dir (below.trans above)

theorem not_hidden_entry {name : Name} (other : name ∉ names) : ¬ Hidden dir names (name :: dir) :=
  not_hidden_cons (not_hidden_above (List.suffix_refl dir)) other

/-- A subtree that is neither hidden nor around the directory has nothing hidden. -/
theorem not_hidden_below (clear : ¬ Hidden dir names location) (apart : ¬ location <:+ dir)
    (below : location <:+ inner) : ¬ Hidden dir names inner := by
  intro hidden
  obtain ⟨name, member, above⟩ := hidden
  rcases List.suffix_or_suffix_of_suffix above below with inside | around
  · exact clear ⟨name, member, inside⟩
  · rcases List.suffix_cons_iff.mp around with whole | outer
    · exact clear ⟨name, member, whole ▸ List.suffix_refl _⟩
    · exact apart outer

theorem blind_tail {step : Step} {rest : List Step} (blind : Blind names (step :: rest)) :
    Blind names rest :=
  fun name member found => blind name member (List.mem_cons_of_mem _ found)

theorem blind_append {front back : List Step} :
    Blind names (front ++ back) ↔ Blind names front ∧ Blind names back := by
  unfold Blind
  simp only [List.mem_append, not_or]
  exact ⟨fun both => ⟨fun name member => (both name member).1,
    fun name member => (both name member).2⟩, fun both name member =>
      ⟨both.1 name member, both.2 name member⟩⟩

theorem blind_ofNames {listed : List Name} :
    Blind names (PurePath.ofNames listed).steps ↔ ∀ name ∈ names, name ∉ listed := by
  simp [Blind, PurePath.ofNames]

theorem Blind.fewer {more : List Name} {steps : List Step} (blind : Blind more steps)
    (fewer : names ⊆ more) : Blind names steps :=
  fun name member => blind name (fewer member)

end

variable {φ : Type}

/-- Whether a node can be made depends on the directory and on what lies at the place. -/
theorem FileSystem.createAt_error_congr {fs other : FileSystem φ} {node : Node φ} {name : Name}
    {parent : Location} (above : fs.node parent = other.node parent)
    (place : fs.node (name :: parent) = other.node (name :: parent)) {error : OsError}
    (failed : fs.createAt node (name :: parent) = .error error) :
    other.createAt node (name :: parent) = .error error := by
  rw [FileSystem.createAt] at failed ⊢
  split at failed
  · contradiction
  · rename_i inside taken
    rw [above] at inside
    rw [place] at taken
    split
    · simp_all
    · exact failed
    · simp_all
    · simp_all
  · rename_i there inside whenFree whenTaken
    have notDirectory : there ≠ .directory := by
      cases taken : fs.node (name :: parent) with
      | none => exact whenFree taken
      | some val => exact whenTaken val taken
    rw [above] at inside
    split
    · simp_all
    · simp_all
    · exact failed
    · simp_all
  · rename_i absent
    rw [above] at absent
    split
    · simp_all
    · simp_all
    · simp_all
    · exact failed

/-- Two trees on their way from two others: they are alike but for what is hidden, no
link leads there, and it is as it was. -/
structure Paired (dir : Location) (names : List Name) (first second one other : FileSystem φ) :
    Prop where
  same : ∀ location, ¬ Hidden dir names location → one.node location = other.node location
  links : ∀ location target, ¬ Hidden dir names location →
    one.node location = some (.link target) → Blind names target.steps
  directory : one.node dir = some .directory
  kept : ∀ location, Hidden dir names location →
    one.node location = first.node location ∧ other.node location = second.node location

namespace Paired

variable {dir : Location} {names : List Name} {first second one other : FileSystem φ}

theorem walkWith (paired : Paired dir names first second one other) {follow : Bool}
    {onLink onLinkOther : Location → List Step → Except OsError Location}
    (goesOn : ∀ here steps, ¬ Hidden dir names here → Blind names steps →
      onLink here steps = onLinkOther here steps ∧
        ∀ location, onLink here steps = .ok location → ¬ Hidden dir names location)
    {here : Location} {steps : List Step} (clear : ¬ Hidden dir names here)
    (blind : Blind names steps) :
    one.walkWith follow onLink here steps = other.walkWith follow onLinkOther here steps ∧
      ∀ location, one.walkWith follow onLink here steps = .ok location →
        ¬ Hidden dir names location := by
  induction steps generalizing here with
  | nil => exact ⟨rfl, fun location ended => Except.ok.inj ended ▸ clear⟩
  | cons step rest ih =>
      cases step with
      | up => exact ih (fun hidden => clear (hidden.below (List.tail_suffix here))) (blind_tail blind)
      | name name =>
          have inside : ¬ Hidden dir names (name :: here) :=
            not_hidden_cons clear fun member => blind name member List.mem_cons_self
          have here_ends : ∀ location, (.ok (name :: here) : Except OsError Location) = .ok location →
              ¬ Hidden dir names location := fun location ended => Except.ok.inj ended ▸ inside
          rw [FileSystem.walkWith, FileSystem.walkWith, ← paired.same _ inside]
          cases found : one.node (name :: here) with
          | none =>
              simp only
              split
              · exact ⟨trivial, here_ends⟩
              · exact ⟨trivial, fun location ended => by cases ended⟩
          | some node =>
              cases node with
              | directory => exact ih inside (blind_tail blind)
              | file data =>
                  simp only
                  split
                  · exact ⟨trivial, here_ends⟩
                  · exact ⟨trivial, fun location ended => by cases ended⟩
              | link target =>
                  simp only
                  split
                  · exact ⟨rfl, here_ends⟩
                  · refine goesOn _ _ ?_ (blind_append.mpr
                      ⟨paired.links _ target inside found, blind_tail blind⟩)
                    split
                    · exact not_hidden_above List.nil_suffix
                    · exact clear

theorem walk (paired : Paired dir names first second one other) {follow : Bool} {links : Nat}
    {here : Location} {steps : List Step} (clear : ¬ Hidden dir names here)
    (blind : Blind names steps) :
    one.walk follow links here steps = other.walk follow links here steps ∧
      ∀ location, one.walk follow links here steps = .ok location →
        ¬ Hidden dir names location := by
  induction links generalizing here steps with
  | zero => exact paired.walkWith (fun _ _ _ _ => ⟨rfl, fun _ ended => by cases ended⟩) clear blind
  | succ links ih => exact paired.walkWith (fun _ _ clear blind => ih clear blind) clear blind

variable {start : Location} {path : PurePath}

theorem locate_clear (paired : Paired dir names first second one other) (follow : Bool)
    (clear : ¬ Hidden dir names start) (blind : Blind names path.steps) :
    one.locate follow start path = other.locate follow start path ∧
      ∀ location, one.locate follow start path = .ok location → ¬ Hidden dir names location := by
  refine paired.walk ?_ blind
  split
  · exact not_hidden_above List.nil_suffix
  · exact clear

theorem locate (paired : Paired dir names first second one other) (follow : Bool)
    (clear : ¬ Hidden dir names start) (blind : Blind names path.steps) :
    one.locate follow start path = other.locate follow start path :=
  (paired.locate_clear follow clear blind).1

theorem stat (paired : Paired dir names first second one other) (follow : Bool)
    (clear : ¬ Hidden dir names start) (blind : Blind names path.steps) :
    one.stat follow start path = other.stat follow start path := by
  obtain ⟨same, ends⟩ := paired.locate_clear follow clear blind
  unfold FileSystem.stat
  rw [← same]
  cases located : one.locate follow start path with
  | error error => rfl
  | ok location => simp only [paired.same location (ends location located)]

theorem pathExists (paired : Paired dir names first second one other)
    (clear : ¬ Hidden dir names start) (blind : Blind names path.steps) :
    one.pathExists start path = other.pathExists start path := by
  rw [FileSystem.pathExists, FileSystem.pathExists, paired.stat true clear blind]

theorem lexists (paired : Paired dir names first second one other)
    (clear : ¬ Hidden dir names start) (blind : Blind names path.steps) :
    one.lexists start path = other.lexists start path := by
  rw [FileSystem.lexists, FileSystem.lexists, paired.stat false clear blind]

theorem isDir (paired : Paired dir names first second one other)
    (clear : ¬ Hidden dir names start) (blind : Blind names path.steps) :
    one.isDir start path = other.isDir start path := by
  rw [FileSystem.isDir, FileSystem.isDir, paired.stat true clear blind]

/-- What a link is found to be leads nowhere hidden. -/
theorem link_blind (paired : Paired dir names first second one other) {follow : Bool}
    (clear : ¬ Hidden dir names start) (blind : Blind names path.steps) {target : PurePath}
    (found : one.stat follow start path = .ok (.link target)) : Blind names target.steps := by
  obtain ⟨location, located, there⟩ := FileSystem.stat_eq_ok_iff.mp found
  exact paired.links location target
    ((paired.locate_clear follow clear blind).2 location located) there

/-! ### Changes that are made to both trees -/

variable {after afterOther : FileSystem φ} {location : Location}

/-- A node is put at a place that is not hidden. -/
theorem update (paired : Paired dir names first second one other)
    (clear : ¬ Hidden dir names location) (elsewhere : location ≠ dir) {node : Node φ}
    (blind : ∀ target, node = .link target → Blind names target.steps)
    (changed : after.node = Function.update one.node location (some node))
    (changedOther : afterOther.node = Function.update other.node location (some node)) :
    Paired dir names first second after afterOther where
  same := by
    intro place visible
    rw [changed, changedOther]
    by_cases here : place = location
    · rw [here, Function.update_self, Function.update_self]
    · rw [Function.update_of_ne here, Function.update_of_ne here, paired.same place visible]
  links := by
    intro place target visible found
    rw [changed] at found
    by_cases here : place = location
    · rw [here, Function.update_self, Option.some.injEq] at found
      exact blind target found
    · rw [Function.update_of_ne here] at found
      exact paired.links place target visible found
  directory := by
    rw [changed, Function.update_of_ne elsewhere.symm]
    exact paired.directory
  kept := by
    intro place hidden
    have here : place ≠ location := fun same => clear (same ▸ hidden)
    rw [changed, changedOther, Function.update_of_ne here, Function.update_of_ne here]
    exact paired.kept place hidden

/-- A subtree that is not around the directory is removed. -/
theorem removeBelow (paired : Paired dir names first second one other)
    (clear : ¬ Hidden dir names location) (apart : ¬ location <:+ dir) (inner : location ≠ []) :
    Paired dir names first second (one.removeBelow location inner)
      (other.removeBelow location inner) where
  same := by
    intro place visible
    change (if location <:+ place then none else one.node place) =
      if location <:+ place then none else other.node place
    rw [paired.same place visible]
  links := by
    intro place target visible found
    change (if location <:+ place then none else one.node place) = _ at found
    split at found
    · cases found
    · exact paired.links place target visible found
  directory := (if_neg apart).trans paired.directory
  kept := by
    intro place hidden
    have outside : ¬ location <:+ place := fun below => not_hidden_below clear apart below hidden
    exact ⟨(if_neg outside).trans (paired.kept place hidden).1,
      (if_neg outside).trans (paired.kept place hidden).2⟩

/-- What happens below a hidden name is not seen. -/
theorem unseen (paired : Paired dir names first second one other) {name : Name}
    (member : name ∈ names)
    (changed : ∀ place, ¬ name :: dir <:+ place → after.node place = one.node place)
    (changedOther : ∀ place, ¬ name :: dir <:+ place → afterOther.node place = other.node place) :
    Paired dir names after afterOther after afterOther := by
  have visible {place : Location} (clear : ¬ Hidden dir names place) : ¬ name :: dir <:+ place :=
    fun below => clear ⟨name, member, below⟩
  refine ⟨fun place clear => ?_, fun place target clear found => ?_, ?_, fun _ _ => ⟨rfl, rfl⟩⟩
  · rw [changed place (visible clear), changedOther place (visible clear), paired.same place clear]
  · rw [changed place (visible clear)] at found
    exact paired.links place target clear found
  · rw [changed dir (not_suffix_tail dir)]
    exact paired.directory

/-- A name under which both trees are alike need not be hidden. -/
theorem reveal {name : Name} (paired : Paired dir (name :: names) first second one other)
    (alike : ∀ place, name :: dir <:+ place → one.node place = other.node place)
    (blind : ∀ place target, name :: dir <:+ place → one.node place = some (.link target) →
      Blind names target.steps) :
    Paired dir names one other one other := by
  have hidden {place : Location} (clear : ¬ Hidden dir names place)
      (below : ¬ name :: dir <:+ place) : ¬ Hidden dir (name :: names) place := by
    intro covered
    obtain ⟨covering, member, above⟩ := covered
    rcases List.mem_cons.mp member with first | later
    · exact below (first ▸ above)
    · exact clear ⟨covering, later, above⟩
  refine ⟨fun place clear => ?_, fun place target clear found => ?_, paired.directory,
    fun _ _ => ⟨rfl, rfl⟩⟩
  · by_cases below : name :: dir <:+ place
    · exact alike place below
    · exact paired.same place (hidden clear below)
  · by_cases below : name :: dir <:+ place
    · exact blind place target below found
    · exact (paired.links place target (hidden clear below) found).fewer (List.subset_cons_self _ _)

/-- Copies of alike subtrees take the place of what is not around the directory. -/
theorem graft (paired : Paired dir names first second one other) {name : Name} {parent : Location}
    (clear : ¬ Hidden dir names (name :: parent)) (apart : ¬ name :: parent <:+ dir)
    {before beforeOther : FileSystem φ} {source : Location}
    (copies : ∀ inner, before.node (inner ++ source) = beforeOther.node (inner ++ source))
    (blind : ∀ inner target, before.node (inner ++ source) = some (.link target) →
      Blind names target.steps)
    (inside : one.node parent = some .directory) (insideOther : other.node parent = some .directory) :
    Paired dir names first second (one.graft before source name parent inside)
      (other.graft beforeOther source name parent insideOther) := by
  have outside {place : Location} (off : ¬ name :: parent <:+ place) :
      within (name :: parent) place = none := by
    rw [within, if_neg off]
  have nodes (place : Location) :
      (one.graft before source name parent inside).node place =
        FileSystem.graftNode before source (name :: parent) one place ∧
      (other.graft beforeOther source name parent insideOther).node place =
        FileSystem.graftNode beforeOther source (name :: parent) other place := ⟨rfl, rfl⟩
  refine ⟨fun place visible => ?_, fun place target visible found => ?_, ?_, fun place hidden => ?_⟩
  · rw [(nodes place).1, (nodes place).2, FileSystem.graftNode, FileSystem.graftNode]
    cases within (name :: parent) place with
    | none => exact paired.same place visible
    | some inner => exact copies inner
  · rw [(nodes place).1, FileSystem.graftNode] at found
    cases below : within (name :: parent) place with
    | none =>
        rw [below] at found
        exact paired.links place target visible found
    | some inner =>
        rw [below] at found
        exact blind inner target found
  · rw [(nodes dir).1, FileSystem.graftNode, outside apart]
    exact paired.directory
  · have off := outside fun below => not_hidden_below clear apart below hidden
    rw [(nodes place).1, (nodes place).2, FileSystem.graftNode, FileSystem.graftNode, off]
    exact paired.kept place hidden

end Paired

end DashTwrp.Unix
