import DashTwrp.Unix.Trees

namespace DashTwrp.Unix

/-! Paths of names with no symbolic link on them lead where their names say. -/

/-- Where names lead from a directory, when nothing on the way is a link. -/
def place (start : Location) (names : List Name) : Location := names.reverse ++ start

@[simp] theorem place_nil (start : Location) : place start [] = start := rfl

theorem place_cons (start : Location) (name : Name) (rest : List Name) :
    place start (name :: rest) = place (name :: start) rest := by
  simp [place]

theorem place_concat (start : Location) (front : List Name) (last : Name) :
    place start (front ++ [last]) = last :: place start front := by
  simp [place]

theorem place_append (start : Location) (front back : List Name) :
    place start (front ++ back) = place (place start front) back := by
  simp [place]

@[simp] theorem place_inj {start : Location} {first second : List Name} :
    place start first = place start second ↔ first = second := by
  simp [place]

theorem suffix_place (start : Location) (names : List Name) : start <:+ place start names :=
  List.suffix_append _ _

/-- One path of names lies at or below another. -/
theorem place_suffix_place {start : Location} {first second : List Name} :
    place start first <:+ place start second ↔ first <+: second := by
  constructor
  · intro below
    obtain ⟨inner, same⟩ := below
    rw [place, place, ← List.append_assoc] at same
    have names := List.append_cancel_right same
    exact ⟨inner.reverse, by rw [← List.reverse_reverse second, ← names]; simp⟩
  · intro longer
    obtain ⟨inner, rfl⟩ := longer
    exact ⟨inner.reverse, by simp [place]⟩

variable {φ : Type}

/-- No node on the way along some names is a link. -/
def Unlinked (fs : FileSystem φ) (start : Location) (names : List Name) : Prop :=
  ∀ front, front <+: names → ∀ target, fs.node (place start front) ≠ some (.link target)

/-- Whatever is a link in the second tree is the same link in the first. -/
def NoNewLinks (before after : FileSystem φ) : Prop :=
  ∀ location target, after.node location = some (.link target) →
    before.node location = some (.link target)

theorem NoNewLinks.refl (fs : FileSystem φ) : NoNewLinks fs fs := fun _ _ found => found

theorem NoNewLinks.trans {first second third : FileSystem φ} (front : NoNewLinks first second)
    (back : NoNewLinks second third) : NoNewLinks first third :=
  fun location target found => front location target (back location target found)

namespace Unlinked

variable {fs : FileSystem φ} {start : Location} {names : List Name}

theorem of_noNewLinks {after : FileSystem φ} (unlinked : Unlinked fs start names)
    (kept : NoNewLinks fs after) : Unlinked after start names :=
  fun front inside target found => unlinked front inside target (kept _ target found)

theorem prefix_of {front : List Name} (unlinked : Unlinked fs start names)
    (inside : front <+: names) : Unlinked fs start front :=
  fun shorter within => unlinked shorter (within.trans inside)

theorem tail {name : Name} {rest : List Name} (unlinked : Unlinked fs start (name :: rest)) :
    Unlinked fs (name :: start) rest := by
  intro front inside
  rw [← place_cons]
  exact unlinked (name :: front) ((List.prefix_cons_inj name).mpr inside)

/-- A walk along the names ends where they lead. -/
theorem walkWith_ends {follow : Bool} {onLink : Location → List Step → Except OsError Location}
    {location : Location} (unlinked : Unlinked fs start names)
    (walked : fs.walkWith follow onLink start (names.map .name) = .ok location) :
    location = place start names := by
  induction names generalizing start with
  | nil => exact (Except.ok.inj walked).symm
  | cons name rest ih =>
      rw [List.map_cons, FileSystem.walkWith] at walked
      rw [place_cons]
      cases entry : fs.node (name :: start) with
      | none =>
          simp only [entry, List.map_eq_nil_iff] at walked
          split at walked
          · rename_i last
            rw [last, place_nil]
            exact (Except.ok.inj walked).symm
          · contradiction
      | some node =>
          cases node with
          | directory =>
              simp only [entry] at walked
              exact ih unlinked.tail walked
          | file data =>
              simp only [entry, List.map_eq_nil_iff] at walked
              split at walked
              · rename_i last
                rw [last, place_nil]
                exact (Except.ok.inj walked).symm
              · contradiction
          | link target => exact absurd entry (unlinked [name] (by simp) target)

/-- Below directories the walk does not fail. -/
theorem walkWith_below {follow : Bool} {onLink : Location → List Step → Except OsError Location}
    (unlinked : Unlinked fs start names)
    (below : ∀ front last, names = front ++ [last] →
      fs.node (place start front) = some .directory) :
    fs.walkWith follow onLink start (names.map .name) = .ok (place start names) := by
  induction names generalizing start with
  | nil => rfl
  | cons name rest ih =>
      rw [List.map_cons, FileSystem.walkWith, place_cons]
      have later : ∀ front last, rest = front ++ [last] →
          fs.node (place (name :: start) front) = some .directory := by
        intro front last split
        rw [← place_cons]
        exact below (name :: front) last (by rw [split, List.cons_append])
      have inner : rest ≠ [] → fs.node (name :: start) = some .directory := by
        intro nonempty
        have parent := later rest.dropLast (rest.getLast nonempty)
          (List.dropLast_append_getLast nonempty).symm
        cases front : rest.dropLast with
        | nil =>
            rw [front] at parent
            exact parent
        | cons next more =>
            rw [front, place] at parent
            exact fs.directory_above (next :: more).reverse (by simp) (by rw [parent]; simp)
      by_cases last : rest = []
      · subst last
        cases entry : fs.node (name :: start) with
        | none => rfl
        | some node =>
            cases node with
            | directory => rfl
            | file data => rfl
            | link target => exact absurd entry (unlinked [name] (by simp) target)
      · rw [inner last]
        exact ih unlinked.tail later

theorem walk_ends {follow : Bool} {links : Nat} {location : Location}
    (unlinked : Unlinked fs start names)
    (walked : fs.walk follow links start (names.map .name) = .ok location) :
    location = place start names := by
  cases links with
  | zero => exact unlinked.walkWith_ends walked
  | succ links => exact unlinked.walkWith_ends walked

theorem locate_ends {follow : Bool} {location : Location} (unlinked : Unlinked fs start names)
    (located : fs.locate follow start (.ofNames names) = .ok location) :
    location = place start names :=
  unlinked.walk_ends located

theorem locate_below {follow : Bool} (unlinked : Unlinked fs start names)
    (below : ∀ front last, names = front ++ [last] →
      fs.node (place start front) = some .directory) :
    fs.locate follow start (.ofNames names) = .ok (place start names) :=
  unlinked.walkWith_below below

theorem locate_present {follow : Bool} (unlinked : Unlinked fs start names)
    (present : fs.node (place start names) ≠ none) :
    fs.locate follow start (.ofNames names) = .ok (place start names) := by
  apply unlinked.locate_below
  intro front last split
  rw [split, place_concat] at present
  exact fs.parents last (place start front) present

/-- What `stat` sees is the node where the names lead. -/
theorem stat_iff (unlinked : Unlinked fs start names) (follow : Bool) {node : Node φ} :
    fs.stat follow start (.ofNames names) = .ok node ↔
      fs.node (place start names) = some node := by
  rw [FileSystem.stat_eq_ok_iff]
  constructor
  · intro found
    obtain ⟨location, located, there⟩ := found
    rwa [unlinked.locate_ends located] at there
  · intro there
    exact ⟨_, unlinked.locate_present (by rw [there]; simp), there⟩

theorem exists_iff (unlinked : Unlinked fs start names) :
    fs.pathExists start (.ofNames names) = true ↔ fs.node (place start names) ≠ none := by
  unfold FileSystem.pathExists
  cases found : fs.stat true start (.ofNames names) with
  | ok node =>
      rw [(unlinked.stat_iff true).mp found]
      simp [Except.isOk, Except.toBool]
  | error error =>
      have absent : fs.node (place start names) = none := by
        by_contra present
        obtain ⟨node, there⟩ := Option.ne_none_iff_exists'.mp present
        rw [(unlinked.stat_iff true).mpr there] at found
        cases found
      simp [absent, Except.isOk, Except.toBool]

theorem isDir_iff (unlinked : Unlinked fs start names) :
    fs.isDir start (.ofNames names) = true ↔ fs.node (place start names) = some .directory := by
  rw [← unlinked.stat_iff true, FileSystem.isDir]
  cases found : fs.stat true start (.ofNames names) with
  | ok node => cases node <;> simp
  | error error => simp

end Unlinked

section

variable {fs : FileSystem φ} {start : Location} {front names : List Name} {last : Name}

/-- A node that is no link is reached through directories. -/
theorem unlinked_of_node {node : Node φ} (found : fs.node (place start names) = some node)
    (plain : ∀ target, node ≠ .link target) : Unlinked fs start names := by
  intro above inside target linked
  obtain ⟨back, rfl⟩ := inside
  by_cases whole : back = []
  · rw [whole, List.append_nil, linked] at found
    exact plain target (Option.some.inj found).symm
  · rw [place_append, place] at found
    rw [fs.directory_above back.reverse (by simpa using whole) (by rw [found]; simp)] at linked
    cases linked

theorem unlinked_concat (unlinked : Unlinked fs start front)
    (plain : ∀ target, fs.node (place start (front ++ [last])) ≠ some (.link target)) :
    Unlinked fs start (front ++ [last]) := by
  intro above inside target
  cases List.prefix_concat_iff.mp inside with
  | inl whole =>
      rw [whole]
      exact plain target
  | inr shorter => exact unlinked above shorter target

/-- What is above a node are directories. -/
theorem unlinked_above (present : fs.node (place start (front ++ [last])) ≠ none) :
    Unlinked fs start front := by
  rw [place_concat] at present
  exact unlinked_of_node (fs.parents last (place start front) present) (by simp)

/-- A path through a directory goes on from there. -/
theorem locate_directory {follow : Bool} {name : Name} (inside : fs.node (name :: start) = some .directory)
    (rest : List Name) : fs.locate follow start (.ofNames (name :: rest)) =
      fs.locate follow (name :: start) (.ofNames rest) := by
  change fs.walkWith follow _ start (.name name :: rest.map .name) =
    fs.walkWith follow _ (name :: start) (rest.map .name)
  rw [FileSystem.walkWith, inside]

/-- The last component may be a link where it is not followed. -/
theorem walkWith_ends_entry {onLink : Location → List Step → Except OsError Location}
    {location : Location} (unlinked : Unlinked fs start front)
    (walked : fs.walkWith false onLink start ((front ++ [last]).map .name) = .ok location) :
    location = place start (front ++ [last]) := by
  induction front generalizing start with
  | nil =>
      rw [List.nil_append, List.map_singleton, FileSystem.walkWith] at walked
      rw [List.nil_append, place_cons, place_nil]
      cases entry : fs.node (last :: start) with
      | none =>
          simp only [entry, if_true] at walked
          exact (Except.ok.inj walked).symm
      | some node =>
          cases node with
          | directory =>
              simp only [entry] at walked
              exact (Except.ok.inj walked).symm
          | file data =>
              simp only [entry, if_true] at walked
              exact (Except.ok.inj walked).symm
          | link target =>
              simp only [entry, and_self, if_true] at walked
              exact (Except.ok.inj walked).symm
  | cons name rest ih =>
      rw [List.cons_append, List.map_cons, FileSystem.walkWith] at walked
      rw [List.cons_append, place_cons]
      cases entry : fs.node (name :: start) with
      | none => simp [entry] at walked
      | some node =>
          cases node with
          | directory =>
              simp only [entry] at walked
              exact ih unlinked.tail walked
          | file data => simp [entry] at walked
          | link target => exact absurd entry (unlinked [name] (by simp) target)

theorem locate_ends_entry {location : Location} (unlinked : Unlinked fs start front)
    (located : fs.locate false start (.ofNames (front ++ [last])) = .ok location) :
    location = place start (front ++ [last]) :=
  walkWith_ends_entry unlinked located

/-- A path of names to a node leads there, whatever the node is. -/
theorem walkWith_entry {onLink : Location → List Step → Except OsError Location}
    (present : fs.node (place start (front ++ [last])) ≠ none) :
    fs.walkWith false onLink start ((front ++ [last]).map .name) =
      .ok (place start (front ++ [last])) := by
  induction front generalizing start with
  | nil =>
      rw [List.nil_append, place_cons, place_nil] at present ⊢
      rw [List.map_singleton, FileSystem.walkWith]
      cases entry : fs.node (last :: start) with
      | none => exact absurd entry present
      | some node =>
          cases node with
          | directory => rfl
          | file data => rfl
          | link target => rfl
  | cons name rest ih =>
      rw [List.cons_append, place_cons] at present ⊢
      have inside : fs.node (name :: start) = some .directory :=
        fs.directory_above (rest ++ [last]).reverse (by simp) present
      rw [List.map_cons, FileSystem.walkWith, inside]
      exact ih present

theorem locate_entry (present : fs.node (place start (front ++ [last])) ≠ none) :
    fs.locate false start (.ofNames (front ++ [last])) = .ok (place start (front ++ [last])) :=
  walkWith_entry present

/-- `lstat` sees the node where the names lead. -/
theorem stat_entry {node : Node φ} (found : fs.node (place start (front ++ [last])) = some node) :
    fs.stat false start (.ofNames (front ++ [last])) = .ok node :=
  FileSystem.stat_eq_ok_iff.mpr ⟨_, locate_entry (by rw [found]; simp), found⟩

end

theorem exists_iff_stat {fs : FileSystem φ} {start : Location} {path : PurePath} :
    fs.pathExists start path = true ↔ ∃ node, fs.stat true start path = .ok node := by
  unfold FileSystem.pathExists
  cases fs.stat true start path with
  | ok node => simp [Except.isOk, Except.toBool]
  | error error => simp [Except.isOk, Except.toBool]

/-- The trees agree outside a directory. -/
def AgreeOutside (base : Location) (before after : FileSystem φ) : Prop :=
  ∀ other, ¬ base <:+ other → after.node other = before.node other

theorem AgreeOutside.trans {base : Location} {first second third : FileSystem φ}
    (front : AgreeOutside base first second) (back : AgreeOutside base second third) :
    AgreeOutside base first third :=
  fun other off => (back other off).trans (front other off)

/-- Where a path leads does not depend on what is at or below a location. -/
def Settled (fs : FileSystem φ) (area start : Location) (path : PurePath) : Prop :=
  ∀ later, AgreeOutside area fs later → ∀ follow node,
    later.stat follow start path = .ok node ↔ fs.stat follow start path = .ok node

theorem Settled.exists_iff {fs later : FileSystem φ} {area start : Location} {path : PurePath}
    (settled : Settled fs area start path) (outside : AgreeOutside area fs later) :
    later.pathExists start path = true ↔ fs.pathExists start path = true := by
  rw [exists_iff_stat, exists_iff_stat]
  exact exists_congr fun node => settled later outside true node

theorem Settled.inner {fs later : FileSystem φ} {area inner start : Location} {path : PurePath}
    (settled : Settled fs area start path) (outside : AgreeOutside area fs later)
    (below : area <:+ inner) : Settled later inner start path := by
  intro last agree follow node
  have whole : AgreeOutside area fs last :=
    outside.trans fun other off => agree other fun under => off (below.trans under)
  rw [settled last whole, settled later outside]

theorem node_agreeOutside {fs later : FileSystem φ} {area start : Location}
    {names : List Name} (outside : AgreeOutside area fs later)
    (off : ¬ area <:+ place start names) {front : List Name} (inside : front <+: names) :
    later.node (place start front) = fs.node (place start front) :=
  outside _ fun below => off (below.trans (place_suffix_place.mpr inside))

theorem Unlinked.of_agreeOutside {fs later : FileSystem φ} {area start : Location}
    {names : List Name} (unlinked : Unlinked fs start names) (outside : AgreeOutside area fs later)
    (off : ¬ area <:+ place start names) : Unlinked later start names := by
  intro front inside target
  rw [node_agreeOutside outside off inside]
  exact unlinked front inside target

theorem Settled.of_unlinked {fs : FileSystem φ} {area start : Location} {names : List Name}
    (unlinked : Unlinked fs start names) (off : ¬ area <:+ place start names) :
    Settled fs area start (.ofNames names) := by
  intro later outside follow node
  rw [(unlinked.of_agreeOutside outside off).stat_iff, unlinked.stat_iff,
    node_agreeOutside outside off (List.prefix_refl _)]

def Node.isLink : Node φ → Bool
  | .link _ => true
  | _ => false

/-- A tree with no links among its entries. -/
theorem unlinked_ofEntries {entries : List (Location × Node φ)}
    (closed : ∀ location ∈ entries.map Prod.fst,
      location.tail = [] ∨ entries.lookup location.tail = some .directory)
    (plain : ∀ entry ∈ entries, entry.2.isLink = false) (start : Location) (names : List Name) :
    Unlinked (.ofEntries entries closed) start names := by
  intro front _ target found
  change (if place start front = [] then some .directory else
    entries.lookup (place start front)) = some (.link target) at found
  split at found
  · cases found
  · obtain ⟨earlier, later, split, _⟩ := List.lookup_eq_some_iff.mp found
    have isPlain := plain (place start front, .link target) (by simp [split])
    cases isPlain

end DashTwrp.Unix
