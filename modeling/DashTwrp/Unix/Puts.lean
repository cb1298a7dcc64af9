import DashTwrp.Unix.Unlinked
import DashTwrp.Unix.Programs

namespace DashTwrp.Unix

/-! Nodes put into a tree one after the other, with the directories above them. -/

variable {φ : Type}

/-- A node is put where some names lead, and only the way there changes. -/
structure NodePut (base : Location) (names : List Name) (node : Node φ)
    (before after : FileSystem φ) : Prop where
  there : after.node (place base names) = some node
  same : ∀ other, (∀ front, front <+: names → other ≠ place base front) →
    after.node other = before.node other

theorem NodePut.above {base : Location} {names front : List Name} {node : Node φ}
    {before after : FileSystem φ} (put : NodePut base names node before after)
    (inside : front <+: names) (proper : front ≠ names) :
    after.node (place base front) = some .directory := by
  obtain ⟨back, rfl⟩ := inside
  have longer : back ≠ [] := fun empty => proper (by rw [empty, List.append_nil])
  have there := put.there
  rw [place_append, place] at there
  exact after.directory_above back.reverse (by simpa using longer) (by rw [there]; simp)

theorem NodePut.outside {base other : Location} {names : List Name} {node : Node φ}
    {before after : FileSystem φ} (put : NodePut base names node before after)
    (off : ¬ base <:+ other) : after.node other = before.node other :=
  put.same other fun _ _ equal => off (equal ▸ suffix_place base _)

/-- Away from the way to the node nothing changes. -/
theorem NodePut.same_names {base : Location} {names other : List Name} {node : Node φ}
    {before after : FileSystem φ} (put : NodePut base names node before after)
    (off : ¬ other <+: names) : after.node (place base other) = before.node (place base other) :=
  put.same _ fun _ inside equal => off (place_inj.mp equal ▸ inside)

/-- Neither path lies at or above the other. -/
def Separate (first second : List Name) : Prop := ¬ first <+: second ∧ ¬ second <+: first

instance (first second : List Name) : Decidable (Separate first second) :=
  inferInstanceAs (Decidable (¬ first <+: second ∧ ¬ second <+: first))

theorem Separate.symm {first second : List Name} (separate : Separate first second) :
    Separate second first :=
  And.symm separate

/-- What is below one is not below the other. -/
theorem Separate.not_below {first second names : List Name} (separate : Separate first second)
    (below : first <+: names) : ¬ second <+: names := by
  intro other
  cases List.prefix_or_prefix_of_prefix below other with
  | inl into => exact separate.1 into
  | inr into => exact separate.2 into

/-- A path that is separate from the node's has links on it only as before. -/
theorem NodePut.unlinked {base : Location} {names other : List Name} {node : Node φ}
    {before after : FileSystem φ} (put : NodePut base names node before after)
    (separate : Separate names other) (unlinked : Unlinked before base other) :
    Unlinked after base other := by
  intro front inside target found
  by_cases onWay : front <+: names
  · have proper : front ≠ names := fun equal => separate.1 (equal ▸ inside)
    rw [put.above onWay proper] at found
    cases found
  · rw [put.same_names onWay] at found
    exact unlinked front inside target found

/-- Nodes put one after the other. -/
inductive Puts (base : Location) :
    List (List Name × Node φ) → FileSystem φ → FileSystem φ → Prop where
  | none (fs : FileSystem φ) : Puts base [] fs fs
  | more {names : List Name} {node : Node φ} {rest : List (List Name × Node φ)}
      {first second third : FileSystem φ} : NodePut base names node first second →
      Puts base rest second third → Puts base ((names, node) :: rest) first third

namespace Puts

variable {base : Location} {puts : List (List Name × Node φ)} {before after : FileSystem φ}

theorem append {later : List (List Name × Node φ)} {final : FileSystem φ}
    (front : Puts base puts before after) (back : Puts base later after final) :
    Puts base (puts ++ later) before final := by
  induction front with
  | none fs => exact back
  | more put _ ih => exact .more put (ih back)

theorem same {other : Location} (made : Puts base puts before after)
    (off : ∀ entry ∈ puts, ∀ front, front <+: entry.1 → other ≠ place base front) :
    after.node other = before.node other := by
  induction made with
  | none fs => rfl
  | more put _ ih =>
      rw [ih fun entry member => off entry (List.mem_cons_of_mem _ member)]
      exact put.same other (off _ List.mem_cons_self)

theorem outside {other : Location} (made : Puts base puts before after)
    (off : ¬ base <:+ other) : after.node other = before.node other :=
  made.same fun _ _ _ _ equal => off (equal ▸ suffix_place base _)

theorem same_names {other : List Name} (made : Puts base puts before after)
    (off : ∀ entry ∈ puts, ¬ other <+: entry.1) :
    after.node (place base other) = before.node (place base other) :=
  made.same fun entry member _ inside equal => off entry member (place_inj.mp equal ▸ inside)

/-- Nodes on separate paths are all there in the end. -/
theorem there (made : Puts base puts before after)
    (separate : (puts.map Prod.fst).Pairwise Separate) {entry : List Name × Node φ}
    (member : entry ∈ puts) : after.node (place base entry.1) = some entry.2 := by
  induction made with
  | none fs => cases member
  | more put later ih =>
      obtain ⟨apart, rest⟩ := List.pairwise_cons.mp separate
      cases member with
      | head =>
          rw [later.same_names fun other inRest =>
            (apart other.1 (List.mem_map_of_mem inRest)).1]
          exact put.there
      | tail _ inRest => exact ih rest inRest

end Puts

/-! ### A pass over a list -/

/-- A node can be put here: the way has no links, and no directory is in its place. -/
structure Ready (base : Location) (names : List Name) (fs : FileSystem φ) : Prop where
  unlinked : Unlinked fs base names
  noDirectory : fs.node (place base names) ≠ some .directory

theorem NodePut.ready {base : Location} {names other : List Name} {node : Node φ}
    {before after : FileSystem φ} (put : NodePut base names node before after)
    (separate : Separate names other) (ready : Ready base other before) :
    Ready base other after where
  unlinked := put.unlinked separate ready.unlinked
  noDirectory := by
    rw [put.same_names separate.2]
    exact ready.noDirectory

theorem Puts.ready {base : Location} {puts : List (List Name × Node φ)} {other : List Name}
    {before after : FileSystem φ} (made : Puts base puts before after)
    (separate : ∀ entry ∈ puts, Separate entry.1 other) (ready : Ready base other before) :
    Ready base other after := by
  induction made with
  | none fs => exact ready
  | more put _ ih =>
      exact ih (fun entry member => separate entry (List.mem_cons_of_mem _ member))
        (put.ready (separate _ List.mem_cons_self) ready)

/-- The nodes that are put by a pass over the items, by their paths. -/
def nodesOf {ι : Type} (target : ι → List Name) (source : ι → Option (Node φ)) (items : List ι) :
    List (List Name × Node φ) :=
  items.filterMap fun item => (source item).map (Prod.mk (target item))

theorem mem_nodesOf {ι : Type} {target : ι → List Name} {source : ι → Option (Node φ)}
    {items : List ι} {entry : List Name × Node φ} : entry ∈ nodesOf target source items ↔
      ∃ item ∈ items, source item = some entry.2 ∧ target item = entry.1 := by
  simp only [nodesOf, List.mem_filterMap, Option.map_eq_some_iff]
  constructor
  · intro found
    obtain ⟨item, member, node, given, rfl⟩ := found
    exact ⟨item, member, given, rfl⟩
  · intro found
    obtain ⟨item, member, given, path⟩ := found
    exact ⟨item, member, entry.2, given, by rw [path]⟩

theorem nodesOf_sublist {ι : Type} (target : ι → List Name) (source : ι → Option (Node φ))
    (items : List ι) : ((nodesOf target source items).map Prod.fst).Sublist (items.map target) := by
  induction items with
  | nil => exact .slnil
  | cons item rest ih =>
      cases found : source item with
      | none =>
          rw [nodesOf, List.filterMap_cons_none (by rw [found]; rfl)]
          exact ih.cons _
      | some node =>
          rw [nodesOf, List.filterMap_cons_some (by rw [found]; rfl)]
          exact ih.cons_cons _

/-- A pass that puts the node of each item that has one, as long as nothing else
is in the way. -/
theorem puts_of_foldlM {ι ε : Type} {base : Location} {target : ι → List Name}
    {source : ι → Option (Node φ)} {step : FileSystem φ → ι → Except ε (FileSystem φ)}
    {items : List ι} {before fs after : FileSystem φ}
    (separate : (items.map target).Pairwise Separate)
    (one : ∀ current next, ∀ item ∈ items, AgreeOutside base before current →
      (source item ≠ none → Ready base (target item) current) → step current item = .ok next →
        (∀ node, source item = some node → NodePut base (target item) node current next) ∧
          (source item = none → next = current))
    (outside : AgreeOutside base before fs)
    (ready : ∀ item ∈ items, source item ≠ none → Ready base (target item) fs)
    (run : items.foldlM step fs = .ok after) :
    Puts base (nodesOf target source items) fs after := by
  induction items generalizing fs with
  | nil =>
      cases run
      exact .none _
  | cons item rest ih =>
      obtain ⟨apart, restSeparate⟩ := List.pairwise_cons.mp separate
      have restOne := fun current next other member =>
        one current next other (List.mem_cons_of_mem _ member)
      rw [List.foldlM_cons] at run
      obtain ⟨next, made, restRun⟩ := except_bind_eq_ok run
      obtain ⟨put, unchanged⟩ := one fs next item List.mem_cons_self outside
        (ready item List.mem_cons_self) made
      cases found : source item with
      | none =>
          rw [unchanged found] at restRun
          rw [nodesOf, List.filterMap_cons_none (by rw [found]; rfl)]
          exact ih restSeparate restOne outside
            (fun other member => ready other (List.mem_cons_of_mem _ member)) restRun
      | some node =>
          have placed := put node found
          rw [nodesOf, List.filterMap_cons_some (by rw [found]; rfl)]
          refine .more placed (ih restSeparate restOne ?_ ?_ restRun)
          · intro other off
            rw [placed.outside off, outside other off]
          · intro other member present
            exact placed.ready (apart _ (List.mem_map_of_mem member))
              (ready other (List.mem_cons_of_mem _ member) present)

/-! ### What lasts -/

/-- Directories and links stay. -/
def Lasting (before after : FileSystem φ) : Prop :=
  ∀ location node, before.node location = some node → (∀ data, node ≠ .file data) →
    after.node location = some node

theorem Lasting.refl (fs : FileSystem φ) : Lasting fs fs := fun _ _ found _ => found

theorem Lasting.trans {first second third : FileSystem φ} (front : Lasting first second)
    (back : Lasting second third) : Lasting first third :=
  fun location node found plain => back location node (front location node found plain) plain

/-- Where a file is in the end nothing was in its way. -/
theorem ready_of_file {base : Location} {names : List Name} {before after : FileSystem φ}
    {data : φ} (kept : Lasting before after)
    (file : after.node (place base names) = some (.file data)) : Ready base names before where
  unlinked := by
    intro front inside target found
    have stays := kept _ _ found (by simp)
    obtain ⟨back, rfl⟩ := inside
    by_cases whole : back = []
    · rw [whole, List.append_nil, stays] at file
      cases file
    · rw [place_append, place] at file
      rw [after.directory_above back.reverse (by simpa using whole) (by rw [file]; simp)] at stays
      cases stays
  noDirectory := by
    intro found
    rw [kept _ _ found (by simp)] at file
    cases file

/-- A pass whose steps leave the directories and links leaves them. -/
theorem lasting_of_foldlM {ι ε : Type} {step : FileSystem φ → ι → Except ε (FileSystem φ)}
    (one : ∀ fs next item, step fs item = .ok next → Lasting fs next) {items : List ι}
    {fs after : FileSystem φ} (run : items.foldlM step fs = .ok after) : Lasting fs after := by
  induction items generalizing fs with
  | nil =>
      cases run
      exact .refl _
  | cons item rest ih =>
      rw [List.foldlM_cons] at run
      obtain ⟨next, made, restRun⟩ := except_bind_eq_ok run
      exact (one fs next item made).trans (ih restRun)

/-- A node that comes where nothing or a file was leaves the directories and links. -/
theorem lasting_update {before after : FileSystem φ} {location : Location} {node : Option (Node φ)}
    (same : after.node = Function.update before.node location node)
    (free : before.node location = none ∨ ∃ data, before.node location = some (.file data)) :
    Lasting before after := by
  intro other kept found plain
  rw [same, Function.update_of_ne, found]
  intro here
  rw [← here, found] at free
  cases free with
  | inl absent => cases absent
  | inr file =>
      obtain ⟨data, isFile⟩ := file
      exact plain data (Option.some.inj isFile)

end DashTwrp.Unix
