import DashTwrp.Unix.FileSystem
import Mathlib.Data.List.DropRight

namespace DashTwrp.Unix

/-! Subtrees, and listings of the nodes of a tree. -/

/-- The names between a directory and a location at or below it. -/
def within (base location : Location) : Option (List Name) :=
  if base <:+ location then some (location.take (location.length - base.length)) else none

@[simp] theorem within_append (inner : List Name) (base : Location) :
    within base (inner ++ base) = some inner := by
  rw [within, if_pos (List.suffix_append inner base)]
  simp

theorem within_eq_some_iff {base location : Location} {inner : List Name} :
    within base location = some inner ↔ location = inner ++ base := by
  constructor
  · intro found
    unfold within at found
    split at found
    · rename_i suffix
      obtain ⟨front, rfl⟩ := suffix
      simpa using congrArg (Option.map (· ++ base)) found
    · contradiction
  · rintro rfl
    exact within_append inner base

/-- A relative path of names, the outermost first. -/
def PurePath.ofNames (names : List Name) : PurePath :=
  { absolute := false, steps := names.map .name }

variable {φ : Type}

/-- Every node of a tree, in the order in which the directories are read. -/
def Lists (listing : List Location) (fs : FileSystem φ) : Prop :=
  ∀ location, location ∈ listing ↔ fs.node location ≠ none

/-- What lies below a directory, by the names that lead there. -/
def descendants (listing : List Location) (base : Location) : List (List Name) :=
  (listing.filterMap (within base)).filter (· ≠ [])

theorem mem_descendants {listing : List Location} {base : Location} {inner : List Name} :
    inner ∈ descendants listing base ↔ inner ≠ [] ∧ inner ++ base ∈ listing := by
  simp only [descendants, List.mem_filter, List.mem_filterMap, decide_eq_true_eq,
    within_eq_some_iff]
  constructor
  · intro found
    obtain ⟨⟨location, listed, same⟩, nonempty⟩ := found
    exact ⟨nonempty, same ▸ listed⟩
  · intro found
    exact ⟨⟨inner ++ base, found.2, rfl⟩, found.1⟩

theorem suffix_of_suffix_cons {base location : Location} {name : Name}
    (below : base <:+ location) : base <:+ name :: location :=
  below.trans (List.suffix_cons name location)

theorem not_suffix_tail {name : Name} (parent : Location) : ¬ (name :: parent) <:+ parent := by
  intro below
  have longer := below.length_le
  rw [List.length_cons] at longer
  omega

namespace FileSystem

/-! ### Changes of whole subtrees -/

/-- The tree without a node and what lies below it. -/
def removeBelow (fs : FileSystem φ) (location : Location) (inner : location ≠ []) :
    FileSystem φ where
  node other := if location <:+ other then none else fs.node other
  root := by
    rw [if_neg fun below => inner (List.suffix_nil.mp below)]
    exact fs.root
  parents := by
    intro name other present
    by_cases gone : location <:+ name :: other
    · rw [if_pos gone] at present
      exact absurd rfl present
    · rw [if_neg gone] at present
      rw [if_neg fun below => gone (suffix_of_suffix_cons below)]
      exact fs.parents name other present

/-- A file with other data. -/
def setFile (fs : FileSystem φ) (location : Location) (data : φ)
    (isFile : ∃ old, fs.node location = some (.file old)) : FileSystem φ where
  node := Function.update fs.node location (some (.file data))
  root := by
    have elsewhere : ([] : Location) ≠ location := by
      rintro rfl
      obtain ⟨old, file⟩ := isFile
      rw [fs.root] at file
      cases file
    rw [Function.update_of_ne elsewhere]
    exact fs.root
  parents := by
    intro name parent present
    have inside : fs.node parent = some .directory := by
      by_cases here : name :: parent = location
      · obtain ⟨old, file⟩ := isFile
        rw [← here] at file
        exact fs.parents name parent (by rw [file]; simp)
      · rw [Function.update_of_ne here] at present
        exact fs.parents name parent present
    have elsewhere : parent ≠ location := by
      rintro rfl
      obtain ⟨old, file⟩ := isFile
      rw [inside] at file
      cases file
    rw [Function.update_of_ne elsewhere]
    exact inside

/-- What a subtree holds, put in place of another. -/
def graftNode (before : FileSystem φ) (source target : Location) (fs : FileSystem φ)
    (location : Location) : Option (Node φ) :=
  match within target location with
  | some inner => before.node (inner ++ source)
  | none => fs.node location

/-- The tree with a copy of a subtree of an earlier tree in a directory. -/
def graft (fs before : FileSystem φ) (source : Location) (name : Name) (parent : Location)
    (inside : fs.node parent = some .directory) : FileSystem φ where
  node := graftNode before source (name :: parent) fs
  root := by
    have outside : within (name :: parent) [] = none := by simp [within]
    rw [graftNode, outside]
    exact fs.root
  parents := by
    intro child location present
    rw [graftNode] at present ⊢
    cases found : within (name :: parent) (child :: location) with
    | none =>
        have outside : within (name :: parent) location = none := by
          cases above : within (name :: parent) location with
          | none => rfl
          | some inner =>
              rw [within_eq_some_iff.mp above, ← List.cons_append, within_append] at found
              cases found
        rw [found] at present
        rw [outside]
        exact fs.parents child location present
    | some inner =>
        rw [found] at present
        have split := within_eq_some_iff.mp found
        cases inner with
        | nil =>
            cases split
            have outside : within (name :: parent) parent = none := by
              rw [within, if_neg (not_suffix_tail parent)]
            rw [outside]
            exact inside
        | cons first inner =>
            rw [List.cons_append] at split
            obtain ⟨same, above⟩ := List.cons.inj split
            rw [above, within_append]
            rw [same] at present
            exact before.parents first (inner ++ source) present

end FileSystem

/-! ### Trees with given entries -/

theorem lookup_ne_none {entries : List (Location × Node φ)} {location : Location} :
    entries.lookup location ≠ none ↔ location ∈ entries.map Prod.fst := by
  induction entries with
  | nil => simp
  | cons entry rest ih =>
      rw [List.lookup_cons]
      by_cases here : location = entry.1
      · simp [here]
      · rw [beq_false_of_ne here]
        simp [here, ih]

/-- The tree with a root directory and the given entries. -/
def FileSystem.ofEntries (entries : List (Location × Node φ))
    (closed : ∀ location ∈ entries.map Prod.fst,
      location.tail = [] ∨ entries.lookup location.tail = some .directory) : FileSystem φ where
  node location := if location = [] then some .directory else entries.lookup location
  root := rfl
  parents := by
    intro name location present
    rw [if_neg (by simp)] at present
    rcases closed _ (lookup_ne_none.mp present) with top | inside
    · exact if_pos top
    · split
      · rfl
      · exact inside

theorem lists_ofEntries {entries : List (Location × Node φ)}
    (closed : ∀ location ∈ entries.map Prod.fst,
      location.tail = [] ∨ entries.lookup location.tail = some .directory) :
    Lists ([] :: entries.map Prod.fst) (FileSystem.ofEntries entries closed) := by
  intro location
  by_cases root : location = []
  · simp [root, FileSystem.ofEntries]
  · rw [List.mem_cons, or_iff_right root, ← lookup_ne_none]
    simp [FileSystem.ofEntries, root]

end DashTwrp.Unix
