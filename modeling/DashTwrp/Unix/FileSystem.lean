import Mathlib.Data.List.Basic
import Mathlib.Logic.Function.Basic

namespace DashTwrp.Unix

/-! Trees of directories, files and symbolic links, and how a path is resolved
in one.

The type of what a file holds is a parameter: bytes where no two names share a
file, an inode number where they can. -/

abbrev Name := String

/-- The names from a node up to the root; the root is the empty list. -/
abbrev Location := List Name

/-- A component of a path.  Empty components and `.` are dropped beforehand. -/
inductive Step where
  | up
  | name (name : Name)
deriving DecidableEq, Repr

structure PurePath where
  absolute : Bool
  steps : List Step
deriving DecidableEq, Repr

inductive Node (φ : Type) where
  | directory
  | file (data : φ)
  | link (target : PurePath)
deriving DecidableEq, Repr

inductive OsError where
  | fileExists
  | noEntry
  | notDirectory
  | isDirectory
  | notEmpty
  | loop
  | other (errno : Nat)
deriving DecidableEq, Repr

/-- Whatever lies in the tree lies in a directory. -/
structure FileSystem (φ : Type) where
  node : Location → Option (Node φ)
  root : node [] = some .directory
  parents : ∀ name location, node (name :: location) ≠ none → node location = some .directory

variable {φ : Type}

namespace FileSystem

@[ext] theorem ext {first second : FileSystem φ} (same : first.node = second.node) :
    first = second := by
  cases first
  cases second
  cases same
  rfl

/-- Nothing lies below what is not a directory. -/
theorem none_below (fs : FileSystem φ) {location : Location} (inner : List Name)
    (nonempty : inner ≠ []) (leaf : fs.node location ≠ some .directory) :
    fs.node (inner ++ location) = none := by
  induction inner with
  | nil => exact absurd rfl nonempty
  | cons name rest ih =>
      by_contra present
      have above := fs.parents name (rest ++ location) present
      by_cases last : rest = []
      · subst last
        exact leaf above
      · rw [ih last] at above
        contradiction

theorem directory_above (fs : FileSystem φ) {location : Location} (inner : List Name)
    (nonempty : inner ≠ []) (present : fs.node (inner ++ location) ≠ none) :
    fs.node location = some .directory := by
  by_contra leaf
  exact present (fs.none_below inner nonempty leaf)

/-! ### Resolving a path -/

/-- Follow the steps of a path up to the first symbolic link, which is left to
`onLink`.  The last component may be missing; with `follow` unset it may be a
link. -/
def walkWith (fs : FileSystem φ) (follow : Bool)
    (onLink : Location → List Step → Except OsError Location) :
    Location → List Step → Except OsError Location
  | here, [] => .ok here
  | here, .up :: rest => walkWith fs follow onLink here.tail rest
  | here, .name name :: rest =>
      match fs.node (name :: here) with
      | some .directory => walkWith fs follow onLink (name :: here) rest
      | some (.link target) =>
          if rest = [] ∧ follow = false then .ok (name :: here)
          else onLink (if target.absolute then [] else here) (target.steps ++ rest)
      | some (.file _) => if rest = [] then .ok (name :: here) else .error .notDirectory
      | none => if rest = [] then .ok (name :: here) else .error .noEntry

/-- Resolution that goes through at most `links` symbolic links. -/
def walk (fs : FileSystem φ) (follow : Bool) : Nat → Location → List Step → Except OsError Location
  | 0 => fs.walkWith follow fun _ _ => .error .loop
  | links + 1 => fs.walkWith follow (fs.walk follow links)

/-- `MAXSYMLINKS` -/
def maxSymlinks : Nat := 40

/-- Where a path leads.  `cwd` is where relative paths start. -/
def locate (fs : FileSystem φ) (follow : Bool) (cwd : Location) (path : PurePath) :
    Except OsError Location :=
  fs.walk follow maxSymlinks (if path.absolute then [] else cwd) path.steps

/-- `os.stat` and, with `follow` unset, `os.lstat` -/
def stat (fs : FileSystem φ) (follow : Bool) (cwd : Location) (path : PurePath) :
    Except OsError (Node φ) :=
  match fs.locate follow cwd path with
  | .error error => .error error
  | .ok location =>
      match fs.node location with
      | none => .error .noEntry
      | some node => .ok node

/-- `os.path.exists` -/
def pathExists (fs : FileSystem φ) (cwd : Location) (path : PurePath) : Bool :=
  (fs.stat true cwd path).isOk

/-- `os.path.lexists` -/
def lexists (fs : FileSystem φ) (cwd : Location) (path : PurePath) : Bool :=
  (fs.stat false cwd path).isOk

/-- `Path.is_file` -/
def isFile (fs : FileSystem φ) (cwd : Location) (path : PurePath) : Bool :=
  match fs.stat true cwd path with
  | .ok (.file _) => true
  | _ => false

/-- `os.path.isdir` -/
def isDir (fs : FileSystem φ) (cwd : Location) (path : PurePath) : Bool :=
  match fs.stat true cwd path with
  | .ok .directory => true
  | _ => false

theorem stat_eq_ok_iff {fs : FileSystem φ} {follow : Bool} {cwd : Location} {path : PurePath}
    {node : Node φ} :
    fs.stat follow cwd path = .ok node ↔
      ∃ location, fs.locate follow cwd path = .ok location ∧ fs.node location = some node := by
  unfold stat
  cases located : fs.locate follow cwd path with
  | error error => simp
  | ok location => cases found : fs.node location <;> simp [found]

theorem lexists_eq_false_iff {fs : FileSystem φ} {cwd : Location} {path : PurePath} :
    fs.lexists cwd path = false ↔
      ∀ location, fs.locate false cwd path = .ok location → fs.node location = none := by
  unfold lexists stat
  cases located : fs.locate false cwd path with
  | error error => simp [Except.isOk, Except.toBool]
  | ok location => cases found : fs.node location <;> simp [found, Except.isOk, Except.toBool]

/-! ### Trees that keep what another has -/

/-- Every node is still there, with the same data or target. -/
def Extends (before after : FileSystem φ) : Prop :=
  ∀ location node, before.node location = some node → after.node location = some node

theorem Extends.refl (fs : FileSystem φ) : fs.Extends fs := fun _ _ found => found

theorem Extends.trans {first second third : FileSystem φ} (front : first.Extends second)
    (back : second.Extends third) : first.Extends third :=
  fun location node found => back location node (front location node found)

/-- A path leads to the same place in every larger tree, unless a link was put there. -/
theorem walkWith_extends {before after : FileSystem φ} (kept : before.Extends after)
    {follow : Bool} {onLink onLinkAfter : Location → List Step → Except OsError Location}
    {location : Location}
    (settled : before.node location = none → follow = true →
      ∀ target, after.node location ≠ some (.link target))
    (links : ∀ here steps, onLink here steps = .ok location → onLinkAfter here steps = .ok location)
    {here : Location} {steps : List Step}
    (walked : before.walkWith follow onLink here steps = .ok location) :
    after.walkWith follow onLinkAfter here steps = .ok location := by
  induction steps generalizing here with
  | nil => exact walked
  | cons step rest ih =>
      cases step with
      | up => exact ih walked
      | name name =>
          rw [walkWith] at walked ⊢
          cases found : before.node (name :: here) with
          | none =>
              simp only [found] at walked
              split at walked
              · rename_i last
                subst last
                cases walked
                cases new : after.node (name :: here) with
                | none => rfl
                | some node =>
                    cases node with
                    | directory => rfl
                    | file data => rfl
                    | link target =>
                        have stays : follow = false := by
                          by_contra follows
                          exact settled found (by simpa using follows) target new
                        simp [stays]
              · contradiction
          | some node =>
              rw [kept _ _ found]
              cases node with
              | directory =>
                  simp only [found] at walked
                  exact ih walked
              | file data =>
                  simp only [found] at walked
                  exact walked
              | link target =>
                  simp only [found] at walked
                  simp only
                  split at walked
                  · rename_i last
                    rw [if_pos last, walked]
                  · rename_i inner
                    rw [if_neg inner]
                    exact links _ _ walked

theorem locate_extends {before after : FileSystem φ} (kept : before.Extends after) {follow : Bool}
    {cwd location : Location} {path : PurePath}
    (settled : before.node location = none → follow = true →
      ∀ target, after.node location ≠ some (.link target))
    (located : before.locate follow cwd path = .ok location) :
    after.locate follow cwd path = .ok location := by
  have walk_extends : ∀ links here steps, before.walk follow links here steps = .ok location →
      after.walk follow links here steps = .ok location := by
    intro links
    induction links with
    | zero =>
        exact fun here steps => walkWith_extends kept settled (fun _ _ failed => by cases failed)
    | succ links ih => exact fun here steps => walkWith_extends kept settled ih
  exact walk_extends _ _ _ located

/-- A path that leads to no link leads to the same place when links are followed. -/
theorem locate_follow {fs : FileSystem φ} {cwd location : Location} {path : PurePath}
    (located : fs.locate false cwd path = .ok location)
    (plain : ∀ target, fs.node location ≠ some (.link target)) :
    fs.locate true cwd path = .ok location := by
  have walkWith_follow : ∀ {onLink onLinkAfter : Location → List Step → Except OsError Location},
      (∀ here steps, onLink here steps = .ok location → onLinkAfter here steps = .ok location) →
        ∀ steps here, fs.walkWith false onLink here steps = .ok location →
          fs.walkWith true onLinkAfter here steps = .ok location := by
    intro onLink onLinkAfter links steps
    induction steps with
    | nil => exact fun _ walked => walked
    | cons step rest ih =>
        intro here walked
        cases step with
        | up => exact ih _ walked
        | name name =>
            rw [walkWith] at walked ⊢
            cases found : fs.node (name :: here) with
            | none =>
                simp only [found] at walked
                exact walked
            | some node =>
                cases node with
                | directory =>
                    simp only [found] at walked
                    exact ih _ walked
                | file data =>
                    simp only [found] at walked
                    exact walked
                | link target =>
                    simp only [found] at walked
                    simp only [Bool.true_eq_false, and_false, if_false]
                    split at walked
                    · cases walked
                      exact absurd found (plain target)
                    · exact links _ _ walked
  have walk_follow : ∀ links here steps, fs.walk false links here steps = .ok location →
      fs.walk true links here steps = .ok location := by
    intro links
    induction links with
    | zero => exact fun here steps => walkWith_follow (fun _ _ failed => by cases failed) steps here
    | succ links ih => exact fun here steps => walkWith_follow ih steps here
  exact walk_follow _ _ _ located

/-- Where a path leads to something, its last component is an entry itself. -/
theorem lexists_of_stat {fs : FileSystem φ} {cwd : Location} {path : PurePath} {node : Node φ}
    (found : fs.stat true cwd path = .ok node) : fs.lexists cwd path = true := by
  have walkWith_entry : ∀ {onLink onLinkLast : Location → List Step → Except OsError Location}
      {location : Location}, fs.node location ≠ none →
      (∀ here steps, onLink here steps = .ok location →
        ∃ last, onLinkLast here steps = .ok last ∧ fs.node last ≠ none) →
      ∀ steps here, fs.walkWith true onLink here steps = .ok location →
        ∃ last, fs.walkWith false onLinkLast here steps = .ok last ∧ fs.node last ≠ none := by
    intro onLink onLinkLast location present links steps
    induction steps with
    | nil =>
        intro here walked
        exact ⟨here, rfl, by rwa [← Except.ok.inj walked] at present⟩
    | cons step rest ih =>
        intro here walked
        cases step with
        | up => exact ih _ walked
        | name name =>
            rw [walkWith] at walked ⊢
            cases entry : fs.node (name :: here) with
            | none =>
                simp only [entry] at walked
                split at walked
                · cases walked
                  exact absurd entry present
                · contradiction
            | some node =>
                cases node with
                | directory =>
                    simp only [entry] at walked
                    exact ih _ walked
                | file data =>
                    simp only [entry] at walked
                    split at walked
                    · rename_i last
                      exact ⟨name :: here, if_pos last, by simp [entry]⟩
                    · contradiction
                | link target =>
                    simp only [entry, Bool.true_eq_false, and_false, if_false] at walked
                    by_cases last : rest = []
                    · exact ⟨name :: here, if_pos ⟨last, rfl⟩, by simp [entry]⟩
                    · obtain ⟨final, reached, there⟩ := links _ _ walked
                      refine ⟨final, ?_, there⟩
                      simp only [last, false_and, if_false]
                      exact reached
  have walk_entry : ∀ links {location : Location}, fs.node location ≠ none →
      ∀ here steps, fs.walk true links here steps = .ok location →
        ∃ last, fs.walk false links here steps = .ok last ∧ fs.node last ≠ none := by
    intro links
    induction links with
    | zero =>
        exact fun present here steps =>
          walkWith_entry present (fun _ _ failed => by cases failed) steps here
    | succ links ih =>
        exact fun present here steps => walkWith_entry present (ih present) steps here
  obtain ⟨location, located, there⟩ := stat_eq_ok_iff.mp found
  obtain ⟨last, reached, present⟩ := walk_entry _ (by simp [there]) _ _ located
  by_contra absent
  rw [Bool.not_eq_true, lexists_eq_false_iff] at absent
  exact present (absent last reached)

/-- A path that leads to nothing has no entry, or its entry is a link. -/
theorem lexists_eq_false_of_unlinked {fs : FileSystem φ} {cwd : Location} {path : PurePath}
    (absent : fs.pathExists cwd path = false)
    (plain : ∀ target, fs.stat false cwd path ≠ .ok (.link target)) :
    fs.lexists cwd path = false := by
  rw [lexists_eq_false_iff]
  intro location located
  by_contra present
  obtain ⟨node, there⟩ := Option.ne_none_iff_exists'.mp present
  have notLink : ∀ target, fs.node location ≠ some (.link target) := by
    intro target same
    exact plain target (stat_eq_ok_iff.mpr ⟨location, located, same⟩)
  have found : fs.stat true cwd path = .ok node :=
    stat_eq_ok_iff.mpr ⟨location, locate_follow located notLink, there⟩
  rw [pathExists, found] at absent
  cases absent

/-! ### Creating a node -/

/-- Only the root. -/
def empty : FileSystem φ where
  node location := if location = [] then some .directory else none
  root := rfl
  parents := by
    intro name location present
    simp at present

/-- A new node under a name that is free in a directory. -/
def create (fs : FileSystem φ) (name : Name) (parent : Location) (node : Node φ)
    (inside : fs.node parent = some .directory) (free : fs.node (name :: parent) = none) :
    FileSystem φ where
  node := Function.update fs.node (name :: parent) (some node)
  root := by
    rw [Function.update_of_ne (by simp)]
    exact fs.root
  parents := by
    intro inner location present
    have kept : fs.node location = some .directory := by
      by_cases here : inner :: location = name :: parent
      · cases here
        exact inside
      · rw [Function.update_of_ne here] at present
        exact fs.parents inner location present
    have elsewhere : location ≠ name :: parent := by
      rintro rfl
      rw [free] at kept
      contradiction
    rw [Function.update_of_ne elsewhere]
    exact kept

/-- A new node at a location, as `mkdir`, `symlink` and an exclusive `open` make it. -/
def createAt (fs : FileSystem φ) (node : Node φ) : Location → Except OsError (FileSystem φ)
  | [] => .error .fileExists
  | name :: parent =>
      match inside : fs.node parent, free : fs.node (name :: parent) with
      | some .directory, none => .ok (fs.create name parent node inside free)
      | some .directory, some _ => .error .fileExists
      | some _, _ => .error .notDirectory
      | none, _ => .error .noEntry

theorem createAt_eq_ok {fs after : FileSystem φ} {node : Node φ} {location : Location}
    (created : fs.createAt node location = .ok after) :
    fs.node location = none ∧ after.node = Function.update fs.node location (some node) := by
  cases location with
  | nil => contradiction
  | cons name parent =>
      rw [createAt] at created
      split at created
      · rename_i inside free
        cases created
        exact ⟨free, rfl⟩
      all_goals contradiction

theorem createAt_extends {fs after : FileSystem φ} {node : Node φ} {location : Location}
    (created : fs.createAt node location = .ok after) : fs.Extends after := by
  obtain ⟨free, same⟩ := createAt_eq_ok created
  intro other kept found
  have elsewhere : other ≠ location := by
    rintro rfl
    rw [free] at found
    contradiction
  rw [same, Function.update_of_ne elsewhere, found]

/-- No node is made where one lies. -/
theorem createAt_taken {fs : FileSystem φ} {node : Node φ} {name : Name} {parent : Location}
    (present : fs.node (name :: parent) ≠ none) :
    fs.createAt node (name :: parent) = .error .fileExists := by
  have inside := fs.parents name parent present
  rw [createAt]
  split
  · rename_i free
    exact absurd free present
  · rfl
  · rename_i other there _ notDirectory
    rw [inside] at there
    obtain ⟨here, found⟩ := Option.ne_none_iff_exists'.mp present
    exact (notDirectory here found (Option.some.inj there).symm).elim
  · rename_i absent
    rw [inside] at absent
    cases absent

theorem createAt_free {fs : FileSystem φ} {node : Node φ} {name : Name} {parent : Location}
    (inside : fs.node parent = some .directory) (free : fs.node (name :: parent) = none) :
    fs.createAt node (name :: parent) = .ok (fs.create name parent node inside free) := by
  rw [createAt]
  split <;> simp_all

/-- Make a node where a path leads, which must be free. -/
def makeNode (fs : FileSystem φ) (node : Node φ) (cwd : Location) (path : PurePath) :
    Except OsError (FileSystem φ × Location) :=
  match fs.locate false cwd path with
  | .error error => .error error
  | .ok location =>
      match fs.createAt node location with
      | .error error => .error error
      | .ok after => .ok (after, location)

theorem makeNode_eq_ok {fs after : FileSystem φ} {node : Node φ} {cwd location : Location}
    {path : PurePath} (made : fs.makeNode node cwd path = .ok (after, location)) :
    fs.locate false cwd path = .ok location ∧ fs.createAt node location = .ok after := by
  unfold makeNode at made
  split at made
  · contradiction
  · rename_i found located
    split at made
    · contradiction
    · rename_i result created
      cases made
      exact ⟨located, created⟩

end FileSystem

end DashTwrp.Unix
