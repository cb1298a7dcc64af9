import DashTwrp.Unix.FileSystem

namespace DashTwrp.Python

open DashTwrp.Unix

/-! `pathlib` paths. -/

def stepText : Step → String
  | .up => ".."
  | .name name => name

/-- `str(path)` -/
def pathText (path : PurePath) : String :=
  let parts := String.intercalate "/" (path.steps.map stepText)
  if path.absolute then "/" ++ parts
  else if path.steps = [] then "."
  else parts

/-- `path.parent` -/
def parent (path : PurePath) : PurePath := { path with steps := path.steps.dropLast }

/-- `os.path.sep in str(path)` -/
def hasSeparator (path : PurePath) : Bool := path.absolute || 1 < path.steps.length

section

variable {φ : Type} (fs : FileSystem φ)

/-- Components that are no links are kept, also where nothing lies. -/
def realpathWith (onLink : Location → List Step → Option Location) :
    Location → List Step → Option Location
  | here, [] => some here
  | here, .up :: rest => realpathWith onLink here.tail rest
  | here, .name name :: rest =>
      match fs.node (name :: here) with
      | some (.link target) => onLink (if target.absolute then [] else here) (target.steps ++ rest)
      | _ => realpathWith onLink (name :: here) rest

def realpathFrom : Nat → Location → List Step → Option Location
  | 0 => realpathWith fs fun _ _ => none
  | links + 1 => realpathWith fs (realpathFrom links)

/-- `path.resolve()`, where `none` is a symlink loop.  The resolution goes through
at most `links` links: as many as the tree has are enough for every path without
a loop. -/
def resolve (links : Nat) (cwd : Location) (path : PurePath) : Option Location :=
  realpathFrom fs links (if path.absolute then [] else cwd) path.steps

variable {fs} {other : FileSystem φ}

/-- Resolving a path depends on the links alone. -/
theorem resolve_congr (sameLinks : ∀ location target,
      fs.node location = some (.link target) ↔ other.node location = some (.link target))
    (links : Nat) (cwd : Location) (path : PurePath) :
    resolve fs links cwd path = resolve other links cwd path := by
  have with_congr : ∀ onLink here steps,
      realpathWith fs onLink here steps = realpathWith other onLink here steps := by
    intro onLink here steps
    induction steps generalizing here with
    | nil => rfl
    | cons step rest ih =>
        cases step with
        | up => exact ih here.tail
        | name name =>
            by_cases isLink : ∃ target, fs.node (name :: here) = some (.link target)
            · obtain ⟨target, found⟩ := isLink
              simp only [realpathWith, found, (sameLinks _ _).mp found]
            · have notLink : ∀ target, fs.node (name :: here) ≠ some (.link target) :=
                fun target found => isLink ⟨target, found⟩
              rw [realpathWith, realpathWith]
              split
              · rename_i target found
                exact absurd found (notLink target)
              · split
                · rename_i target found
                  exact absurd ((sameLinks _ _).mpr found) (notLink target)
                · exact ih _
  have from_congr : ∀ links, realpathFrom fs links = realpathFrom other links := by
    intro links
    induction links with
    | zero => exact funext fun here => funext fun steps => with_congr _ here steps
    | succ links ih =>
        rw [realpathFrom, realpathFrom, ih]
        exact funext fun here => funext fun steps => with_congr _ here steps
  unfold resolve
  rw [from_congr links]

end

/-- The text of a resolved path. -/
def locationText (location : Location) : String :=
  "/" ++ String.intercalate "/" location.reverse

end DashTwrp.Python
