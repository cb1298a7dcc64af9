import DashTwrp.Python.Paths
import DashTwrp.Python.Words

namespace DashTwrp.Python

open DashTwrp.Unix

/-! Paths read from texts and written to them. -/

/-- What a directory entry can be called. -/
structure ValidName (name : Name) : Prop where
  nonempty : name ≠ ""
  notHere : name ≠ "."
  notUp : name ≠ ".."
  noSeparator : '/' ∉ name.toList

/-- The component that a part of a path's text stands for. -/
def stepOf (part : List Char) : Option Step :=
  if part = [] ∨ part = ['.'] then none
  else if part = ['.', '.'] then some .up
  else some (.name (String.ofList part))

/-- `PurePosixPath(text)` for a text that does not begin with a separator. -/
def relativePath (text : List Char) : PurePath :=
  { absolute := false, steps := (text.splitOn '/').filterMap stepOf }

/-- `path.as_posix()` of a path of names, the outermost name first. -/
def posixText (names : List Name) : List Char := ['/'].intercalate (names.map String.toList)

theorem stepOf_name {name : Name} (valid : ValidName name) :
    stepOf name.toList = some (.name name) := by
  have nonempty : name.toList ≠ [] := fun same =>
    valid.nonempty (String.toList_inj.mp (same.trans (by simp)))
  have notHere : name.toList ≠ ['.'] := fun same =>
    valid.notHere (String.toList_inj.mp (same.trans (by simp)))
  have notUp : name.toList ≠ ['.', '.'] := fun same =>
    valid.notUp (String.toList_inj.mp (same.trans (by simp)))
  simp [stepOf, nonempty, notHere, notUp]

theorem splitOn_posixText {names : List Name} (nonempty : names ≠ [])
    (valid : ∀ name ∈ names, ValidName name) :
    (posixText names).splitOn '/' = names.map String.toList := by
  induction names with
  | nil => exact absurd rfl nonempty
  | cons name rest ih =>
      have noSeparator : ∀ character ∈ name.toList, (character == '/') = false := by
        intro character member
        rw [beq_eq_false_iff_ne]
        rintro rfl
        exact (valid name (by simp)).noSeparator member
      cases rest with
      | nil =>
          rw [posixText, List.map_singleton, List.intercalate_singleton, List.splitOn_eq_splitOnP,
            List.splitOnP_eq_singleton noSeparator]
      | cons next rest =>
          have later := ih (by simp) fun other member => valid other (by simp [member])
          rw [posixText, List.map_cons, List.map_cons, List.intercalate_cons_cons,
            List.append_assoc, List.singleton_append, List.splitOn_eq_splitOnP,
            List.splitOnP_append_cons_of_forall_mem noSeparator _ (by rfl)]
          exact congrArg _ later

/-- A path of names is read back from its text. -/
theorem relativePath_posixText {names : List Name} (nonempty : names ≠ [])
    (valid : ∀ name ∈ names, ValidName name) :
    relativePath (posixText names) = { absolute := false, steps := names.map .name } := by
  have steps : (names.map String.toList).filterMap stepOf = names.map .name := by
    clear nonempty
    induction names with
    | nil => rfl
    | cons name rest ih =>
        rw [List.map_cons, List.filterMap_cons_some (stepOf_name (valid name (by simp))),
          ih fun other member => valid other (by simp [member]), List.map_cons]
  rw [relativePath, splitOn_posixText nonempty valid, steps]

end DashTwrp.Python
