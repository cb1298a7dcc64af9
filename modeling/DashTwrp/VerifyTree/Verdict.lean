import Mathlib.Data.List.Basic

namespace DashTwrp.VerifyTree

/-! The checks of the tree verifier and the verdict over them.

A check's `detail` is left out: it is printed and nothing reads it. -/

structure Check where
  name : String
  passed : Bool
deriving DecidableEq, Repr

/-- `all(check["passed"] for check in checks)` -/
def allPassed (checks : List Check) : Bool := checks.all Check.passed

/-- The `status` of the report. -/
def status (checks : List Check) : String :=
  if allPassed checks then "TREE_STATIC_VALID" else "TREE_STATIC_INVALID"

/-- What `main` returns. -/
def exitCode (checks : List Check) : Nat := if allPassed checks then 0 else 1

@[simp] theorem allPassed_nil : allPassed [] = true := rfl

@[simp] theorem allPassed_cons (check : Check) (checks : List Check) :
    allPassed (check :: checks) = true ↔ check.passed = true ∧ allPassed checks = true := by
  simp [allPassed]

@[simp] theorem allPassed_append (first second : List Check) :
    allPassed (first ++ second) = true ↔ allPassed first = true ∧ allPassed second = true := by
  simp [allPassed]

theorem allPassed_iff {checks : List Check} :
    allPassed checks = true ↔ ∀ check ∈ checks, check.passed = true := by
  simp [allPassed]

end DashTwrp.VerifyTree
