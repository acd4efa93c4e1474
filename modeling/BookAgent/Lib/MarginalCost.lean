import Mathlib.Algebra.BigOperators.Group.List.Basic
import Mathlib.Algebra.Order.Group.Defs
import Mathlib.Tactic.Abel

/-!
# Marginal cost

A position is moved in steps, and each step pays what a cumulative cost rises by. The steps
pay together what the whole move pays, however it is cut.
-/

namespace BookAgent.Lib

variable {K : Type} [AddCommGroup K]

/-- What each step from `x` on pays. -/
def stepCosts (cost : K → K) : K → List K → List K
  | _, [] => []
  | x, q :: qs => (cost (x + q) - cost x) :: stepCosts cost (x + q) qs

/-- **The steps pay the rise of the whole.** -/
theorem sum_stepCosts (cost : K → K) (x : K) (qs : List K) :
    (stepCosts cost x qs).sum = cost (x + qs.sum) - cost x := by
  induction qs generalizing x with
  | nil => rw [stepCosts, List.sum_nil, add_zero, sub_self]
  | cons q qs ih =>
    rw [stepCosts, List.sum_cons, ih, List.sum_cons, ← add_assoc]
    abel

end BookAgent.Lib
