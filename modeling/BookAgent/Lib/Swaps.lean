import Mathlib.Algebra.BigOperators.Group.List.Basic
import Mathlib.Algebra.Order.Group.Int
import Mathlib.Algebra.Ring.Int.Defs
import Mathlib.Data.Nat.Cast.Basic

/-!
# Swapping old items for new ones

Old items are taken away and new ones put in, one for one, and whatever is left of either
kind follows. At any point of this the number of items stays between the two numbers, but
for the one that is out.
-/

namespace BookAgent.Lib

/-- What each step does to the number of items. -/
def swaps : (old new : Nat) → List Int
  | 0, new => List.replicate new 1
  | old + 1, 0 => List.replicate (old + 1) (-1)
  | old + 1, new + 1 => -1 :: 1 :: swaps old new

theorem swaps_zero (old : Nat) : swaps old 0 = List.replicate old (-1) := by
  cases old with
  | zero => rfl
  | succ old => rfl

theorem swaps_succ (old new : Nat) :
    swaps old (new + 1) = List.replicate (min old 1) (-1) ++ 1 :: swaps (old - 1) new := by
  cases old with
  | zero => rfl
  | succ old =>
    rw [Nat.min_eq_right (Nat.le_add_left 1 old)]
    rfl

/-- The steps so far of a run of equal ones. -/
theorem sum_prefix_replicate {n : Nat} {step : Int} {before : List Int}
    (h : before <+: List.replicate n step) :
    before.length ≤ n ∧ before.sum = before.length * step := by
  refine ⟨h.length_le.trans_eq List.length_replicate, ?_⟩
  obtain ⟨m, -, rfl⟩ := List.sublist_replicate_iff.mp h.sublist
  rw [List.sum_replicate, List.length_replicate, nsmul_eq_mul]

/-- **At any point the number of items is between the two, but for one.** -/
theorem swaps_bounds {old new : Nat} {before : List Int} (h : before <+: swaps old new) :
    (min old new : Int) - 1 ≤ old + before.sum ∧ old + before.sum ≤ max old new := by
  induction old generalizing new before with
  | zero =>
    obtain ⟨hlen, hsum⟩ := sum_prefix_replicate h
    omega
  | succ old ih =>
    cases new with
    | zero =>
      obtain ⟨hlen, hsum⟩ := sum_prefix_replicate h
      omega
    | succ new =>
      -- one item out, one item in
      match before with
      | [] =>
        rw [List.sum_nil]
        omega
      | [step] =>
        obtain ⟨rfl, -⟩ := List.cons_prefix_cons.mp h
        rw [List.sum_singleton]
        omega
      | out :: back :: before =>
        obtain ⟨rfl, hback⟩ := List.cons_prefix_cons.mp h
        obtain ⟨rfl, hrest⟩ := List.cons_prefix_cons.mp hback
        have hbounds := ih hrest
        rw [List.sum_cons, List.sum_cons]
        omega

end BookAgent.Lib
