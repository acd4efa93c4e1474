import Mathlib.Algebra.Order.Field.Basic
import Mathlib.Data.Rat.Cast.OfScientific
import Mathlib.Tactic.Linarith
import Mathlib.Tactic.NormNum.OfScientific
import Mathlib.Tactic.Ring

/-!
# Bisection

Halving an interval towards the side where the number that is looked for lies, until the interval
is narrow enough or the steps are used up.
-/

namespace BookAgent.Lib

variable {K : Type} [Field K] [LinearOrder K]

/-- Halfway between two numbers. -/
def middle (lo hi : K) : K := 0.5 * (lo + hi)

/-- `above x` says that the search goes on above `x`. -/
def bisect (above : K → Bool) (narrow : K → K → Bool) : Nat → K → K → K × K
  | 0, lo, hi => (lo, hi)
  | n + 1, lo, hi =>
    if narrow lo hi then (lo, hi)
    else
      let mid := middle lo hi
      if above mid then bisect above narrow n mid hi else bisect above narrow n lo mid

/-- What a bisection leaves of an interval. -/
structure Bisected (above : K → Bool) (narrow : K → K → Bool) (steps : Nat) (lo hi : K)
    (found : K × K) : Prop where
  lo_le : lo ≤ found.1
  le : found.1 ≤ found.2
  le_hi : found.2 ≤ hi
  /-- It is narrow, or each step has halved it. -/
  width : narrow found.1 found.2 = true ∨ (found.2 - found.1) * 2 ^ steps = hi - lo
  above_lo : found.1 = lo ∨ above found.1 = true
  below_hi : found.2 = hi ∨ above found.2 = false

variable [IsStrictOrderedRing K]

theorem middle_eq (lo hi : K) : middle lo hi = (lo + hi) / 2 := by
  unfold middle
  norm_num
  ring

/-- Halfway is between. -/
theorem middle_mem {lo hi : K} (h : lo ≤ hi) : lo ≤ middle lo hi ∧ middle lo hi ≤ hi := by
  rw [middle_eq]
  constructor <;> linarith

theorem bisect_bisected (above : K → Bool) (narrow : K → K → Bool) (steps : Nat) {lo hi : K}
    (h : lo ≤ hi) : Bisected above narrow steps lo hi (bisect above narrow steps lo hi) := by
  induction steps generalizing lo hi with
  | zero => exact ⟨le_rfl, h, le_rfl, .inr (by rw [pow_zero, mul_one]; rfl), .inl rfl, .inl rfl⟩
  | succ n ih =>
    rw [bisect]
    split
    · rename_i hnarrow
      exact ⟨le_rfl, h, le_rfl, .inl hnarrow, .inl rfl, .inl rfl⟩
    · dsimp only
      obtain ⟨hlo, hhi⟩ := middle_mem h
      split
      · rename_i habove
        have rest := ih hhi
        refine ⟨hlo.trans rest.lo_le, rest.le, rest.le_hi, rest.width.imp_right fun hw => ?_,
          .inr ?_, rest.below_hi⟩
        · rw [pow_succ, ← mul_assoc, hw, middle_eq]
          ring
        · rcases rest.above_lo with heq | hlow
          · rw [heq]
            exact habove
          · exact hlow
      · rename_i hbelow
        have rest := ih hlo
        refine ⟨rest.lo_le, rest.le, rest.le_hi.trans hhi, rest.width.imp_right fun hw => ?_,
          rest.above_lo, .inr ?_⟩
        · rw [pow_succ, ← mul_assoc, hw, middle_eq]
          ring
        · rcases rest.below_hi with heq | hhigh
          · rw [heq]
            exact Bool.not_eq_true _ ▸ hbelow
          · exact hhigh

/-- The middle of an interval is near to everything in it. -/
theorem abs_mid_sub_le {lo hi r : K} (hlo : lo ≤ r) (hhi : r ≤ hi) :
    |middle lo hi - r| ≤ (hi - lo) / 2 := by
  rw [middle_eq, abs_le]
  constructor <;> linarith

end BookAgent.Lib
