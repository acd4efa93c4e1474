import Mathlib.Data.Rat.Cast.Order
import Mathlib.Topology.Order.IntermediateValue
import Mathlib.Topology.Algebra.Field
import Mathlib.Topology.Instances.Real.Lemmas
import Mathlib.Tactic.Positivity
import BookAgent.AgentLogic.PoolImpact
import BookAgent.Lib.Bisection

/-!
# Solving for the base amount

`solve_base_for_quote` of `pool_impact.rs`: the base amount that comes to a quote amount at a price
that depends on it, by bisection. The numbers it computes with are rational; a solution need not
be, so it is one of the same price read over the reals.
-/

namespace BookAgent.AgentLogic

open BookAgent.Lib

section Solve

variable {K : Type} [Field K] [LinearOrder K]

/-- The search is over when the bracket is this narrow. -/
def narrowEnough (lo hi : K) : Bool := decide (hi - lo ≤ 1e-12 * hi)

/-- `b * price_at(b) = quote_quantity` by bisection between the quote amount over the two bounds. -/
def solveBaseForQuote (quoteQuantity priceFloor priceCeil : K) (priceAt : K → K) : Option K :=
  if ¬ 0 < quoteQuantity then none
  else if ¬ (0 < priceFloor ∧ priceFloor ≤ priceCeil) then none
  else
    let found := bisect (fun mid => decide (mid * priceAt mid - quoteQuantity ≤ 0)) narrowEnough 64
      (quoteQuantity / priceCeil) (quoteQuantity / priceFloor)
    some (middle found.1 found.2)

/-- How far the middle may be from a solution. -/
def solveTolerance (lo hi : K) : K := max (1e-12 * hi) (0.5 ^ 64 * (hi - lo))

variable [IsStrictOrderedRing K] {quoteQuantity priceFloor priceCeil b lo hi : K}
  {priceAt : K → K} {found : K × K}

/-- What is solved for is the middle of what the bisection leaves of the bracket. -/
theorem of_solveBaseForQuote
    (h : solveBaseForQuote quoteQuantity priceFloor priceCeil priceAt = some b) :
    0 < quoteQuantity ∧ 0 < priceFloor ∧ priceFloor ≤ priceCeil ∧
      ∃ found : K × K, b = middle found.1 found.2 ∧
        Bisected (fun mid => decide (mid * priceAt mid - quoteQuantity ≤ 0)) narrowEnough 64
          (quoteQuantity / priceCeil) (quoteQuantity / priceFloor) found := by
  unfold solveBaseForQuote at h
  split at h
  · cases h
  · rename_i hquote
    split at h
    · cases h
    · rename_i hbounds
      rw [not_not] at hquote hbounds
      obtain ⟨hfloor, hceil⟩ := hbounds
      exact ⟨hquote, hfloor, hceil, _, (Option.some.inj h).symm,
        bisect_bisected _ _ 64 (div_le_div_of_nonneg_left hquote.le hfloor hceil)⟩

/-- Half of what is left is within the tolerance. -/
theorem half_le_tolerance {above : K → Bool}
    (bisected : Bisected above narrowEnough 64 lo hi found) :
    (found.2 - found.1) / 2 ≤ solveTolerance lo hi := by
  have hle := bisected.le
  have hhi := bisected.le_hi
  unfold solveTolerance
  rcases bisected.width with hnarrow | hhalved
  · refine le_max_of_le_left ?_
    have hnarrow : found.2 - found.1 ≤ 1e-12 * found.2 := of_decide_eq_true hnarrow
    norm_num at hnarrow ⊢
    linarith
  · refine le_max_of_le_right ?_
    rw [← hhalved]
    norm_num
    linarith

end Solve

section Near

variable {quoteQuantity lo hi : ℚ} {found : ℚ × ℚ} {priceAt : ℚ → ℚ} {cost : ℝ → ℝ}

/-- Where the cost is continuous, and too low at one end and enough at the other, it is exact in
between. -/
theorem exists_exact (hlo : 0 < lo) (hle : lo ≤ hi)
    (hcont : ContinuousOn cost (Set.Ioi 0)) (hlow : cost lo ≤ quoteQuantity)
    (hhigh : quoteQuantity ≤ cost hi) :
    ∃ r : ℝ, lo ≤ r ∧ r ≤ hi ∧ cost r = quoteQuantity := by
  have hle' : (lo : ℝ) ≤ hi := Rat.cast_le.mpr hle
  have hpos : (0 : ℝ) < lo := Rat.cast_pos.mpr hlo
  have hsub : Set.Icc (lo : ℝ) hi ⊆ Set.Ioi 0 := fun x hx => hpos.trans_le hx.1
  obtain ⟨r, hr, heq⟩ := intermediate_value_Icc hle' (hcont.mono hsub) ⟨hlow, hhigh⟩
  exact ⟨r, hr.1, hr.2, heq⟩

/-- If the bracket has one end on each side, the middle of what is left of it is near to an exact
solution. -/
theorem near_of_bisected (hlo : 0 < lo)
    (bisected : Bisected (fun mid => decide (mid * priceAt mid - quoteQuantity ≤ 0)) narrowEnough 64
      lo hi found)
    (hcost : ∀ x : ℚ, cost x = ((x * priceAt x : ℚ) : ℝ)) (hcont : ContinuousOn cost (Set.Ioi 0))
    (hlow : cost lo ≤ quoteQuantity) (hhigh : (quoteQuantity : ℝ) ≤ cost hi) :
    ∃ r : ℝ, (lo : ℝ) ≤ r ∧ r ≤ hi ∧ cost r = quoteQuantity ∧
      |((middle found.1 found.2 : ℚ) : ℝ) - r| ≤ (solveTolerance lo hi : ℚ) := by
  -- the cost at the ends of what is left is on the sides that the search has kept
  have hlow' : cost found.1 ≤ quoteQuantity := by
    rcases bisected.above_lo with heq | habove
    · rw [heq]
      exact hlow
    · rw [hcost]
      exact Rat.cast_le.mpr (sub_nonpos.mp (of_decide_eq_true habove))
  have hhigh' : (quoteQuantity : ℝ) ≤ cost found.2 := by
    rcases bisected.below_hi with heq | hbelow
    · rw [heq]
      exact hhigh
    · rw [hcost]
      exact Rat.cast_le.mpr (sub_nonneg.mp (not_le.mp (of_decide_eq_false hbelow)).le)
  obtain ⟨r, hr, hr', heq⟩ :=
    exists_exact (hlo.trans_le bisected.lo_le) bisected.le hcont hlow' hhigh'
  refine ⟨r, (Rat.cast_le.mpr bisected.lo_le).trans hr, hr'.trans (Rat.cast_le.mpr bisected.le_hi),
    heq, ?_⟩
  have hhalf := (Rat.cast_le (K := ℝ)).mpr (half_le_tolerance bisected)
  have hmiddle : ((middle found.1 found.2 : ℚ) : ℝ) = middle (found.1 : ℝ) found.2 := by
    rw [middle_eq, middle_eq]
    push_cast
    rfl
  rw [hmiddle]
  push_cast at hhalf
  exact (abs_mid_sub_le hr hr').trans hhalf

end Near

end BookAgent.AgentLogic
