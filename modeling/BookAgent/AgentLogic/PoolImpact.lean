import Mathlib.Algebra.Order.BigOperators.Group.List
import Mathlib.Algebra.Order.Field.Basic
import Mathlib.Tactic.Linarith
import Mathlib.Tactic.NormNum
import BookAgent.Lib.MarginalCost

/-!
# The size-aware price adjustment

`pool_impact.rs`: a trade pays, as a percentage of its size, what the cost of moving the
counterparty's trailing net through a pool rises by. Arithmetic is exact, and a float is its
number when it is finite. Unless the cap binds, what a total pays does not depend on how it
is split.
-/

namespace BookAgent.AgentLogic

open BookAgent.Lib

variable {K : Type} [Field K] [LinearOrder K]

/-- A float: its number, `none` when it is infinite or not a number. -/
abbrev F64 (K : Type) := Option K

/-! ## Clamping -/

section Clamp

variable {L : Type} [LinearOrder L] {x y lo hi : L}

/-- `clamp(lo, hi)` -/
def clamp (x lo hi : L) : L := max lo (min x hi)

theorem clamp_mem (h : lo ≤ hi) : lo ≤ clamp x lo hi ∧ clamp x lo hi ≤ hi :=
  ⟨le_max_left _ _, max_le h (min_le_right _ _)⟩

theorem clamp_mono (h : x ≤ y) : clamp x lo hi ≤ clamp y lo hi :=
  max_le_max le_rfl (min_le_min h le_rfl)

theorem clamp_eq (hlo : lo ≤ x) (hhi : x ≤ hi) : clamp x lo hi = x := by
  unfold clamp
  rw [min_eq_left hhi, max_eq_right hlo]

end Clamp

/-! ## Configuration -/

/-- The reference size of a market, in its base token. -/
structure PoolDepth (K : Type) where
  baseReserve : F64 K
  deriving DecidableEq

/-- The knobs of a market. -/
structure PoolImpactConfig (K : Type) where
  maxImpactPercent : F64 K
  maxPoolFraction : F64 K
  impactMultiplier : F64 K
  freeZoneBase : F64 K
  deriving DecidableEq

/-- Which side the user is on. -/
inductive ImpactSide
  | userBuys
  | userSells
  deriving DecidableEq

namespace ImpactSide

/-- The position that the side drives up. -/
def exposure (side : ImpactSide) (net : K) : K :=
  match side with
  | userBuys => net
  | userSells => -net

/-- The signed net once a trade is executed. -/
def trade (side : ImpactSide) (net quantity : K) : K :=
  match side with
  | userBuys => net + quantity
  | userSells => net - quantity

end ImpactSide

/-- Raised to zero, zero when it is not finite. -/
def nonNegative : F64 K → K
  | some x => max x 0
  | none => 0

theorem nonNegative_nonneg (x : F64 K) : 0 ≤ nonNegative x := by
  cases x with
  | none => exact le_rfl
  | some x => exact le_max_right x 0

/-- The part of the pool that can be charged for, strictly below one. -/
def poolFraction : F64 K → K
  | some x => clamp x 0 (99 / 100)
  | none => 99 / 100

/-! ## The charge -/

/-- The knobs once clamped. -/
structure ImpactCurve (K : Type) [Field K] [LinearOrder K] where
  side : ImpactSide
  reserve : K
  freeZone : K
  frac : K
  mult : K
  cap : K
  reserve_pos : 0 < reserve
  frac_nonneg : 0 ≤ frac
  frac_le : frac ≤ 99 / 100
  mult_nonneg : 0 ≤ mult
  cap_nonneg : 0 ≤ cap

namespace ImpactCurve

variable (c : ImpactCurve K)

/-- The position past the free zone. -/
def charged (net : K) : K := max (c.side.exposure net - c.freeZone) 0

/-- The markup of the average execution, in percent, for moving `x` through the pool. -/
def markup (x : K) : K :=
  let u := clamp (x / c.reserve) 0 c.frac
  match c.side with
  | .userBuys => 100 * u / (1 - u)
  | .userSells => 100 * u / (1 + u)

/-- The total cost of moving `x` through the pool. -/
def cost (x : K) : K := x * c.markup x

/-- The rise of the cost spread over the trade, before the cap. -/
def uncapped (q net : K) : K :=
  max ((c.cost (c.charged (c.side.trade net q)) - c.cost (c.charged net)) / q) 0 * c.mult

def percent (q net : K) : K := if q ≤ 0 then 0 else clamp (c.uncapped q net) 0 c.cap

end ImpactCurve

section Charge

variable [IsStrictOrderedRing K]

theorem poolFraction_mem (x : F64 K) : 0 ≤ poolFraction x ∧ poolFraction x ≤ 99 / 100 := by
  have hpos : (0 : K) ≤ 99 / 100 := by norm_num
  cases x with
  | none => exact ⟨hpos, le_rfl⟩
  | some x => exact clamp_mem hpos

/-- The curve for a reserve and knobs. -/
def ImpactCurve.ofKnobs (side : ImpactSide) {reserve : K} (hreserve : 0 < reserve)
    (freeZoneBase maxPoolFraction impactMultiplier maxImpactPercent : F64 K) : ImpactCurve K where
  side
  reserve
  freeZone := nonNegative freeZoneBase
  frac := poolFraction maxPoolFraction
  mult := nonNegative impactMultiplier
  cap := nonNegative maxImpactPercent
  reserve_pos := hreserve
  frac_nonneg := (poolFraction_mem _).1
  frac_le := (poolFraction_mem _).2
  mult_nonneg := nonNegative_nonneg _
  cap_nonneg := nonNegative_nonneg _

/-- The adjustment for a trade at a trailing net, in percent; none without a reserve. -/
def marginalImpactPercent (side : ImpactSide) (quantityBase signedNet baseReserve freeZoneBase
    maxPoolFraction impactMultiplier maxImpactPercent : F64 K) : K :=
  match baseReserve with
  | none => 0
  | some reserve =>
    if h : 0 < reserve then
      (ImpactCurve.ofKnobs side h freeZoneBase maxPoolFraction impactMultiplier
        maxImpactPercent).percent (nonNegative quantityBase) (signedNet.getD 0)
    else 0

/-- The same with a market's knobs and depth. -/
def poolImpactPercent (side : ImpactSide) (quantityBase signedNet : F64 K) (depth : PoolDepth K)
    (cfg : PoolImpactConfig K) : K :=
  marginalImpactPercent side quantityBase signedNet depth.baseReserve cfg.freeZoneBase
    cfg.maxPoolFraction cfg.impactMultiplier cfg.maxImpactPercent

/-! ## The cost rises with the position -/

namespace ImpactCurve

variable (c : ImpactCurve K)

theorem markup_nonneg (x : K) : 0 ≤ c.markup x := by
  obtain ⟨hlo, hhi⟩ := clamp_mem (x := x / c.reserve) c.frac_nonneg
  have hfrac := c.frac_le
  unfold markup
  dsimp only
  split
  · exact div_nonneg (by linarith) (by linarith)
  · exact div_nonneg (by linarith) (by linarith)

theorem markup_mono {x y : K} (h : x ≤ y) : c.markup x ≤ c.markup y := by
  have hle : clamp (x / c.reserve) 0 c.frac ≤ clamp (y / c.reserve) 0 c.frac :=
    clamp_mono (div_le_div_of_nonneg_right h c.reserve_pos.le)
  obtain ⟨hxlo, hxhi⟩ := clamp_mem (x := x / c.reserve) c.frac_nonneg
  obtain ⟨hylo, hyhi⟩ := clamp_mem (x := y / c.reserve) c.frac_nonneg
  have hfrac := c.frac_le
  unfold markup
  dsimp only
  -- both curves are quotients of positive numbers
  split
  · rw [div_le_div_iff₀ (by linarith) (by linarith)]
    nlinarith
  · rw [div_le_div_iff₀ (by linarith) (by linarith)]
    nlinarith

theorem cost_mono {x y : K} (hx : 0 ≤ x) (h : x ≤ y) : c.cost x ≤ c.cost y :=
  mul_le_mul h (c.markup_mono h) (c.markup_nonneg x) (hx.trans h)

omit [IsStrictOrderedRing K] in
theorem exposure_trade (net q : K) :
    c.side.exposure (c.side.trade net q) = c.side.exposure net + q := by
  unfold ImpactSide.exposure ImpactSide.trade
  cases c.side with
  | userBuys => rfl
  | userSells => exact (neg_sub net q).trans (sub_eq_neg_add q net)

/-! ## The charge of a trade -/

/-- What reaching an exposure costs in all. -/
def total (x : K) : K := c.cost (max (x - c.freeZone) 0) * c.mult

/-- Before the cap, a trade pays what the total rises by. -/
theorem uncapped_mul {q : K} (hq : 0 < q) (net : K) :
    c.uncapped q net * q =
      c.total (c.side.exposure net + q) - c.total (c.side.exposure net) := by
  have hrise : c.cost (c.charged net) ≤ c.cost (c.charged (c.side.trade net q)) := by
    refine c.cost_mono (le_max_right _ _) (max_le_max (sub_le_sub_right ?_ _) le_rfl)
    rw [c.exposure_trade]
    exact le_add_of_nonneg_right hq.le
  unfold uncapped total
  rw [max_eq_left (div_nonneg (sub_nonneg.mpr hrise) hq.le), ← c.exposure_trade, ← sub_mul,
    mul_right_comm, div_mul_cancel₀ _ hq.ne']
  rfl

theorem uncapped_nonneg (q net : K) : 0 ≤ c.uncapped q net :=
  mul_nonneg (le_max_right _ _) c.mult_nonneg

theorem percent_eq {q net : K} (hq : 0 < q) (hcap : c.uncapped q net ≤ c.cap) :
    c.percent q net = c.uncapped q net := by
  unfold percent
  rw [if_neg hq.not_ge, clamp_eq (c.uncapped_nonneg q net) hcap]

/-! ## The charge of a total, split into parts -/

/-- What the parts pay, executed one after another. -/
def paid : K → List K → K
  | _, [] => 0
  | net, q :: qs => c.percent q net * q + paid (c.side.trade net q) qs

/-- The cap binds for none of the parts. -/
def Uncapped : K → List K → Prop
  | _, [] => True
  | net, q :: qs => c.uncapped q net ≤ c.cap ∧ Uncapped (c.side.trade net q) qs

theorem paid_eq_sum {net : K} {qs : List K} (hpos : ∀ q ∈ qs, 0 < q) (hcap : c.Uncapped net qs) :
    c.paid net qs = (stepCosts c.total (c.side.exposure net) qs).sum := by
  induction qs generalizing net with
  | nil => rfl
  | cons q qs ih =>
    have hq := hpos q List.mem_cons_self
    rw [paid, c.percent_eq hq hcap.1, c.uncapped_mul hq,
      ih (fun p hp => hpos p (List.mem_cons_of_mem _ hp)) hcap.2, c.exposure_trade, stepCosts,
      List.sum_cons]

/-- The parts pay at most the cap on each unit, so it does not bind for the whole. -/
theorem paid_le {net : K} {qs : List K} (hpos : ∀ q ∈ qs, 0 < q) :
    c.paid net qs ≤ c.cap * qs.sum := by
  induction qs generalizing net with
  | nil => rw [paid, List.sum_nil, mul_zero]
  | cons q qs ih =>
    have hq := hpos q List.mem_cons_self
    have hhead : c.percent q net ≤ c.cap := by
      unfold percent
      rw [if_neg hq.not_ge]
      exact (clamp_mem c.cap_nonneg).2
    rw [paid, List.sum_cons, mul_add]
    exact add_le_add (mul_le_mul_of_nonneg_right hhead hq.le)
      (ih fun p hp => hpos p (List.mem_cons_of_mem _ hp))

/-- **A total pays the same however it is split.** -/
theorem paid_eq_whole {net : K} {qs : List K} (hpos : ∀ q ∈ qs, 0 < q) (hcap : c.Uncapped net qs) :
    c.paid net qs = c.percent qs.sum net * qs.sum := by
  by_cases hne : qs = []
  · subst hne
    rw [paid, List.sum_nil, mul_zero]
  · have hsum : 0 < qs.sum := List.sum_pos qs hpos hne
    have hrise : c.paid net qs = c.uncapped qs.sum net * qs.sum := by
      rw [c.paid_eq_sum hpos hcap, sum_stepCosts, c.uncapped_mul hsum]
    have hwhole : c.uncapped qs.sum net ≤ c.cap := by
      have hle : c.paid net qs ≤ c.cap * qs.sum := c.paid_le hpos
      rw [hrise] at hle
      exact le_of_mul_le_mul_right hle hsum
    rw [hrise, c.percent_eq hsum hwhole]

end ImpactCurve

/-- What parts of a total pay, executed one after another with the net updated after each. -/
def totalCharge (side : ImpactSide) (baseReserve freeZoneBase maxPoolFraction impactMultiplier
    maxImpactPercent : F64 K) : K → List K → K
  | _, [] => 0
  | net, q :: qs =>
    marginalImpactPercent side (some q) (some net) baseReserve freeZoneBase maxPoolFraction
        impactMultiplier maxImpactPercent * q +
      totalCharge side baseReserve freeZoneBase maxPoolFraction impactMultiplier maxImpactPercent
        (side.trade net q) qs

theorem marginalImpactPercent_pos {side : ImpactSide} {q net reserve : K} (hreserve : 0 < reserve)
    {freeZoneBase maxPoolFraction impactMultiplier maxImpactPercent : F64 K} (hq : 0 ≤ q) :
    marginalImpactPercent side (some q) (some net) (some reserve) freeZoneBase maxPoolFraction
        impactMultiplier maxImpactPercent =
      (ImpactCurve.ofKnobs side hreserve freeZoneBase maxPoolFraction impactMultiplier
        maxImpactPercent).percent q net := by
  unfold marginalImpactPercent
  dsimp only
  rw [dif_pos hreserve, nonNegative, max_eq_left hq, Option.getD_some]

/-- **The charge is invariant to the split of a total**, as long as the cap binds for no part. -/
theorem totalCharge_eq_whole (side : ImpactSide) {reserve : K} (hreserve : 0 < reserve)
    (freeZoneBase maxPoolFraction impactMultiplier maxImpactPercent : F64 K) (net : K)
    {parts : List K} (hpos : ∀ q ∈ parts, 0 < q)
    (hcap : (ImpactCurve.ofKnobs side hreserve freeZoneBase maxPoolFraction impactMultiplier
      maxImpactPercent).Uncapped net parts) :
    totalCharge side (some reserve) freeZoneBase maxPoolFraction impactMultiplier maxImpactPercent
        net parts =
      marginalImpactPercent side (some parts.sum) (some net) (some reserve) freeZoneBase
        maxPoolFraction impactMultiplier maxImpactPercent * parts.sum := by
  have hsum : 0 ≤ parts.sum := List.sum_nonneg fun q hq => (hpos q hq).le
  rw [marginalImpactPercent_pos hreserve hsum, ← ImpactCurve.paid_eq_whole _ hpos hcap]
  clear hcap hsum
  induction parts generalizing net with
  | nil => rfl
  | cons q qs ih =>
    rw [totalCharge, marginalImpactPercent_pos hreserve (hpos q List.mem_cons_self).le,
      ih _ fun p hp => hpos p (List.mem_cons_of_mem _ hp)]
    rfl

end Charge

/-- Ten units and then twenty past a free zone of five. -/
theorem totalCharge_eq_whole_twoBuys :
    totalCharge .userBuys (some (100 : ℚ)) (some 5) (some (9 / 10)) (some 1) (some 50) 0 [10, 20] =
      marginalImpactPercent .userBuys (some 30) (some 0) (some 100) (some 5) (some (9 / 10))
        (some 1) (some 50) * 30 := by
  have hparts : ([10, 20] : List ℚ).sum = 30 := by norm_num
  rw [← hparts]
  exact totalCharge_eq_whole .userBuys (by norm_num) _ _ _ _ 0 (by decide +kernel)
    ⟨by decide +kernel, by decide +kernel, trivial⟩

end BookAgent.AgentLogic
