import Mathlib.Data.Rat.Cast.Order
import Mathlib.Topology.Algebra.Field
import Mathlib.Topology.Instances.Real.Lemmas
import Mathlib.Topology.Order.Lattice
import BookAgent.AgentLogic.PoolImpact

/-!
# The adjustment over the reals

The price adjustment takes rational numbers to rational numbers. Read over the reals it is the
same on these, and continuous in the size of the trade.
-/

namespace BookAgent.AgentLogic

open BookAgent.Lib

/-! ## Rational numbers as real ones -/

/-- A float's number, as a real one. -/
def F64.toReal (x : F64 ℚ) : F64 ℝ := Option.map (fun q : ℚ => (q : ℝ)) x

def PoolDepth.toReal (d : PoolDepth ℚ) : PoolDepth ℝ := ⟨F64.toReal d.baseReserve⟩

def PoolImpactConfig.toReal (c : PoolImpactConfig ℚ) : PoolImpactConfig ℝ :=
  ⟨F64.toReal c.maxImpactPercent, F64.toReal c.maxPoolFraction, F64.toReal c.impactMultiplier,
    F64.toReal c.freeZoneBase⟩

@[simp] theorem cast_clamp (x lo hi : ℚ) : ((clamp x lo hi : ℚ) : ℝ) = clamp (x : ℝ) lo hi := by
  unfold clamp
  push_cast
  rfl

@[simp] theorem cast_nonNegative (x : F64 ℚ) :
    ((nonNegative x : ℚ) : ℝ) = nonNegative (F64.toReal x) := by
  cases x with
  | none => exact Rat.cast_zero
  | some x =>
    change ((max x 0 : ℚ) : ℝ) = max (x : ℝ) 0
    push_cast
    rfl

@[simp] theorem cast_poolFraction (x : F64 ℚ) :
    ((poolFraction x : ℚ) : ℝ) = poolFraction (F64.toReal x) := by
  cases x with
  | none =>
    change ((99 / 100 : ℚ) : ℝ) = 99 / 100
    push_cast
    rfl
  | some x =>
    change ((clamp x 0 (99 / 100) : ℚ) : ℝ) = clamp (x : ℝ) 0 (99 / 100)
    rw [cast_clamp]
    push_cast
    rfl

namespace ImpactCurve

theorem cast_frac_le (c : ImpactCurve ℚ) : (c.frac : ℝ) ≤ 99 / 100 := by
  have hle := (Rat.cast_le (K := ℝ)).mpr c.frac_le
  push_cast at hle
  exact hle

/-- The curve with its numbers as real ones. -/
def toReal (c : ImpactCurve ℚ) : ImpactCurve ℝ where
  side := c.side
  reserve := c.reserve
  freeZone := c.freeZone
  frac := c.frac
  mult := c.mult
  cap := c.cap
  reserve_pos := Rat.cast_pos.mpr c.reserve_pos
  frac_nonneg := Rat.cast_nonneg.mpr c.frac_nonneg
  frac_le := c.cast_frac_le
  mult_nonneg := Rat.cast_nonneg.mpr c.mult_nonneg
  cap_nonneg := Rat.cast_nonneg.mpr c.cap_nonneg

variable (c : ImpactCurve ℚ)

theorem cast_exposure (side : ImpactSide) (net : ℚ) :
    ((side.exposure net : ℚ) : ℝ) = side.exposure (net : ℝ) := by
  cases side with
  | userBuys => rfl
  | userSells => exact Rat.cast_neg net

theorem cast_trade (side : ImpactSide) (net q : ℚ) :
    ((side.trade net q : ℚ) : ℝ) = side.trade (net : ℝ) q := by
  cases side with
  | userBuys => exact Rat.cast_add net q
  | userSells => exact Rat.cast_sub net q

theorem cast_charged (net : ℚ) : ((c.charged net : ℚ) : ℝ) = c.toReal.charged net := by
  unfold charged
  push_cast
  rw [cast_exposure]
  rfl

theorem cast_cost (x : ℚ) : ((c.cost x : ℚ) : ℝ) = c.toReal.cost x := by
  unfold cost markup toReal
  dsimp only
  cases c.side with
  | userBuys =>
    dsimp only
    push_cast [cast_clamp]
    rfl
  | userSells =>
    dsimp only
    push_cast [cast_clamp]
    rfl

theorem cast_percent (q net : ℚ) : ((c.percent q net : ℚ) : ℝ) = c.toReal.percent q net := by
  unfold percent
  by_cases hq : q ≤ 0
  · rw [if_pos hq, if_pos (by exact_mod_cast hq), Rat.cast_zero]
  · rw [if_neg hq, if_neg (by exact_mod_cast hq), cast_clamp]
    unfold uncapped
    push_cast [cast_cost, cast_charged, cast_trade]
    rfl

/-! ## Continuity -/

variable (d : ImpactCurve ℝ)

theorem continuous_markup : Continuous d.markup := by
  have hclamp : Continuous fun x : ℝ => clamp (x / d.reserve) 0 d.frac := by
    unfold clamp
    fun_prop
  have hfrac := d.frac_le
  unfold markup
  cases d.side with
  | userBuys =>
    refine (continuous_const.mul hclamp).div (continuous_const.sub hclamp) fun x => ?_
    have hle := (clamp_mem (x := x / d.reserve) d.frac_nonneg).2
    exact (by linarith : (0 : ℝ) < 1 - clamp (x / d.reserve) 0 d.frac).ne'
  | userSells =>
    refine (continuous_const.mul hclamp).div (continuous_const.add hclamp) fun x => ?_
    have hle := (clamp_mem (x := x / d.reserve) d.frac_nonneg).1
    exact (by linarith : (0 : ℝ) < 1 + clamp (x / d.reserve) 0 d.frac).ne'

theorem continuous_cost : Continuous d.cost := continuous_id.mul d.continuous_markup

theorem continuous_charged : Continuous d.charged := by
  unfold charged ImpactSide.exposure
  cases d.side with
  | userBuys =>
    dsimp only
    fun_prop
  | userSells =>
    dsimp only
    fun_prop

/-- The adjustment jumps at zero only. -/
theorem continuousOn_percent (net : ℝ) : ContinuousOn (fun q => d.percent q net) (Set.Ioi 0) := by
  have htrade : Continuous fun q : ℝ => d.side.trade net q := by
    unfold ImpactSide.trade
    cases d.side with
    | userBuys =>
      dsimp only
      fun_prop
    | userSells =>
      dsimp only
      fun_prop
  have hcost : Continuous fun q => d.cost (d.charged (d.side.trade net q)) :=
    d.continuous_cost.comp (d.continuous_charged.comp htrade)
  have hrise : ContinuousOn (fun q => d.uncapped q net) (Set.Ioi 0) := by
    unfold uncapped
    refine ContinuousOn.mul (ContinuousOn.sup (ContinuousOn.div ?_ continuousOn_id ?_)
      continuousOn_const) continuousOn_const
    · exact (hcost.sub continuous_const).continuousOn
    · exact fun q hq => ne_of_gt hq
  have hclamped : ContinuousOn (fun q => clamp (d.uncapped q net) 0 d.cap) (Set.Ioi 0) := by
    unfold clamp
    exact continuousOn_const.sup (hrise.inf continuousOn_const)
  refine hclamped.congr fun q hq => ?_
  unfold percent
  rw [if_neg (not_le.mpr hq)]

end ImpactCurve

/-! ## The adjustment of a market -/

/-- Between nothing and the cap. -/
theorem poolImpactPercent_mem {K : Type} [Field K] [LinearOrder K] [IsStrictOrderedRing K]
    (side : ImpactSide) (quantityBase signedNet : F64 K) (depth : PoolDepth K)
    (cfg : PoolImpactConfig K) :
    0 ≤ poolImpactPercent side quantityBase signedNet depth cfg ∧
      poolImpactPercent side quantityBase signedNet depth cfg ≤ nonNegative cfg.maxImpactPercent := by
  have hcap := nonNegative_nonneg cfg.maxImpactPercent
  unfold poolImpactPercent marginalImpactPercent
  split
  · exact ⟨le_rfl, hcap⟩
  · split
    · unfold ImpactCurve.percent
      split
      · exact ⟨le_rfl, hcap⟩
      · exact clamp_mem hcap
    · exact ⟨le_rfl, hcap⟩

theorem poolImpactPercent_zero {K : Type} [Field K] [LinearOrder K] [IsStrictOrderedRing K]
    (side : ImpactSide) (signedNet : F64 K) (depth : PoolDepth K) (cfg : PoolImpactConfig K) :
    poolImpactPercent side (some 0) signedNet depth cfg = 0 := by
  unfold poolImpactPercent marginalImpactPercent
  split
  · rfl
  · split
    · unfold ImpactCurve.percent
      have hzero : nonNegative (some (0 : K)) = 0 := max_self 0
      rw [hzero, if_pos le_rfl]
    · rfl

theorem cast_poolImpactPercent (side : ImpactSide) (b : ℚ) (signedNet : F64 ℚ)
    (depth : PoolDepth ℚ) (cfg : PoolImpactConfig ℚ) :
    ((poolImpactPercent side (some b) signedNet depth cfg : ℚ) : ℝ)
      = poolImpactPercent side (some (b : ℝ)) (F64.toReal signedNet) depth.toReal cfg.toReal := by
  obtain ⟨baseReserve⟩ := depth
  cases baseReserve with
  | none => exact Rat.cast_zero
  | some reserve =>
    unfold poolImpactPercent marginalImpactPercent PoolDepth.toReal
    dsimp only [F64.toReal, Option.map_some]
    by_cases hreserve : 0 < reserve
    · have hreserve' : (0 : ℝ) < reserve := Rat.cast_pos.mpr hreserve
      have hnet : ((signedNet.getD 0 : ℚ) : ℝ) = (Option.map (fun q : ℚ => (q : ℝ)) signedNet).getD 0 := by
        cases signedNet with
        | none => exact Rat.cast_zero
        | some net => rfl
      have hcurve : (ImpactCurve.ofKnobs side hreserve cfg.freeZoneBase cfg.maxPoolFraction
          cfg.impactMultiplier cfg.maxImpactPercent).toReal
          = ImpactCurve.ofKnobs side hreserve' cfg.toReal.freeZoneBase cfg.toReal.maxPoolFraction
            cfg.toReal.impactMultiplier cfg.toReal.maxImpactPercent := by
        unfold ImpactCurve.toReal ImpactCurve.ofKnobs
        simp only [cast_nonNegative, cast_poolFraction]
        rfl
      rw [dif_pos hreserve, dif_pos hreserve', ImpactCurve.cast_percent, hcurve, hnet,
        cast_nonNegative]
      rfl
    · rw [dif_neg hreserve, dif_neg fun h => hreserve (Rat.cast_pos.mp h), Rat.cast_zero]

theorem continuousOn_poolImpactPercent (side : ImpactSide) (signedNet : F64 ℝ)
    (depth : PoolDepth ℝ) (cfg : PoolImpactConfig ℝ) :
    ContinuousOn (fun b => poolImpactPercent side (some b) signedNet depth cfg) (Set.Ioi 0) := by
  unfold poolImpactPercent marginalImpactPercent
  split
  · exact continuousOn_const
  · split
    · rename_i reserve _ hreserve
      have hpercent := (ImpactCurve.ofKnobs side hreserve cfg.freeZoneBase cfg.maxPoolFraction
        cfg.impactMultiplier cfg.maxImpactPercent).continuousOn_percent (signedNet.getD 0)
      refine hpercent.congr fun b hb => ?_
      have hmax : nonNegative (some b) = b := max_eq_left (le_of_lt hb)
      dsimp only
      rw [hmax]
    · exact continuousOn_const

end BookAgent.AgentLogic
