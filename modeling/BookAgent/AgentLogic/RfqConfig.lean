import Mathlib.Data.List.Sort
import BookAgent.Lib.ExactFloat
import BookAgent.AgentLogic.PoolImpact

/-!
# RFQ configuration

The RFQ section of a market (`agent-logic/src/config.rs`) as pricing reads it, the overlays that a
venue may put on it, and the knobs of the price adjustment once they are sanitized.
-/

namespace BookAgent.AgentLogic

open BookAgent.Lib

/-! ## The price adjustment -/

/-- `f64::MAX` -/
def f64Max : ℚ := (2 ^ 53 - 1) * 2 ^ 971

/-- A knob in its range, at its lower end when it is not finite. -/
def clampKnob (v : F64 ℚ) (lo hi : ℚ) : ℚ :=
  match v with
  | some v => clamp v lo hi
  | none => lo

theorem clampKnob_mem {v : F64 ℚ} {lo hi : ℚ} (h : lo ≤ hi) :
    lo ≤ clampKnob v lo hi ∧ clampKnob v lo hi ≤ hi := by
  cases v with
  | none => exact ⟨le_rfl, h⟩
  | some v => exact clamp_mem h

/-- The section `[markets.rfq.pool_impact]` with its knobs in their ranges. -/
structure SanitizedImpact where
  /-- Otherwise the adjustment is logged only. -/
  enabled : Bool
  maxImpactPercent : ℚ
  maxPoolFraction : ℚ
  impactMultiplier : ℚ
  freeZoneBase : ℚ
  maxImpact_mem : 0 ≤ maxImpactPercent ∧ maxImpactPercent ≤ 95
  poolFraction_mem : 1 / 100 ≤ maxPoolFraction ∧ maxPoolFraction ≤ 99 / 100
  multiplier_mem : 0 ≤ impactMultiplier ∧ impactMultiplier ≤ 100
  freeZone_mem : 0 ≤ freeZoneBase ∧ freeZoneBase ≤ f64Max

/-- What `sanitize` makes of a section as it is written. -/
def PoolImpactConfig.sanitize (enabled : Bool) (cfg : PoolImpactConfig ℚ) : SanitizedImpact where
  enabled
  maxImpactPercent := clampKnob cfg.maxImpactPercent 0 95
  maxPoolFraction := clampKnob cfg.maxPoolFraction (1 / 100) (99 / 100)
  impactMultiplier := clampKnob cfg.impactMultiplier 0 100
  freeZoneBase := clampKnob cfg.freeZoneBase 0 f64Max
  maxImpact_mem := clampKnob_mem (by decide)
  poolFraction_mem := clampKnob_mem (by decide +kernel)
  multiplier_mem := clampKnob_mem (by decide)
  freeZone_mem := clampKnob_mem (by decide +kernel)

/-- The knobs that the adjustment reads. -/
def SanitizedImpact.knobs (s : SanitizedImpact) : PoolImpactConfig ℚ :=
  ⟨some s.maxImpactPercent, some s.maxPoolFraction, some s.impactMultiplier, some s.freeZoneBase⟩

/-! ## Markets and overlays -/

structure RfqMarketConfig where
  enabled : Bool
  minQuantity : String
  maxQuantity : String
  bidSpreadPercent : ExactFloat
  offerSpreadPercent : ExactFloat
  disableOverloadSpreadWidening : Bool
  disableDepletionSpreadWidening : Bool
  disableOfferSide : Bool
  disableBidSide : Bool
  quoteValidSecs : Option Nat
  allocateBeforeSecs : Nat
  settleBeforeSecs : Nat
  minNotionalUsd : Option ExactFloat
  poolImpact : Option SanitizedImpact

structure MarketConfig where
  marketId : String
  enabled : Bool
  rfq : Option RfqMarketConfig

/-- A set field replaces the pair's value, an unset one inherits it. -/
structure RfqOverlayConfig where
  enabled : Option Bool
  minQuantity : Option String
  maxQuantity : Option String
  bidSpreadPercent : Option ExactFloat
  offerSpreadPercent : Option ExactFloat
  disableOverloadSpreadWidening : Option Bool
  disableDepletionSpreadWidening : Option Bool
  quoteValidSecs : Option Nat

def RfqOverlayConfig.apply (overlay : RfqOverlayConfig) (cfg : RfqMarketConfig) :
    RfqMarketConfig :=
  { cfg with
    enabled := overlay.enabled.getD cfg.enabled
    minQuantity := overlay.minQuantity.getD cfg.minQuantity
    maxQuantity := overlay.maxQuantity.getD cfg.maxQuantity
    bidSpreadPercent := overlay.bidSpreadPercent.getD cfg.bidSpreadPercent
    offerSpreadPercent := overlay.offerSpreadPercent.getD cfg.offerSpreadPercent
    disableOverloadSpreadWidening :=
      overlay.disableOverloadSpreadWidening.getD cfg.disableOverloadSpreadWidening
    disableDepletionSpreadWidening :=
      overlay.disableDepletionSpreadWidening.getD cfg.disableDepletionSpreadWidening
    quoteValidSecs := overlay.quoteValidSecs.or cfg.quoteValidSecs }

/-- An entry of `[[venue_overrides]]`. -/
structure VenueOverride where
  venue : String
  branch : Option String
  markets : Option (List String)
  rfq : RfqOverlayConfig

namespace VenueOverride

/-- The entry is about the request (`matches`). -/
def matchesRequest (o : VenueOverride) (marketId venue : String) (branch : Option String) : Bool :=
  decide (o.venue = venue) && (o.branch.all fun b => decide (branch = some b)) &&
    o.markets.all fun markets => decide (marketId ∈ markets)

/-- The more constrained entries apply later. -/
def specificity (o : VenueOverride) : Nat := o.branch.isSome.toNat + o.markets.isSome.toNat

end VenueOverride

/-- The pair's section with every overlay that is about the request, the less specific first and
in file order otherwise. -/
def resolveRfqConfig (pair : RfqMarketConfig) (overrides : List VenueOverride) (marketId : String)
    (venue branch : Option String) : RfqMarketConfig :=
  match venue with
  | none => pair
  | some venue =>
    let matching := overrides.filter (·.matchesRequest marketId venue branch)
    let sorted := matching.insertionSort fun a b => a.specificity ≤ b.specificity
    sorted.foldl (fun cfg o => o.rfq.apply cfg) pair

end BookAgent.AgentLogic
