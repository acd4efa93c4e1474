import BookAgent.CloudAgent.QuotedSpread

/-!
# Quote-sized requests

A request for a quote amount is priced as the base amount that comes to it would be. The base
amount is found by bisection, near to an exact one where the bounds of the search are honoured.
-/

namespace BookAgent.CloudAgent

open BookAgent.Lib BookAgent.AgentLogic

/-! ## A price between its bounds -/

namespace SizedPricing

variable (p : SizedPricing ℚ)

theorem impactAt_le (b : ℚ) : p.impactAt b ≤ nonNegative p.knobs.maxImpactPercent :=
  (poolImpactPercent_mem _ _ _ _ _).2

theorem priceAt_zero : p.priceAt 0 = p.priceWith 0 := by
  unfold priceAt impactAt
  rw [poolImpactPercent_zero]

variable {p}

/-- The larger the adjustment, the more a user who buys pays. -/
theorem priceWith_buys (hmid : 0 < p.mid) (hbuys : p.side = .userBuys) {x y : ℚ} (h : x ≤ y) :
    p.priceWith x ≤ p.priceWith y := by
  unfold priceWith dirPrice
  rw [hbuys]
  exact mul_le_mul_of_nonneg_left (by linarith) hmid.le

/-- The larger the adjustment, the less a user who sells gets. -/
theorem priceWith_sells (hmid : 0 < p.mid) (hsells : p.side = .userSells) {x y : ℚ} (h : x ≤ y) :
    p.priceWith y ≤ p.priceWith x := by
  unfold priceWith dirPrice
  rw [hsells]
  exact mul_le_mul_of_nonneg_left (by linarith) hmid.le

/-- The lower limit that the capped price is raised to has no effect on the search: the user buys,
or the capped price is above it. -/
def Unraised (p : SizedPricing ℚ) : Prop :=
  p.side = .userBuys ∨ p.lowerLimit ≤ p.cappedPrice

theorem lowerLimit_pos (hmid : 0 < p.mid) : 0 < p.lowerLimit :=
  mul_pos hmid (by norm_num)

/-- The price is within the bounds of the search wherever it is read. -/
theorem bounds_honoured (hmid : 0 < p.mid) (h : p.Unraised) (b : ℚ) :
    p.bounds.1 ≤ p.priceAt b ∧ p.priceAt b ≤ p.bounds.2 := by
  have hnonneg := p.impactAt_nonneg b
  have hcap := p.impactAt_le b
  unfold bounds
  dsimp only
  rw [priceAt_zero]
  cases hside : p.side with
  | userBuys =>
    have hlow : p.priceWith 0 ≤ p.priceAt b := priceWith_buys hmid hside hnonneg
    have hhigh : p.priceAt b ≤ p.cappedPrice := priceWith_buys hmid hside hcap
    exact ⟨(min_le_left _ _).trans hlow, hhigh.trans ((le_max_left _ _).trans (le_max_right _ _))⟩
  | userSells =>
    have hlow : p.cappedPrice ≤ p.priceAt b := priceWith_sells hmid hside hcap
    have hhigh : p.priceAt b ≤ p.priceWith 0 := priceWith_sells hmid hside hnonneg
    have hraised : p.lowerLimit ≤ p.cappedPrice := by
      rcases h with hbuys | hraised
      · rw [hside] at hbuys
        cases hbuys
      · exact hraised
    rw [max_eq_left hraised]
    exact ⟨(min_le_right _ _).trans hlow, hhigh.trans (le_max_left _ _)⟩

/-- The search is not refused: a user who buys at no adjustment pays something, and for one who
sells the lower limit has no effect. -/
theorem floor_pos (hmid : 0 < p.mid) (h : p.Unraised)
    (hbuys : p.side = .userBuys → 0 < p.priceAt 0) : 0 < p.bounds.1 := by
  have hlimit := lowerLimit_pos hmid
  have hraised : 0 < max p.cappedPrice p.lowerLimit := lt_max_of_lt_right hlimit
  refine lt_min ?_ hraised
  rcases h with hside | hcapped
  · exact hbuys hside
  · cases hside : p.side with
    | userBuys => exact hbuys hside
    | userSells =>
      have hle : p.cappedPrice ≤ p.priceAt 0 := priceWith_sells hmid hside (p.impactAt_le 0)
      exact hlimit.trans_le (hcapped.trans hle)

end SizedPricing

/-! ## Over the reals -/

namespace SizedPricing

variable (p : SizedPricing ℚ)

/-- The same pricing of real amounts. -/
def toReal : SizedPricing ℝ where
  side := p.side
  mid := p.mid
  effSpreadBase := p.effSpreadBase
  signedNet := F64.toReal p.signedNet
  depth := p.depth.toReal
  knobs := p.knobs.toReal

theorem cast_dirPrice (side : ImpactSide) (mid eff : ℚ) :
    ((dirPrice side mid eff : ℚ) : ℝ) = dirPrice side (mid : ℝ) eff := by
  cases side with
  | userBuys =>
    unfold dirPrice
    push_cast
    rfl
  | userSells =>
    unfold dirPrice
    push_cast
    rfl

theorem cast_priceAt (b : ℚ) : ((p.priceAt b : ℚ) : ℝ) = p.toReal.priceAt b := by
  unfold priceAt priceWith impactAt
  rw [cast_dirPrice, Rat.cast_add, cast_poolImpactPercent]
  rfl

/-- What a real base amount comes to in the quote token. -/
noncomputable def comesTo (x : ℝ) : ℝ := x * p.toReal.priceAt x

theorem comesTo_cast (b : ℚ) : p.comesTo b = ((b * p.priceAt b : ℚ) : ℝ) := by
  rw [Rat.cast_mul, cast_priceAt, comesTo]

theorem continuousOn_priceAt (q : SizedPricing ℝ) : ContinuousOn q.priceAt (Set.Ioi 0) := by
  have himpact : ContinuousOn q.impactAt (Set.Ioi 0) :=
    continuousOn_poolImpactPercent q.side q.signedNet q.depth q.knobs
  have hpercent : ContinuousOn (fun b => (q.effSpreadBase + q.impactAt b) / 100.0) (Set.Ioi 0) :=
    (continuousOn_const.add himpact).div_const 100.0
  unfold priceAt priceWith dirPrice
  cases q.side with
  | userBuys => exact continuousOn_const.mul (continuousOn_const.add hpercent)
  | userSells => exact continuousOn_const.mul (continuousOn_const.sub hpercent)

theorem continuousOn_comesTo : ContinuousOn p.comesTo (Set.Ioi 0) :=
  continuousOn_id.mul p.toReal.continuousOn_priceAt

/-- An exact solution in the bracket of the search. -/
structure Solves (amount : ℚ) (x : ℝ) : Prop where
  lower_le : ((amount / p.bounds.2 : ℚ) : ℝ) ≤ x
  le_upper : x ≤ ((amount / p.bounds.1 : ℚ) : ℝ)
  comesTo_eq : p.comesTo x = amount

variable {p} {amount : ℚ}

/-- Where the bounds are honoured, the bracket has too little at one end and enough at the
other. -/
theorem bracket_of_honoured (hamount : 0 < amount) (hmid : 0 < p.mid) (h : p.Unraised)
    (hfloor : 0 < p.bounds.1) :
    p.comesTo (amount / p.bounds.2 : ℚ) ≤ amount ∧
      (amount : ℝ) ≤ p.comesTo (amount / p.bounds.1 : ℚ) := by
  have hceil : 0 < p.bounds.2 := by
    have hmem := bounds_honoured hmid h 0
    exact hfloor.trans_le (hmem.1.trans hmem.2)
  constructor
  · rw [comesTo_cast, Rat.cast_le]
    calc amount / p.bounds.2 * p.priceAt (amount / p.bounds.2)
        ≤ amount / p.bounds.2 * p.bounds.2 :=
          mul_le_mul_of_nonneg_left (bounds_honoured hmid h _).2 (div_pos hamount hceil).le
      _ = amount := div_mul_cancel₀ amount hceil.ne'
  · rw [comesTo_cast, Rat.cast_le]
    calc amount = amount / p.bounds.1 * p.bounds.1 := (div_mul_cancel₀ amount hfloor.ne').symm
      _ ≤ amount / p.bounds.1 * p.priceAt (amount / p.bounds.1) :=
          mul_le_mul_of_nonneg_left (bounds_honoured hmid h _).1 (div_pos hamount hfloor).le

theorem exists_solves (hamount : 0 < amount) (hmid : 0 < p.mid) (h : p.Unraised)
    (hbuys : p.side = .userBuys → 0 < p.priceAt 0) : ∃ x, p.Solves amount x := by
  have hfloor := floor_pos hmid h hbuys
  have hmem := bounds_honoured hmid h 0
  have hle : p.bounds.1 ≤ p.bounds.2 := hmem.1.trans hmem.2
  obtain ⟨hlow, hhigh⟩ := bracket_of_honoured hamount hmid h hfloor
  obtain ⟨x, hx, hx', heq⟩ := exists_exact (div_pos hamount (hfloor.trans_le hle))
    (div_le_div_of_nonneg_left hamount.le hfloor hle) p.continuousOn_comesTo hlow hhigh
  exact ⟨x, hx, hx', heq⟩

/-- How far the base amount of a trade may be from an exact one. -/
def tolerance (p : SizedPricing ℚ) (amount : ℚ) : ℚ :=
  solveTolerance (amount / p.bounds.2) (amount / p.bounds.1)

/-- What is solved for is near to an exact solution. -/
theorem near_of_solved (hamount : 0 < amount) (hmid : 0 < p.mid) (hunraised : p.Unraised) {b : ℚ}
    (h : solveBaseForQuote amount p.bounds.1 p.bounds.2 p.priceAt = some b) :
    ∃ x, p.Solves amount x ∧ |(b : ℝ) - x| ≤ p.tolerance amount := by
  obtain ⟨-, hfloor, hle, found, rfl, bisected⟩ := of_solveBaseForQuote h
  obtain ⟨hlow, hhigh⟩ := bracket_of_honoured hamount hmid hunraised hfloor
  obtain ⟨x, hx, hx', heq, hnear⟩ := near_of_bisected (div_pos hamount (hfloor.trans_le hle))
    bisected p.comesTo_cast p.continuousOn_comesTo hlow hhigh
  exact ⟨x, ⟨hx, hx', heq⟩, hnear⟩

/-- A trade for a quote amount agrees with the pricing of base amounts. -/
structure Agrees (p : SizedPricing ℚ) (amount : ℚ) (trade : SizedTrade) : Prop where
  product : trade.quantity * trade.price = amount
  /-- Its price is that of a base amount, near to an exact one if the lower limit has no effect. -/
  based : ∃ b based, 0 < b ∧ p.trade (.base (.finite b)) = .ok based ∧ trade.price = based.price ∧
    (p.Unraised → ∃ x, p.Solves amount x ∧ |(b : ℝ) - x| ≤ p.tolerance amount)

theorem agrees_of_quoteTrade (hamount : 0 < amount) (hmid : 0 < p.mid) {trade : SizedTrade}
    (h : p.trade (.quote amount) = .ok trade) (hpos : 0 < trade.price) :
    p.Agrees amount trade := by
  obtain ⟨b, hsolve, hb, rfl⟩ := of_quoteTrade h
  refine ⟨div_mul_cancel₀ amount hpos.ne', b, _, hb, rfl, rfl, fun hunraised => ?_⟩
  exact near_of_solved hamount hmid hunraised hsolve

end SizedPricing

/-! ## Requests -/

section Requests

variable {D : Type} [RfqCrates D] {handler : RfqHandler} {w : PricingState} {r : PriceRequest}

/-- The pricing of a request for a quote amount with the adjustment applied, and the amount. -/
def quoteSized (handler : RfqHandler) (w : PricingState) (r : PriceRequest) :
    Option (SizedPricing ℚ × ℚ) :=
  match acceptRequest handler w r with
  | .ok (cfg, .quote amount, m) =>
    match m.mid, sideSpread cfg r with
    | .finite mid, .finite spread =>
      let multiplier := spreadMultiplier cfg w.forecast +
        (depletionCoeff cfg w.liquidityManager r.lpToken w.now).1
      (appliedPricing cfg w r m mid (spread * stressCoefficient spread multiplier)).map (·, amount)
    | _, _ => none
  | _ => none

theorem amount_pos {amount : ℚ} (h : sizeMode r = .ok (.quote amount)) : 0 < amount := by
  unfold sizeMode at h
  split at h
  · split at h
    · split at h
      · rename_i hpos
        obtain rfl := SizeMode.quote.inj (Except.ok.inj h)
        exact hpos
      · cases h
    · cases h
  · split at h
    · cases h
    · cases h

/-- What a request for a quote amount is priced from, up to the trade. -/
theorem of_quoteSized {p : SizedPricing ℚ} {amount : ℚ}
    (h : quoteSized handler w r = some (p, amount)) :
    0 < p.mid ∧ 0 < amount ∧ ∀ trade quote, (pricedTrade D handler w r).1 = .ok (trade, quote) →
      p.trade (.quote amount) = .ok trade ∧ 0 < trade.price := by
  unfold quoteSized at h
  split at h
  · rename_i cfg amount' m haccept
    split at h
    · rename_i mid spread hmid hspread
      obtain ⟨p', happlied, heq⟩ := Option.map_eq_some_iff.mp h
      obtain ⟨rfl, rfl⟩ := Prod.mk.inj heq
      obtain ⟨-, hmode, -, hpos⟩ := of_acceptRequest haccept
      obtain ⟨-, hpmid, -⟩ := of_appliedPricing happlied
      refine ⟨?_, amount_pos hmode, fun trade quote hpriced => ?_⟩
      · rw [hpmid]
        rw [hmid] at hpos
        exact ExactFloat.lt_finite.mp hpos
      · unfold pricedTrade at hpriced
        rw [haccept] at hpriced
        obtain ⟨⟨snapshot, htrade⟩, -⟩ := of_priceAccepted hpriced
        unfold priceTrade at htrade
        rw [hmid, hspread] at htrade
        dsimp only at htrade
        rw [happlied] at htrade
        obtain ⟨trade', hquote, htrade⟩ := bind_eq_ok.mp htrade
        obtain ⟨trade'', hpositive, htrade⟩ := bind_eq_ok.mp htrade
        obtain ⟨rfl, -⟩ := Prod.mk.inj (pure_eq_ok.mp htrade)
        obtain ⟨rfl, hprice⟩ := of_positivePrice hpositive
        exact ⟨hquote, hprice⟩
    · cases h
  · cases h

/-- **Both sizings agree.** The search has an exact solution in its bracket, and a quote that is
returned is that of a base amount near to one, where the lower limit of the search has no effect. -/
theorem quoteSized_agrees {p : SizedPricing ℚ} {amount : ℚ}
    (h : quoteSized handler w r = some (p, amount)) :
    (p.Unraised → (p.side = .userBuys → 0 < p.priceAt 0) → ∃ x, p.Solves amount x) ∧
      ∀ quote, (priceRfq D handler w r).1 = .ok quote → ∃ trade,
        (pricedTrade D handler w r).1 = .ok (trade, quote) ∧ p.Agrees amount trade := by
  obtain ⟨hmid, hamount, hpriced⟩ := of_quoteSized (D := D) h
  refine ⟨SizedPricing.exists_solves hamount hmid, fun quote hquote => ?_⟩
  obtain ⟨trade, -, -, -, -, htrade, -, -⟩ := priced_of_priceRfq hquote
  obtain ⟨hsized, hpos⟩ := hpriced trade quote htrade
  exact ⟨trade, htrade, SizedPricing.agrees_of_quoteTrade hamount hmid hsized hpos⟩

end Requests

/-! ## Where the lower limit has an effect -/

section Example

attribute [local instance] rationalCrates

/-- One spread on both sides, and an adjustment. -/
def pooledMarket (spread : ℚ) (knobs : PoolImpactConfig ℚ) : MarketConfig :=
  { abMarket with
    rfq := abMarket.rfq.map fun cfg =>
      { cfg with
        maxQuantity := "10000000000"
        bidSpreadPercent := .finite spread
        offerSpreadPercent := .finite spread
        poolImpact := some (knobs.sanitize true) } }

def pooledHandler (spread : ℚ) (knobs : PoolImpactConfig ℚ) : RfqHandler :=
  ⟨[pooledMarket spread knobs], [], 30, .finite 0⟩

/-- The mid price is one. -/
def pooledState (reserve : ℚ) : PricingState :=
  { abState with
    forecast := ⟨0, .finite 1, .finite (1 / 2)⟩
    midPrices := fun _ => some ⟨.finite 1, some ⟨some reserve⟩⟩ }

def amountRequest (direction : Int) (amount : String) : PriceRequest :=
  ⟨"A-B", direction, "", amount, false, none, none, none⟩

def plainKnobs (cap : ℚ) : PoolImpactConfig ℚ := ⟨some cap, some (1 / 2), some 1, some 0⟩

/-- The pricing of a sale at a spread of one percent. -/
def salePricing : SizedPricing ℚ := ⟨.userSells, 1, 1, some 0, ⟨some 1000⟩, plainKnobs 5⟩

theorem quoteSized_agrees_sale :
    (∃ x, salePricing.Solves 100 x) ∧
      ∃ trade quote, (pricedTrade ℚ (pooledHandler 1 (plainKnobs 5)) (pooledState 1000)
          (amountRequest 2 "100")).1 = .ok (trade, quote) ∧ salePricing.Agrees 100 trade := by
  have hsized : quoteSized (pooledHandler 1 (plainKnobs 5)) (pooledState 1000)
      (amountRequest 2 "100") = some (salePricing, 100) := by decide +kernel
  have hok : (priceRfq ℚ (pooledHandler 1 (plainKnobs 5)) (pooledState 1000)
      (amountRequest 2 "100")).1.isOk = true := by decide +kernel
  obtain ⟨hsolves, hagrees⟩ := quoteSized_agrees (D := ℚ) hsized
  refine ⟨hsolves (.inr (by decide +kernel)) (fun hbuys => by cases hbuys), ?_⟩
  obtain ⟨quote, h⟩ := exists_of_isOk hok
  obtain ⟨trade, htrade, agrees⟩ := hagrees quote h
  exact ⟨trade, quote, htrade, agrees⟩

/-- The pricing of a purchase at a spread below minus one hundred percent. -/
def deepPricing : SizedPricing ℚ := ⟨.userBuys, 1, -150, some 0, ⟨some 1⟩, plainKnobs 95⟩

/-- At the cap, a sale at a spread of half the mid price pays less than the lower limit. -/
def thinKnobs (K : Type) [Field K] : PoolImpactConfig K :=
  ⟨some 49.99999999, some 0.5, some 1.5, some 1⟩

def thinPricing (K : Type) [Field K] : SizedPricing K :=
  ⟨.userSells, 1, 50.0, some 0, ⟨some 1⟩, thinKnobs K⟩

theorem thinPricing_toReal : (thinPricing ℚ).toReal = thinPricing ℝ := by
  unfold SizedPricing.toReal thinPricing PoolDepth.toReal PoolImpactConfig.toReal thinKnobs F64.toReal
  norm_num

noncomputable def thinCurve : ImpactCurve ℝ :=
  .ofKnobs .userSells one_pos (thinKnobs ℝ).freeZoneBase (thinKnobs ℝ).maxPoolFraction
    (thinKnobs ℝ).impactMultiplier (thinKnobs ℝ).maxImpactPercent

theorem thinKnobs_cap : nonNegative (thinKnobs ℝ).maxImpactPercent = 50 - 1 / 10 ^ 8 := by
  change max (49.99999999 : ℝ) 0 = 50 - 1 / 10 ^ 8
  norm_num

theorem thinCurve_cost {x : ℝ} (hx : 1 / 2 ≤ x) : thinCurve.cost x = x * (100 / 3) := by
  have hfrac : thinCurve.frac = 1 / 2 := by
    change clamp (0.5 : ℝ) 0 (99 / 100) = 1 / 2
    rw [clamp_eq (by norm_num) (by norm_num)]
    norm_num
  have hu : clamp (x / thinCurve.reserve) 0 thinCurve.frac = 1 / 2 := by
    rw [hfrac, show thinCurve.reserve = 1 from rfl, div_one, clamp, min_eq_right hx]
    norm_num
  have hmarkup : thinCurve.markup x = 100 * (1 / 2) / (1 + 1 / 2) := by
    rw [← hu]
    rfl
  rw [ImpactCurve.cost, hmarkup]
  norm_num

/-- Past the pool's fraction, the adjustment rises to the cap as one over the amount falls. -/
theorem thinPricing_impactAt {x : ℝ} (hx : 3 / 2 ≤ x) :
    (thinPricing ℝ).impactAt x = min (50 - 50 / x) (50 - 1 / 10 ^ 8) := by
  have hpos : 0 < x := by linarith
  have hinv : 50 / x ≤ 50 := by
    rw [div_le_iff₀ hpos]
    linarith
  have hpercent : (thinPricing ℝ).impactAt x = thinCurve.percent x 0 :=
    marginalImpactPercent_pos one_pos hpos.le
  have hzone : thinCurve.freeZone = 1 := max_eq_left zero_le_one
  have hmult : thinCurve.mult = 3 / 2 := by
    change max (1.5 : ℝ) 0 = 3 / 2
    norm_num
  have hcap : thinCurve.cap = 50 - 1 / 10 ^ 8 := thinKnobs_cap
  have hbefore : thinCurve.charged 0 = 0 := by
    unfold ImpactCurve.charged
    rw [hzone]
    change max (-0 - 1 : ℝ) 0 = 0
    norm_num
  have hafter : thinCurve.charged (thinCurve.side.trade 0 x) = x - 1 := by
    unfold ImpactCurve.charged
    rw [hzone]
    change max (-(0 - x) - 1) 0 = x - 1
    rw [max_eq_left (by linarith)]
    ring
  have hcost : thinCurve.cost 0 = 0 := zero_mul _
  have hrise : thinCurve.uncapped x 0 = 50 - 50 / x := by
    unfold ImpactCurve.uncapped
    rw [hbefore, hafter, hcost, thinCurve_cost (by linarith), hmult, sub_zero, max_eq_left]
    · field_simp
      ring
    · exact div_nonneg (by linarith) hpos.le
  rw [hpercent, ImpactCurve.percent, if_neg (not_le.mpr hpos), hrise, hcap, clamp, max_eq_right]
  exact le_min (by linarith) (by norm_num)

theorem thinPricing_priceAt (x : ℝ) :
    (thinPricing ℝ).priceAt x = (50 - (thinPricing ℝ).impactAt x) / 100 := by
  change 1 * (1 - (50.0 + (thinPricing ℝ).impactAt x) / 100.0) = _
  norm_num
  ring

/-- Only an amount that the cap is reached at comes to one. -/
theorem thinPricing_comesTo {x : ℝ} (h : (thinPricing ℚ).comesTo x = 1) : 5 * 10 ^ 9 < x := by
  unfold SizedPricing.comesTo at h
  rw [thinPricing_toReal, thinPricing_priceAt] at h
  by_contra! hle
  have himpact : 0 ≤ (thinPricing ℝ).impactAt x := (poolImpactPercent_mem _ _ _ _ _).1
  rcases le_total x (3 / 2) with hsmall | hlarge
  · have hcap : (thinPricing ℝ).impactAt x ≤ 50 - 1 / 10 ^ 8 :=
      (poolImpactPercent_mem _ _ _ _ _).2.trans_eq thinKnobs_cap
    nlinarith
  · rw [thinPricing_impactAt hlarge, min_eq_left] at h
    · field_simp at h
      norm_num at h
    · have hpos : 0 < x := by linarith
      have : (1 : ℝ) / 10 ^ 8 ≤ 50 / x := by
        rw [div_le_div_iff₀ (by norm_num) hpos]
        linarith
      linarith

/-- The price of a large amount is low. -/
theorem thinPricing_price_lt {x : ℝ} (hx : 2 * 10 ^ 9 < x) :
    (thinPricing ℝ).priceAt x < 3 / 10 ^ 10 := by
  have hpos : 0 < x := by linarith
  have hinv : 50 / x < 25 / 10 ^ 9 := by
    rw [div_lt_div_iff₀ hpos (by norm_num)]
    linarith
  rw [thinPricing_priceAt, thinPricing_impactAt (by linarith)]
  rcases min_choice (50 - 50 / x) (50 - 1 / 10 ^ 8) with h | h <;> rw [h] <;> linarith

/-- The brackets of the two pricings, and what the search counts as near. -/
theorem deep_and_thin_brackets : (1 / deepPricing.bounds.1 : ℚ) < 1 / deepPricing.bounds.2 ∧
    (1 / (thinPricing ℚ).bounds.1 : ℚ) = 10 ^ 9 ∧ (thinPricing ℚ).tolerance 1 ≤ 1 := by
  decide +kernel

/-- No number is past the lower end of an empty bracket and before its upper end. -/
theorem deepPricing_unsolved : ¬ ∃ x, deepPricing.Solves 1 x := by
  rintro ⟨x, solves⟩
  exact absurd (solves.lower_le.trans solves.le_upper)
    (not_le.mpr (Rat.cast_lt.mpr deep_and_thin_brackets.1))

theorem thinPricing_unsolved : ¬ ∃ x, (thinPricing ℚ).Solves 1 x := by
  rintro ⟨x, solves⟩
  have hexact := thinPricing_comesTo (solves.comesTo_eq.trans Rat.cast_one)
  have hle := solves.le_upper
  rw [deep_and_thin_brackets.2.1] at hle
  push_cast at hle
  linarith

/-- A base amount with the price is far below every exact solution. -/
theorem thinPricing_far {price b : ℚ} {x : ℝ} (hprice : 3 / 10 ^ 10 ≤ price)
    (heq : price = (thinPricing ℚ).priceAt b)
    (hsolves : (thinPricing ℚ).comesTo x = ((1 : ℚ) : ℝ)) :
    ((thinPricing ℚ).tolerance 1 : ℝ) < |(b : ℝ) - x| := by
  have hexact := thinPricing_comesTo (hsolves.trans Rat.cast_one)
  have hsmall : (b : ℝ) ≤ 2 * 10 ^ 9 := by
    by_contra! hlarge
    have hlow := thinPricing_price_lt hlarge
    have hcast := (Rat.cast_le (K := ℝ)).mpr hprice
    rw [heq, SizedPricing.cast_priceAt, thinPricing_toReal] at hcast
    push_cast at hcast
    linarith
  have hcast := (Rat.cast_le (K := ℝ)).mpr deep_and_thin_brackets.2.2
  rw [Rat.cast_one] at hcast
  have hfar := neg_le_abs ((b : ℝ) - x)
  linarith

/-- The capped price is positive both times. Where the unadjusted price is negative, the search has
no bracket. Where the lower limit has an effect, the bracket has no solution, and a quote is
returned at a price that no base amount near to a solution has. -/
theorem sizings_disagree :
    (∃ p amount, quoteSized (pooledHandler (-150) (plainKnobs 95)) (pooledState 1)
        (amountRequest 1 "1") = some (p, amount) ∧ 0 < p.cappedPrice ∧ ¬ ∃ x, p.Solves amount x) ∧
      ∃ p amount trade quote, quoteSized (pooledHandler 50 (thinKnobs ℚ)) (pooledState 1)
          (amountRequest 2 "1") = some (p, amount) ∧ 0 < p.cappedPrice ∧
        (¬ ∃ x, p.Solves amount x) ∧
        (pricedTrade ℚ (pooledHandler 50 (thinKnobs ℚ)) (pooledState 1)
          (amountRequest 2 "1")).1 = .ok (trade, quote) ∧
        ¬ ∃ (b : ℚ) (x : ℝ), trade.price = p.priceAt b ∧ p.comesTo x = amount ∧
          |(b : ℝ) - x| ≤ p.tolerance amount := by
  constructor
  · exact ⟨deepPricing, 1, by decide +kernel, by decide +kernel, deepPricing_unsolved⟩
  · have hpriced : ((pricedTrade ℚ (pooledHandler 50 (thinKnobs ℚ)) (pooledState 1)
        (amountRequest 2 "1")).1.toOption.any fun t => decide (3 / 10 ^ 10 ≤ t.1.price)) = true := by
      decide +kernel
    cases h : (pricedTrade ℚ (pooledHandler 50 (thinKnobs ℚ)) (pooledState 1)
        (amountRequest 2 "1")).1 with
    | error e =>
      rw [h] at hpriced
      cases hpriced
    | ok priced =>
      obtain ⟨trade, quote⟩ := priced
      rw [h] at hpriced
      have hprice : 3 / 10 ^ 10 ≤ trade.price := of_decide_eq_true hpriced
      refine ⟨thinPricing ℚ, 1, trade, quote, by decide +kernel, by decide +kernel,
        thinPricing_unsolved, rfl, ?_⟩
      rintro ⟨b, x, heq, hsolves, hnear⟩
      exact absurd hnear (not_le.mpr (thinPricing_far hprice heq hsolves))

end Example

end BookAgent.CloudAgent
