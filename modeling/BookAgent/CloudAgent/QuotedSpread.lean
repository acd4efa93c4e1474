import BookAgent.Lib.Fallible
import BookAgent.AgentLogic.RealImpact
import BookAgent.CloudAgent.PriceRfq

/-!
# The quoted spread

Whatever stress, depletion and the price adjustment do to it, a quote is no better for the taker
than the configured spread.
-/

namespace BookAgent.CloudAgent

open BookAgent.Lib BookAgent.AgentLogic

/-! ## Widening -/

theorem one_le_spreadMultiplier (cfg : RfqMarketConfig) (f : Forecast) :
    1 ≤ spreadMultiplier cfg f := by
  unfold spreadMultiplier
  split_ifs <;> norm_num

theorem depletionCoeff_nonneg (cfg : RfqMarketConfig) (manager : Option FlowManager)
    (token : String) (now : Instant) : 0 ≤ (depletionCoeff cfg manager token now).1 := by
  unfold depletionCoeff
  split
  · exact le_rfl
  · cases manager with
    | none => exact le_rfl
    | some m => exact (m.depletionCoefficient_range token now).1

/-- Stress adds to the spread, or leaves it as it is. -/
theorem le_stressed {spread multiplier : ℚ} (h : 1 ≤ multiplier) :
    spread ≤ spread * stressCoefficient spread multiplier := by
  unfold stressCoefficient
  split
  · rename_i hspread
    exact le_mul_of_one_le_right hspread h
  · rw [mul_one]

theorem SizedPricing.impactAt_nonneg (p : SizedPricing ℚ) (b : ℚ) : 0 ≤ p.impactAt b :=
  (poolImpactPercent_mem _ _ _ _ _).1

/-! ## The price of a trade -/

/-- A trade for a quote amount is at the price of the base amount that is solved for. -/
theorem SizedPricing.of_quoteTrade {p : SizedPricing ℚ} {amount : ℚ} {trade : SizedTrade}
    (h : p.trade (.quote amount) = .ok trade) :
    ∃ b, solveBaseForQuote amount p.bounds.1 p.bounds.2 p.priceAt = some b ∧ 0 < b ∧
      trade = ⟨p.priceAt b, amount / p.priceAt b, amount, p.impactAt b⟩ := by
  unfold SizedPricing.trade at h
  dsimp only at h
  split at h
  · rename_i b hsolve
    split at h
    · rename_i hb
      exact ⟨b, hsolve, hb, (Except.ok.inj h).symm⟩
    · cases h
  · cases h

/-- The price with the adjustment is that of some base amount. -/
theorem SizedPricing.price_of_trade {p : SizedPricing ℚ} {mode : SizeMode} {trade : SizedTrade}
    (h : p.trade mode = .ok trade) : ∃ b, trade.price = p.priceAt b := by
  cases mode with
  | base quantity =>
    cases quantity with
    | finite quantity =>
      obtain rfl := Except.ok.inj h
      exact ⟨quantity, rfl⟩
    | inf negative => cases h
    | nan => cases h
  | quote amount =>
    obtain ⟨b, -, -, rfl⟩ := of_quoteTrade h
    exact ⟨b, rfl⟩

theorem price_of_plainTrade {price : ℚ} {mode : SizeMode} {trade : SizedTrade}
    (h : plainTrade price mode = .ok trade) : trade.price = price := by
  cases mode with
  | base quantity =>
    cases quantity with
    | finite quantity =>
      obtain rfl := Except.ok.inj h
      rfl
    | inf negative => cases h
    | nan => cases h
  | quote amount =>
    obtain rfl := Except.ok.inj h
    rfl

theorem of_positivePrice {trade trade' : SizedTrade} (h : positivePrice trade = .ok trade') :
    trade' = trade ∧ 0 < trade.price := by
  unfold positivePrice at h
  split at h
  · rename_i hpos
    exact ⟨(Except.ok.inj h).symm, hpos⟩
  · cases h

/-- The pricing that is applied is that of the request's side on the mid price and the spread. -/
theorem of_appliedPricing {cfg : RfqMarketConfig} {w : PricingState} {r : PriceRequest}
    {m : MarketMid} {mid eff : ℚ} {p : SizedPricing ℚ}
    (h : appliedPricing cfg w r m mid eff = some p) :
    p.side = r.side ∧ p.mid = mid ∧ p.effSpreadBase = eff := by
  unfold appliedPricing at h
  split at h
  · dsimp only at h
    split at h
    · obtain rfl := Option.some.inj h
      exact ⟨rfl, rfl, rfl⟩
    · cases h
  · cases h

/-- The price is on the configured spread, widened by something. -/
def OnSpread (cfg : RfqMarketConfig) (r : PriceRequest) (m : MarketMid) (price : ℚ) : Prop :=
  ∃ mid spread widening, m.mid = .finite mid ∧ sideSpread cfg r = .finite spread ∧ 0 ≤ widening ∧
    price = dirPrice r.side mid (spread + widening)

theorem onSpread_of_priceTrade {cfg : RfqMarketConfig} {w : PricingState} {r : PriceRequest}
    {mode : SizeMode} {m : MarketMid} {multiplier : ℚ} {trade : SizedTrade}
    {snapshot : Option PoolPricingSnapshot} (hmultiplier : 1 ≤ multiplier)
    (h : priceTrade cfg w r mode m multiplier = .ok (trade, snapshot)) :
    OnSpread cfg r m trade.price := by
  unfold priceTrade at h
  split at h
  · rename_i mid spread hmid hspread
    have hstressed : spread ≤ spread * stressCoefficient spread multiplier := le_stressed hmultiplier
    dsimp only at h
    split at h
    · rename_i p happlied
      obtain ⟨trade', htrade, h⟩ := bind_eq_ok.mp h
      obtain ⟨trade'', hpositive, h⟩ := bind_eq_ok.mp h
      obtain ⟨rfl, -⟩ := Prod.mk.inj (pure_eq_ok.mp h)
      obtain ⟨rfl, -⟩ := of_positivePrice hpositive
      obtain ⟨b, hprice⟩ := SizedPricing.price_of_trade htrade
      obtain ⟨hside, hpmid, heff⟩ := of_appliedPricing happlied
      refine ⟨mid, spread, spread * stressCoefficient spread multiplier - spread + p.impactAt b,
        hmid, hspread, add_nonneg (sub_nonneg.mpr hstressed) (p.impactAt_nonneg b), ?_⟩
      rw [hprice, SizedPricing.priceAt, SizedPricing.priceWith, hside, hpmid, heff, ← add_assoc,
        add_sub_cancel]
    · obtain ⟨trade', htrade, h⟩ := bind_eq_ok.mp h
      obtain ⟨trade'', hpositive, h⟩ := bind_eq_ok.mp h
      obtain ⟨rfl, -⟩ := Prod.mk.inj (pure_eq_ok.mp h)
      obtain ⟨rfl, -⟩ := of_positivePrice hpositive
      refine ⟨mid, spread, spread * stressCoefficient spread multiplier - spread, hmid, hspread,
        sub_nonneg.mpr hstressed, ?_⟩
      rw [price_of_plainTrade htrade, add_sub_cancel]
  · cases h

/-! ## The rendered price -/

section Quoted

variable {D : Type} [RfqCrates D] {handler : RfqHandler} {w : PricingState} {r : PriceRequest}

open RfqCrates (fromStr)

/-- The texts of a quote are those of its trade, and its decimals are read from them. -/
structure Renders (trade : SizedTrade) (quote : RfqHandler.PricedQuote D) : Prop where
  price : quote.priceStr = fixed10 trade.price
  quantity : quote.quantityStr = fixed10 trade.quantity
  quoteQuantity : quote.quoteQuantityStr = fixed10 trade.quoteQuantity
  price_eq : fromStr quote.priceStr = .ok quote.price
  quantity_eq : fromStr quote.quantityStr = .ok quote.quantity
  quoteQuantity_eq : fromStr quote.quoteQuantityStr = .ok quote.quoteQuantity

theorem renders_of_renderQuote {cfg : RfqMarketConfig} {trade : SizedTrade}
    {snapshot : Option PoolPricingSnapshot} {notionalUsd : Option ExactFloat}
    {quote : RfqHandler.PricedQuote D}
    (h : renderQuote D handler cfg r trade snapshot notionalUsd = .ok quote) :
    Renders trade quote := by
  unfold renderQuote at h
  dsimp only at h
  split at h
  · rename_i price quantity quoteQuantity hprice hquantity hquote
    obtain rfl := Except.ok.inj h
    exact ⟨rfl, rfl, rfl, hprice, hquantity, hquote⟩
  · cases h

/-- What a quote is priced from. -/
structure Priced (handler : RfqHandler) (w : PricingState) (r : PriceRequest)
    (cfg : RfqMarketConfig) (mode : SizeMode) (m : MarketMid) (multiplier : ℚ)
    (trade : SizedTrade) : Prop where
  config : effectiveConfig handler r = .ok cfg
  sized : sizeMode r = .ok mode
  atMid : w.midPrices r.marketId = some m
  mid_pos : (ExactFloat.finite 0).lt m.mid = true
  one_le : 1 ≤ multiplier
  priced : ∃ snapshot, priceTrade cfg w r mode m multiplier = .ok (trade, snapshot)

theorem of_acceptRequest {cfg : RfqMarketConfig} {mode : SizeMode} {m : MarketMid}
    (h : acceptRequest handler w r = .ok (cfg, mode, m)) :
    effectiveConfig handler r = .ok cfg ∧ sizeMode r = .ok mode ∧
      w.midPrices r.marketId = some m ∧ (ExactFloat.finite 0).lt m.mid = true := by
  unfold acceptRequest at h
  obtain ⟨cfg', hcfg, h⟩ := bind_eq_ok.mp h
  obtain ⟨mode', hmode, h⟩ := bind_eq_ok.mp h
  split at h
  · cases h
  · split at h
    · cases h
    · split at h
      · rename_i m' hm
        split at h
        · rename_i hpos
          obtain ⟨rfl, hrest⟩ := Prod.mk.inj (pure_eq_ok.mp h)
          obtain ⟨rfl, rfl⟩ := Prod.mk.inj hrest
          exact ⟨hcfg, hmode, hm, hpos⟩
        · cases h
      · cases h

theorem of_priceAccepted {cfg : RfqMarketConfig} {mode : SizeMode} {m : MarketMid} {multiplier : ℚ}
    {trade : SizedTrade} {quote : RfqHandler.PricedQuote D}
    (h : priceAccepted D handler w r cfg mode m multiplier = .ok (trade, quote)) :
    (∃ snapshot, priceTrade cfg w r mode m multiplier = .ok (trade, snapshot)) ∧
      Renders trade quote := by
  unfold priceAccepted at h
  obtain ⟨⟨trade', snapshot⟩, htrade, h⟩ := bind_eq_ok.mp h
  dsimp only at h
  obtain ⟨-, -, h⟩ := bind_eq_ok.mp h
  obtain ⟨-, -, h⟩ := bind_eq_ok.mp h
  obtain ⟨-, -, h⟩ := bind_eq_ok.mp h
  obtain ⟨quote', hquote, h⟩ := bind_eq_ok.mp h
  obtain ⟨rfl, rfl⟩ := Prod.mk.inj (pure_eq_ok.mp h)
  exact ⟨⟨snapshot, htrade⟩, renders_of_renderQuote hquote⟩

/-- A quote renders a trade that was priced from the configuration, the request and the mid
price. -/
theorem priced_of_priceRfq {quote : RfqHandler.PricedQuote D}
    (h : (priceRfq D handler w r).1 = .ok quote) :
    ∃ trade cfg mode m multiplier, (pricedTrade D handler w r).1 = .ok (trade, quote) ∧
      Priced handler w r cfg mode m multiplier trade ∧ Renders trade quote := by
  unfold priceRfq at h
  obtain ⟨⟨trade, quote'⟩, hpriced, rfl⟩ := map_eq_ok.mp h
  have hpriced : (pricedTrade D handler w r).1 = .ok (trade, quote') := hpriced
  refine ⟨trade, ?_⟩
  have haccepted := hpriced
  unfold pricedTrade at haccepted
  split at haccepted
  · cases haccepted
  · rename_i cfg mode m haccept
    obtain ⟨hcfg, hmode, hmid, hpos⟩ := of_acceptRequest haccept
    obtain ⟨htrade, hrenders⟩ := of_priceAccepted haccepted
    refine ⟨cfg, mode, m, _, hpriced, ⟨hcfg, hmode, hmid, hpos, ?_, htrade⟩, hrenders⟩
    have hone := one_le_spreadMultiplier cfg w.forecast
    have hnonneg := depletionCoeff_nonneg cfg w.liquidityManager r.lpToken w.now
    linarith

/-- No better for the taker than the configured spread of the request's side. -/
structure BeyondSpread (cfg : RfqMarketConfig) (r : PriceRequest) (mid price : ℚ) : Prop where
  buys : r.direction = 1 → ∃ spread, cfg.offerSpreadPercent = .finite spread ∧
    mid * (1 + spread / 100) ≤ price
  sells : r.direction ≠ 1 → ∃ spread, cfg.bidSpreadPercent = .finite spread ∧
    price ≤ mid * (1 - spread / 100)

theorem OnSpread.beyond {cfg : RfqMarketConfig} {m : MarketMid} {mid price : ℚ}
    (h : OnSpread cfg r m price) (hmid : m.mid = .finite mid) (hpos : 0 < mid) :
    BeyondSpread cfg r mid price := by
  obtain ⟨mid', spread, widening, hmid', hspread, hwidening, rfl⟩ := h
  obtain rfl := ExactFloat.finite.inj (hmid.symm.trans hmid')
  unfold sideSpread at hspread
  unfold PriceRequest.side dirPrice
  constructor
  · intro hbuys
    rw [if_pos hbuys] at hspread ⊢
    exact ⟨spread, hspread, mul_le_mul_of_nonneg_left (by linarith) hpos.le⟩
  · intro hsells
    rw [if_neg hsells] at hspread ⊢
    exact ⟨spread, hspread, mul_le_mul_of_nonneg_left (by linarith) hpos.le⟩

/-- **A quote never beats the configured spread.** Its text is a price rounded to ten decimals that
is on the effective configuration's spread, widened in the LP's favour. -/
theorem priceRfq_beyondSpread {quote : RfqHandler.PricedQuote D}
    (h : (priceRfq D handler w r).1 = .ok quote) :
    ∃ cfg m mid price shown, effectiveConfig handler r = .ok cfg ∧
      w.midPrices r.marketId = some m ∧ m.mid = .finite mid ∧ 0 < mid ∧
      BeyondSpread cfg r mid price ∧ OnSpread cfg r m price ∧
      fromStr quote.priceStr = .ok quote.price ∧ plainValue quote.priceStr = some shown ∧
      |shown - price| ≤ 1 / 2 / 10 ^ 10 := by
  obtain ⟨trade, cfg, mode, m, multiplier, -, priced, renders⟩ := priced_of_priceRfq h
  obtain ⟨snapshot, htrade⟩ := priced.priced
  have onSpread := onSpread_of_priceTrade priced.one_le htrade
  have hshown := plainValue_fixed10 trade.price
  have hround := abs_tenDecimals_sub_le trade.price
  have hmid := onSpread
  obtain ⟨mid, -, -, hmid, -⟩ := hmid
  have hpos : 0 < mid := by
    have hlt := priced.mid_pos
    rw [hmid] at hlt
    exact ExactFloat.lt_finite.mp hlt
  exact ⟨cfg, m, mid, trade.price, _, priced.config, priced.atMid, hmid, hpos,
    onSpread.beyond hmid hpos, onSpread, renders.price_eq, renders.price ▸ hshown, hround⟩

end Quoted

/-! ## A quote under stress -/

section Example

/-- Numbers are read from plain texts. -/
local instance rationalCrates : RfqCrates ℚ where
  fromStr s := context "invalid decimal" (plainValue s)
  displayF64 _ := ""
  fixed2 _ := ""

def abMarket : MarketConfig where
  marketId := "A-B"
  enabled := true
  rfq := some {
    enabled := true
    minQuantity := "1"
    maxQuantity := "100"
    bidSpreadPercent := .finite 1
    offerSpreadPercent := .finite 1
    disableOverloadSpreadWidening := false
    disableDepletionSpreadWidening := false
    disableOfferSide := false
    disableBidSide := false
    quoteValidSecs := none
    allocateBeforeSecs := 900
    settleBeforeSecs := 1800
    minNotionalUsd := none
    poolImpact := none }

def abHandler : RfqHandler := ⟨[abMarket], [], 30, .finite 0⟩

/-- The forecast is low. -/
def abState : PricingState where
  ledgerUnhealthy := false
  forecast := ⟨1, .finite 1, .finite (1 / 2)⟩
  midPrices id := if id = "A-B" then some ⟨.finite 100, none⟩ else none
  usdMidPrices _ := none
  liquidityManager := none
  now := 0
  gate := ⟨true, fun _ => none, fun _ => none, fun _ => 0⟩
  netPositions := none

/-- Ten are bought. -/
def abRequest : PriceRequest := ⟨"A-B", 1, "10", "", false, none, none, none⟩

example : (priceRfq ℚ abHandler abState abRequest).1.toOption.map
    (fun q => (q.priceStr, q.quoteQuantityStr)) = some ("102.0000000000", "1020.0000000000") := by
  decide +kernel

theorem priceRfq_beyondSpread_stressed :
    ∃ quote, (priceRfq ℚ abHandler abState abRequest).1 = .ok quote ∧
      ∃ cfg m mid price shown, effectiveConfig abHandler abRequest = .ok cfg ∧
        abState.midPrices abRequest.marketId = some m ∧ m.mid = .finite mid ∧ 0 < mid ∧
        BeyondSpread cfg abRequest mid price ∧ OnSpread cfg abRequest m price ∧
        RfqCrates.fromStr quote.priceStr = .ok quote.price ∧
        plainValue quote.priceStr = some shown ∧ |shown - price| ≤ 1 / 2 / 10 ^ 10 := by
  have hok : (priceRfq ℚ abHandler abState abRequest).1.isOk = true := by decide +kernel
  obtain ⟨quote, h⟩ := exists_of_isOk hok
  exact ⟨quote, h, priceRfq_beyondSpread h⟩

end Example

end BookAgent.CloudAgent
