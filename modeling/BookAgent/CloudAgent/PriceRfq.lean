import BookAgent.Lib.TenDecimals
import BookAgent.AgentLogic.QuoteSolve
import BookAgent.AgentLogic.RfqConfig
import BookAgent.AgentLogic.TokenFlows
import BookAgent.CloudAgent.RfqV2

/-!
# Pricing a request for quote

`price_rfq` of `rfq_handler.rs`: the configured spread, widened under stress and by the price
adjustment, on the mid price; then the bounds, the floor and the liquidity gate, and the rendered
quote. Floats are exact numbers; what is computed from one that is not finite is refused.
-/

namespace BookAgent.CloudAgent

open BookAgent.Lib BookAgent.AgentLogic

/-! ## Rejections -/

inductive RfqRejectionReason
  | unspecified
  | marketNotSupported
  | amountTooSmall
  | amountTooLarge
  | temporarilyUnavailable
  | marketConditions
  deriving DecidableEq

structure RejectInfo where
  reason : RfqRejectionReason
  reasonDetail : Option String
  minQuantity : Option String
  maxQuantity : Option String
  deriving DecidableEq

def RejectInfo.new (reason : RfqRejectionReason) (detail : String) : RejectInfo :=
  ⟨reason, some detail, none, none⟩

def reject {α : Type} (reason : RfqRejectionReason) (detail : String) : Except RejectInfo α :=
  .error (.new reason detail)

def priceError {α : Type} : Except RejectInfo α :=
  reject .temporarilyUnavailable "Price computation error"

/-! ## What is read while a request is priced -/

/-- The state of the issuance forecast. -/
structure Forecast where
  forecast : Int
  coefficient : ExactFloat
  overloadThreshold : ExactFloat

namespace Forecast

def isForecastLow (f : Forecast) : Bool := decide (f.forecast = 1)

def isSequencerOverloaded (f : Forecast) : Bool :=
  (ExactFloat.finite 0).lt f.coefficient && f.coefficient.lt f.overloadThreshold

def isRfqRejectedByOverload (f : Forecast) : Bool :=
  (ExactFloat.finite 0).lt f.coefficient &&
    f.coefficient.lt (f.overloadThreshold.sub (.finite (1 / 10)))

end Forecast

structure MarketMid where
  mid : ExactFloat
  poolDepth : Option (PoolDepth ℚ)

/-- What the liquidity gate is told. -/
structure GateAnswers where
  isReady : Bool
  /-- The age in seconds of a balance that is stale. -/
  staleSecs : String → Option Nat
  /-- The fee in CC for so many USD; none when it is out of range. -/
  estimateFeeCc : ℚ → Option ℚ
  available : String → ℚ

structure PricingState where
  ledgerUnhealthy : Bool
  forecast : Forecast
  midPrices : String → Option MarketMid
  /-- The mid prices again, when the USD reference is read. -/
  usdMidPrices : String → Option MarketMid
  liquidityManager : Option FlowManager
  now : Instant
  gate : GateAnswers
  /-- The trailing net of a party in a token. -/
  netPositions : Option (String → String → ℚ)

structure RfqHandler where
  markets : List MarketConfig
  venueOverrides : List VenueOverride
  defaultQuoteValidSecs : Nat
  minNotionalUsd : ExactFloat

/-- The arguments of `price_rfq`. -/
structure PriceRequest where
  marketId : String
  direction : Int
  quantity : String
  quoteQuantity : String
  enforceMinNotional : Bool
  venue : Option String
  venueBranch : Option String
  userParty : Option String

namespace PriceRequest

variable (r : PriceRequest)

def side : ImpactSide := if r.direction = 1 then .userBuys else .userSells

/-- The base and the quote token of the market. -/
def tokens : String × String :=
  match (r.marketId.toList.splitOn '-').map String.ofList with
  | [base, quote] => (base, quote)
  | _ => (r.marketId, "")

/-- The token that the LP pays. -/
def lpToken : String := if r.direction = 1 then r.tokens.1 else r.tokens.2

end PriceRequest

/-! ## The request -/

/-- `char::is_whitespace` -/
def isWhiteSpace (c : Char) : Bool :=
  let n := c.toNat
  decide (9 ≤ n ∧ n ≤ 13) || decide (0x2000 ≤ n ∧ n ≤ 0x200A) ||
    [0x20, 0x85, 0xA0, 0x1680, 0x2028, 0x2029, 0x202F, 0x205F, 0x3000].contains n

/-- The taker sizes the trade in the base or in the quote instrument. -/
inductive SizeMode
  | base (quantity : ExactFloat)
  | quote (amount : ℚ)

def sizeMode (r : PriceRequest) : Except RejectInfo SizeMode :=
  if !r.quoteQuantity.toList.all isWhiteSpace then
    match ExactFloat.parse r.quoteQuantity with
    | some (.finite q) =>
      if 0 < q then .ok (.quote q) else reject .unspecified "Invalid quote_quantity"
    | _ => reject .unspecified "Invalid quote_quantity"
  else
    match ExactFloat.parse r.quantity with
    | some q => .ok (.base q)
    | none => reject .unspecified "Invalid quantity"

/-- The section of the market with the venue's overlays, if it is open to the request. -/
def effectiveConfig (h : RfqHandler) (r : PriceRequest) : Except RejectInfo RfqMarketConfig :=
  match h.markets.find? fun m => decide (m.marketId = r.marketId) with
  | none => reject .marketNotSupported s!"Market {r.marketId} not supported"
  | some market =>
    if market.enabled = false then
      reject .marketNotSupported s!"Market {r.marketId} not supported"
    else
      match market.rfq with
      | none => reject .marketNotSupported "RFQ not enabled for this market"
      | some pair =>
        let cfg := resolveRfqConfig pair h.venueOverrides r.marketId r.venue r.venueBranch
        if cfg.enabled = false then
          reject .marketNotSupported
            (if pair.enabled then "RFQ not available for this venue"
              else "RFQ not enabled for this market")
        else if (if r.direction = 1 then cfg.disableOfferSide else cfg.disableBidSide) then
          reject .marketNotSupported "RFQ not available for this side"
        else .ok cfg

/-- The checks up to the mid price. -/
def acceptRequest (h : RfqHandler) (w : PricingState) (r : PriceRequest) :
    Except RejectInfo (RfqMarketConfig × SizeMode × MarketMid) := do
  let cfg ← effectiveConfig h r
  let mode ← sizeMode r
  if w.ledgerUnhealthy then reject .temporarilyUnavailable "Ledger temporarily unavailable"
  else if w.forecast.isRfqRejectedByOverload then
    reject .marketConditions "High demand, try later"
  else
    match w.midPrices r.marketId with
    | some m =>
      if (ExactFloat.finite 0).lt m.mid then return (cfg, mode, m)
      else reject .temporarilyUnavailable "No mid-price available"
    | none => reject .temporarilyUnavailable "No mid-price available"

/-! ## The spread -/

def spreadMultiplier (cfg : RfqMarketConfig) (f : Forecast) : ℚ :=
  if cfg.disableOverloadSpreadWidening then 1
  else if f.isSequencerOverloaded then 3
  else if f.isForecastLow then 2
  else 1

/-- The coefficient of the token that the LP pays; reading it flushes the token's flow. -/
def depletionCoeff (cfg : RfqMarketConfig) (manager : Option FlowManager) (token : String)
    (now : Instant) : ℚ × Option FlowManager :=
  if cfg.disableDepletionSpreadWidening then (0, manager)
  else
    match manager with
    | none => (0, none)
    | some m =>
      let (coeff, m) := m.depletionCoefficient token now
      (coeff, some m)

/-- Stress widens a protective spread only; an aggressive one is honoured as it is. -/
def stressCoefficient (spreadPercent multiplier : ℚ) : ℚ :=
  if 0 ≤ spreadPercent then multiplier else 1

def sideSpread (cfg : RfqMarketConfig) (r : PriceRequest) : ExactFloat :=
  if r.direction = 1 then cfg.offerSpreadPercent else cfg.bidSpreadPercent

/-! ## The price -/

section DirPrice

variable {K : Type} [Field K] [LinearOrder K]

/-- The LP offers above the mid price and bids below it. -/
def dirPrice (side : ImpactSide) (mid eff : K) : K :=
  match side with
  | .userBuys => mid * (1 + eff / 100.0)
  | .userSells => mid * (1 - eff / 100.0)

/-- A price that depends on the size of the trade. -/
structure SizedPricing (K : Type) where
  side : ImpactSide
  mid : K
  effSpreadBase : K
  signedNet : F64 K
  depth : PoolDepth K
  knobs : PoolImpactConfig K
  deriving DecidableEq

namespace SizedPricing

variable (p : SizedPricing K)

/-- The price of a trade that the adjustment adds so much to. -/
def priceWith (impact : K) : K := dirPrice p.side p.mid (p.effSpreadBase + impact)

variable [IsStrictOrderedRing K]

def impactAt (b : K) : K := poolImpactPercent p.side (some b) p.signedNet p.depth p.knobs

def priceAt (b : K) : K := p.priceWith (p.impactAt b)

/-- The price with the largest adjustment. -/
def cappedPrice : K := p.priceWith (nonNegative p.knobs.maxImpactPercent)

/-- What the capped price is raised to. -/
def lowerLimit : K := p.mid * 1e-9

/-- The floor and the ceiling of the search: the unadjusted price and the capped one. -/
def bounds : K × K :=
  let p0 := p.priceAt 0
  let pCap := max p.cappedPrice p.lowerLimit
  (min p0 pCap, max p0 pCap)

end SizedPricing

end DirPrice

/-- A trade with its price. -/
structure SizedTrade where
  price : ℚ
  quantity : ℚ
  quoteQuantity : ℚ
  appliedImpactPct : ℚ

/-- The price with the adjustment applied. -/
def SizedPricing.trade (p : SizedPricing ℚ) : SizeMode → Except RejectInfo SizedTrade
  | .base (.finite quantity) =>
    let price := p.priceAt quantity
    .ok ⟨price, quantity, quantity * price, p.impactAt quantity⟩
  | .base _ => priceError
  | .quote amount =>
    match solveBaseForQuote amount p.bounds.1 p.bounds.2 p.priceAt with
    | some b =>
      if 0 < b then
        let price := p.priceAt b
        .ok ⟨price, amount / price, amount, p.impactAt b⟩
      else priceError
    | none => priceError

/-- The price without an adjustment. -/
def plainTrade (price : ℚ) : SizeMode → Except RejectInfo SizedTrade
  | .base (.finite quantity) => .ok ⟨price, quantity, quantity * price, 0⟩
  | .base _ => priceError
  | .quote amount => .ok ⟨price, amount / price, amount, 0⟩

/-- The adjustment that is applied: it needs the section, enabled, and a depth. -/
def appliedPricing (cfg : RfqMarketConfig) (w : PricingState) (r : PriceRequest) (m : MarketMid)
    (mid effSpreadBase : ℚ) : Option (SizedPricing ℚ) :=
  match cfg.poolImpact, m.poolDepth with
  | some pool, some depth =>
    let net := match r.userParty, w.netPositions with
      | some party, some tracker => tracker party r.tokens.1
      | _, _ => 0
    if pool.enabled then some ⟨r.side, mid, effSpreadBase, some net, depth, pool.knobs⟩ else none
  | _, _ => none

/-- The inputs of a price; a depth and a net are finite. -/
def SizedPricing.snapshot (p : SizedPricing ℚ) (trade : SizedTrade) : PoolPricingSnapshot :=
  ⟨p.depth.baseReserve.getD 0, p.signedNet.getD 0, trade.appliedImpactPct, p.effSpreadBase⟩

/-- A price that is not positive is refused. -/
def positivePrice (trade : SizedTrade) : Except RejectInfo SizedTrade :=
  if 0 < trade.price then .ok trade else priceError

/-- The trade and, where the adjustment is applied, the inputs of the price. -/
def priceTrade (cfg : RfqMarketConfig) (w : PricingState) (r : PriceRequest) (mode : SizeMode)
    (m : MarketMid) (multiplier : ℚ) :
    Except RejectInfo (SizedTrade × Option PoolPricingSnapshot) :=
  match m.mid, sideSpread cfg r with
  | .finite mid, .finite spread =>
    let effSpreadBase := spread * stressCoefficient spread multiplier
    match appliedPricing cfg w r m mid effSpreadBase with
    | some p => do
      let trade ← p.trade mode
      let trade ← positivePrice trade
      return (trade, some (p.snapshot trade))
    | none => do
      let trade ← plainTrade (dirPrice r.side mid effSpreadBase) mode
      let trade ← positivePrice trade
      return (trade, none)
  | _, _ => priceError

/-! ## Bounds, floor and liquidity -/

/-- What reads and writes the numbers in texts. -/
class RfqCrates (D : Type) where
  /-- `Decimal::from_str` -/
  fromStr : String → Except String D
  /-- A float as `{}`. -/
  displayF64 : ExactFloat → String
  /-- A float as `{:.2}`. -/
  fixed2 : ExactFloat → String

section Gates

variable (D : Type) [RfqCrates D]

open RfqCrates (displayF64 fixed2)

/-- The base quantity is within the bounds of the market. -/
def checkBounds (cfg : RfqMarketConfig) (quantity : ℚ) : Except RejectInfo Unit :=
  let minQty := (ExactFloat.parse cfg.minQuantity).getD (.finite 0)
  match ExactFloat.parse cfg.maxQuantity with
  | some (.finite maxQty) =>
    if maxQty ≤ 0 then
      reject .marketNotSupported "RFQ not available for this market"
    else if (ExactFloat.finite quantity).lt minQty then
      .error ⟨.amountTooSmall, some s!"Min quantity: {displayF64 D minQty}", some cfg.minQuantity,
        some cfg.maxQuantity⟩
    else if maxQty < quantity then
      .error ⟨.amountTooLarge, some s!"Max quantity: {displayF64 D (.finite maxQty)}",
        some cfg.minQuantity, some cfg.maxQuantity⟩
    else .ok ()
  | _ => reject .marketNotSupported "RFQ not available for this market"

/-- The USD price of a token, where there is a reference. -/
def tokenUsdPrice (mids : String → Option MarketMid) (token : String) : Option ExactFloat :=
  if "USDC".toList.isPrefixOf token.toList then some (.finite 1)
  else ["USDCx", "USDC"].findSome? fun stable =>
    match mids (token ++ "-" ++ stable) with
    | some m => if (ExactFloat.finite 0).lt m.mid then some m.mid else none
    | none => none

/-- A number times a float. -/
def timesFloat (q : ℚ) : ExactFloat → ExactFloat
  | .finite p => .finite (q * p)
  | .inf negative => if q = 0 then .nan else .inf (negative != decide (q < 0))
  | .nan => .nan

def checkMinNotional (h : RfqHandler) (cfg : RfqMarketConfig) (enforce : Bool)
    (notionalUsd : Option ExactFloat) : Except RejectInfo Unit :=
  let minNotionalUsd := cfg.minNotionalUsd.getD h.minNotionalUsd
  if enforce && (ExactFloat.finite 0).lt minNotionalUsd then
    match notionalUsd with
    | some value =>
      if value.lt minNotionalUsd then
        reject .amountTooSmall s!"Min notional: ${fixed2 D minNotionalUsd}"
      else .ok ()
    | none => .ok ()
  else .ok ()

/-- `Decimal::from_f64_retain`: none when it is out of range. -/
def fromF64Retain (x : ExactFloat) : Option ℚ :=
  match x with
  | .finite q => if |q| ≤ maxDecimal then some q else none
  | _ => none

/-- Four times the fees of a settle, in USD. -/
def v1FeeHeadroomUsd (notionalUsd : Option ExactFloat) : Option ℚ := do
  let alloc ← match notionalUsd with
    | some n => fromF64Retain (n.scale (1 / 1000))
    | none => some 0
  let total := (3 / 10 + max alloc (7 / 10)) * 4
  if total ≤ maxDecimal then some total else none

/-- The LP has what it pays, and the CC for its fees. -/
def checkLiquidity (g : GateAnswers) (enforceMinNotional : Bool) (notionalUsd : Option ExactFloat)
    (allocToken : String) (allocAmount : ℚ) : Except RejectInfo Unit := do
  if g.isReady = false then reject .temporarilyUnavailable "Balances loading"
  else if (g.staleSecs allocToken).isSome then reject .temporarilyUnavailable "Balances stale"
  else
    let feeCc ← if enforceMinNotional then
        match v1FeeHeadroomUsd notionalUsd with
        | some feeUsd => .ok (g.estimateFeeCc feeUsd)
        | none => reject .amountTooLarge "Amount out of range"
      else .ok (some 0)
    match feeCc, fromF64Retain (.finite allocAmount) with
    | some feeCc, some alloc =>
      let needed := if allocToken = ccToken then alloc + feeCc else alloc
      let ccOk := decide (allocToken = ccToken) || decide (feeCc ≤ g.available ccToken)
      if maxDecimal < needed then reject .temporarilyUnavailable "Insufficient liquidity"
      else if g.available allocToken < needed || !ccOk then
        reject .temporarilyUnavailable "Insufficient liquidity"
      else .ok ()
    | _, _ => reject .temporarilyUnavailable "Insufficient liquidity"

end Gates

/-! ## The quote -/

/-- A priced request; the decimals are read from the texts. -/
structure RfqHandler.PricedQuote (D : Type) where
  marketId : String
  price : D
  quantity : D
  quoteQuantity : D
  priceStr : String
  quantityStr : String
  quoteQuantityStr : String
  lpPays : String × D
  notionalUsd : Option ExactFloat
  validForSecs : Nat
  allocateBeforeSecs : Nat
  settleBeforeSecs : Nat
  poolPricing : Option PoolPricingSnapshot

section Price

variable (D : Type) [RfqCrates D]

open RfqCrates (fromStr)

/-- The rendered quote of a trade. -/
def renderQuote (h : RfqHandler) (cfg : RfqMarketConfig) (r : PriceRequest) (trade : SizedTrade)
    (snapshot : Option PoolPricingSnapshot) (notionalUsd : Option ExactFloat) :
    Except RejectInfo (RfqHandler.PricedQuote D) :=
  let priceStr := fixed10 trade.price
  let quantityStr := fixed10 trade.quantity
  let quoteQuantityStr := fixed10 trade.quoteQuantity
  match fromStr (D := D) priceStr, fromStr (D := D) quantityStr,
      fromStr (D := D) quoteQuantityStr with
  | .ok price, .ok quantity, .ok quoteQuantity =>
    .ok {
      marketId := r.marketId
      price, quantity, quoteQuantity, priceStr, quantityStr, quoteQuantityStr
      lpPays := (r.lpToken, if r.direction = 1 then quantity else quoteQuantity)
      notionalUsd
      validForSecs := cfg.quoteValidSecs.getD h.defaultQuoteValidSecs
      allocateBeforeSecs := cfg.allocateBeforeSecs
      settleBeforeSecs := cfg.settleBeforeSecs
      poolPricing := snapshot }
  | _, _, _ => priceError

/-- From the spread on, with the multiplier that stress comes to. -/
def priceAccepted (h : RfqHandler) (w : PricingState) (r : PriceRequest) (cfg : RfqMarketConfig)
    (mode : SizeMode) (m : MarketMid) (multiplier : ℚ) :
    Except RejectInfo (SizedTrade × RfqHandler.PricedQuote D) := do
  let (trade, snapshot) ← priceTrade cfg w r mode m multiplier
  checkBounds D cfg trade.quantity
  let notionalUsd := (tokenUsdPrice w.usdMidPrices r.tokens.2).map (timesFloat trade.quoteQuantity)
  checkMinNotional D h cfg r.enforceMinNotional notionalUsd
  let allocAmount := if r.direction = 1 then trade.quantity else trade.quoteQuantity
  (match w.liquidityManager with
    | some _ => checkLiquidity w.gate r.enforceMinNotional notionalUsd r.lpToken allocAmount
    | none => .ok ())
  let quote ← renderQuote D h cfg r trade snapshot notionalUsd
  return (trade, quote)

/-- The quote with the trade it renders, and the liquidity manager afterwards. -/
def pricedTrade (h : RfqHandler) (w : PricingState) (r : PriceRequest) :
    Except RejectInfo (SizedTrade × RfqHandler.PricedQuote D) × Option FlowManager :=
  match acceptRequest h w r with
  | .error e => (.error e, w.liquidityManager)
  | .ok (cfg, mode, m) =>
    let (depletion, manager) := depletionCoeff cfg w.liquidityManager r.lpToken w.now
    (priceAccepted D h w r cfg mode m (spreadMultiplier cfg w.forecast + depletion), manager)

def priceRfq (h : RfqHandler) (w : PricingState) (r : PriceRequest) :
    Except RejectInfo (RfqHandler.PricedQuote D) × Option FlowManager :=
  let (priced, manager) := pricedTrade D h w r
  (priced.map Prod.snd, manager)

end Price

end BookAgent.CloudAgent
