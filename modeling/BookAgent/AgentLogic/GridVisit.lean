import BookAgent.AgentLogic.Grid
import BookAgent.AgentLogic.OrderTracker

/-!
# A visit of the grid cycle

`visit_market` and what it calls (`order_manager.rs`): the price with its teardown and restore, the
funding of the sides, parking, the retry of failed cancels, the plan and its execution. A visit gets
the answers of its calls and the results of its shutdown checks, and says which cancels and placements
it made. The shaped offers, and whether they changed, come with the answers.
-/

namespace BookAgent.AgentLogic

open BookAgent.Lib

/-- The fields of a market's configuration that the grid reads. -/
structure GridMarket where
  marketId : String
  bidLevels : List PriceLevel
  offerLevels : List PriceLevel
  priceChangeThresholdPercent : ℚ

/-! ## Funding -/

structure TokenBalance where
  instrumentId : String
  unlockedAmount : String
  isCantonCoin : Bool

inductive UnknownWhy
  | aged
  | feeReserve
  deriving DecidableEq

structure GridFunding where
  bid : Funding := .unknown
  offer : Funding := .unknown
  why : Option UnknownWhy := none
  ccAvail : ℚ := 0
  bidNeed : ℚ := 0
  bidAvail : ℚ := 0
  offerNeed : ℚ := 0
  offerAvail : ℚ := 0

/-- `stale_after_secs == 0` disables the age check; a snapshot is still required. -/
def balancesUsable (setAt : Option Instant) (staleAfterSecs : Nat) (now : Instant) : Bool :=
  match setAt with
  | none => false
  | some t => staleAfterSecs == 0 || decide ((now - t) / seconds 1 < staleAfterSecs)

def unlockedCc (balances : List TokenBalance) : ℚ :=
  ((balances.find? (·.isCantonCoin)).bind fun b => plainValue b.unlockedAmount).getD 0

def unlockedToken (balances : List TokenBalance) (instrumentId : String) : ℚ :=
  ((balances.find? fun b => b.instrumentId == instrumentId).bind fun b =>
    plainValue b.unlockedAmount).getD 0

def sideFunding (need avail : ℚ) : Funding := if 0 < need ∧ avail < need then .short else .funded

/-- `split_once('-')`, of an id with one dash only. -/
def baseQuote (marketId : String) : Option (String × String) :=
  let base := marketId.toList.takeWhile (· != '-')
  match marketId.toList.drop base.length with
  | [] => none
  | _ :: quote => if '-' ∈ quote then none else some (String.ofList base, String.ofList quote)

/-- Aged data or too little for the fees: nothing is known. Without a price the bids are unknown. -/
def gridFunding (balances : List TokenBalance) (usable : Bool) (market : GridMarket) (mid : Option ℚ)
    (offerLevels : List PriceLevel) (feeReserveCc : ℚ) : GridFunding :=
  if !usable || balances.isEmpty then { why := some .aged }
  else
    match baseQuote market.marketId with
    | none => { bid := .funded, offer := .funded }
    | some (base, quote) =>
      let cc := unlockedCc balances
      let unlocked (token : String) : ℚ := if token = "CC" then cc else unlockedToken balances token
      let avail (token : String) : ℚ :=
        if token = "CC" then unlocked token - feeReserveCc else unlocked token
      if cc < feeReserveCc then { why := some .feeReserve, ccAvail := cc }
      else
        let offerNeed := (offerLevels.map fun l => (plainValue l.quantity).getD 0).sum
        let out : GridFunding :=
          { ccAvail := cc
            bidAvail := avail quote
            offerAvail := avail base
            offerNeed
            offer := sideFunding offerNeed (avail base) }
        match mid.filter fun m => decide (0 < m) with
        | none => out
        | some m =>
          let bidNeed := (market.bidLevels.map fun l =>
            (plainValue l.quantity).getD 0 * m * (1 + l.deltaPercent / 100)).sum
          { out with bidNeed, bid := sideFunding bidNeed (avail quote) }

/-! ## The state of a market -/

def SideCounts.anyResting (c : SideCounts) : Bool := decide (0 < c.bids) || decide (0 < c.offers)

/-- The price each side was last placed at. -/
structure SideAnchors where
  bid : Option ℚ := none
  offer : Option ℚ := none
  deriving DecidableEq

/-- What the order manager keeps of a market. -/
structure MarketGrid where
  priceFailStreak : Nat := 0
  priceRestoreStreak : Nat := 0
  priceless : Bool := false
  forceRefresh : Bool := false
  parked : Bool := false
  /-- What rested at the last visit, if that left everything as it was. -/
  lastResting : Option SideCounts := none
  lastProbe : Option Instant := none
  lastSeenPrice : Option ℚ := none
  pendingCancels : List Nat := []
  anchors : SideAnchors := {}

structure CycleReport where
  markets : Nat := 0
  noLevels : Nat := 0
  parked : Nat := 0
  heldUnknown : Nat := 0
  refreshed : Nat := 0
  placed : Nat := 0
  cancelled : Nat := 0
  deferred : Nat := 0

/-- `saturating_add` of `u32` -/
def addU32 (a b : Nat) : Nat := min (a + b) (2 ^ 32 - 1)

def unfundedProbe : Nat := seconds 60

/-- No call is needed: nothing rested at the last visit that changed nothing, no side can be funded,
and the last probe is recent. -/
def canPark (funding : GridFunding) (bidExpected offerExpected : Nat) (lastResting : Option SideCounts)
    (probeAge : Option Nat) : Bool :=
  let unfundable (f : Funding) (expected : Nat) : Bool :=
    f == .short || (f == .funded && expected == 0)
  lastResting.any (fun r => !r.anyResting) && unfundable funding.bid bidExpected &&
    unfundable funding.offer offerExpected && probeAge.any fun age => decide (age < unfundedProbe)

/-! ## The answers of a visit -/

/-- How a placement ends. -/
inductive PlaceEnd
  | placed (id : Nat)
  /-- The call failed and the venue booked nothing. -/
  | failed
  /-- The call failed, and the venue booked the order. -/
  | landed (id : Nat)
  /-- No order reference could be made, and no call. -/
  | noRef

/-- Where the visit looks whether a shutdown was signalled. -/
inductive StopCheck
  | beforeOrders
  | retry (id : Nat)
  | uncross
  | execute
  | op (index : Nat)
  | unquoted
  | withdraw (id : Nat)

structure VisitAnswers where
  now : Instant
  stop : StopCheck → Bool
  balances : List TokenBalance
  balancesSetAt : Option Instant
  balanceStaleAfterSecs : Nat
  /-- When the funding is judged again, with the price. -/
  pricedAt : Instant
  feeReserveCc : ℚ
  /-- The shaped offers before the price is fetched, and with it. -/
  shapedBefore : List PriceLevel
  shaped : List PriceLevel
  shapeChanged : Bool
  /-- A price that is not finite counts as an error. -/
  price : Except String ℚ
  orders : Except String (List Order)
  tick : ℚ
  /-- The order in which the set of failed cancels is gone through. -/
  retryOrder : List Nat → List Nat
  retryOrder_perm (ids : List Nat) : (retryOrder ids).Perm ids
  /-- Whether a cancel succeeds: one that is retried, and one of the visit's own. -/
  retried : Nat → Bool
  cancel : Nat → Bool
  place : Nat → PlaceEnd

namespace VisitAnswers

variable (a : VisitAnswers) (market : GridMarket)

/-- The price, if it is above 0. -/
def usablePrice : Option ℚ := a.price.toOption.filter fun p => decide (0 < p)

/-- `check_grid_balance` before the price is fetched. -/
def fundingBefore (seenPrice : Option ℚ) : GridFunding :=
  gridFunding a.balances (balancesUsable a.balancesSetAt a.balanceStaleAfterSecs a.now) market
    seenPrice a.shapedBefore a.feeReserveCc

/-- `check_grid_balance` with the price. -/
def funding (price : ℚ) : GridFunding :=
  gridFunding a.balances (balancesUsable a.balancesSetAt a.balanceStaleAfterSecs a.pricedAt) market
    (some price) a.shaped a.feeReserveCc

end VisitAnswers

/-- The calls that change the book, with how they end. -/
inductive GridCall
  | cancel (id : Nat) (ok : Bool)
  | place (side : OrderSide) (price quantity : String) (result : PlaceEnd)

/-- What an operation of a visit leaves. -/
structure Visited where
  grid : MarketGrid
  report : CycleReport
  calls : List GridCall

def noteCancelled (report : CycleReport) (calls : List GridCall) : CycleReport :=
  { report with
    cancelled := addU32 report.cancelled (calls.countP fun
      | .cancel _ ok => ok
      | .place .. => false) }

namespace MarketGrid

/-! ## The price -/

/-- `handle_priceless`: all listed orders are cancelled. -/
def handlePriceless (g : MarketGrid) (a : VisitAnswers) : MarketGrid × List GridCall :=
  ({ g with priceless := true, anchors := {}, lastResting := none, pendingCancels := [] },
    match a.orders with
    | .ok orders => orders.map fun o => .cancel o.orderId (a.cancel o.orderId)
    | .error _ => [])

/-- A priceless market resumes on the second success in a row. -/
def acceptPrice (g : MarketGrid) (p : ℚ) : MarketGrid × Option ℚ :=
  let g := { g with priceFailStreak := 0, lastSeenPrice := some p }
  if g.priceless then
    let streak := addU32 g.priceRestoreStreak 1
    if streak < 2 then ({ g with priceRestoreStreak := streak }, none)
    else
      ({ g with priceRestoreStreak := 0, priceless := false, forceRefresh := true }, some p)
  else (g, some p)

/-- A failed fetch: the market is torn down at the second in a row. -/
def refusePrice (g : MarketGrid) (a : VisitAnswers) : MarketGrid × List GridCall :=
  let failed := { g with priceRestoreStreak := 0, priceFailStreak := addU32 g.priceFailStreak 1 }
  if 2 ≤ addU32 g.priceFailStreak 1 ∨ g.priceless = true then failed.handlePriceless a
  else (failed, [])

/-- The price, if the market is to be quoted at it. -/
def fetchGridPrice (g : MarketGrid) (a : VisitAnswers) : MarketGrid × Option ℚ × List GridCall :=
  a.usablePrice.elim ((g.refusePrice a).1, none, (g.refusePrice a).2) fun p =>
    ((g.acceptPrice p).1, (g.acceptPrice p).2, [])

/-! ## Orders -/

/-- The calls of the retries, until the visit is stopped. -/
def retryCalls (a : VisitAnswers) : List Nat → List GridCall
  | [] => []
  | id :: ids =>
    if a.stop (.retry id) then [] else .cancel id (a.retried id) :: retryCalls a ids

/-- The ids that a list of calls cancelled. -/
def cancelledIds (calls : List GridCall) : List Nat :=
  calls.filterMap fun
    | .cancel id true => some id
    | _ => none

/-- The ids that are on the book because of the calls. -/
def placedIds (calls : List GridCall) : List Nat :=
  calls.filterMap fun
    | .place _ _ _ (.placed id) => some id
    | .place _ _ _ (.landed id) => some id
    | _ => none

/-- Failed cancels that are still listed are tried again; the listing is left without the orders
cancelled now. -/
def retryFailedCancels (g : MarketGrid) (a : VisitAnswers) (orders : List Order) :
    MarketGrid × List Order × List GridCall :=
  let pending := g.pendingCancels.filter fun id => orders.any fun o => o.orderId == id
  let calls := retryCalls a (a.retryOrder pending)
  let gone := cancelledIds calls
  ({ g with pendingCancels := pending.filter fun id => !gone.contains id },
    orders.filter fun o => !gone.contains o.orderId, calls)

/-- `withdraw_unquoted`: the calls, and whether all that was listed is cancelled. -/
def withdrawCalls (a : VisitAnswers) : List Order → List GridCall × Bool
  | [] => ([], true)
  | o :: orders =>
    if a.stop (.withdraw o.orderId) then ([], false)
    else
      let rest := withdrawCalls a orders
      (.cancel o.orderId (a.cancel o.orderId) :: rest.1, a.cancel o.orderId && rest.2)

def noCounts : SideCounts := ⟨0, 0, false, false⟩

/-- What rests in a market without rungs is cancelled. -/
def withdrawUnquoted (g : MarketGrid) (a : VisitAnswers) (report : CycleReport) : Visited :=
  let g := { g with pendingCancels := [] }
  let probeAge := g.lastProbe.map (a.now - ·)
  let seenEmpty := g.lastResting.any fun r => !r.anyResting
  if (seenEmpty && probeAge.any fun age => decide (age < unfundedProbe)) || a.stop .unquoted then
    ⟨g, report, []⟩
  else
    let g := { g with lastProbe := some a.now }
    match a.orders with
    | .error _ => ⟨g, report, []⟩
    | .ok orders =>
      let (calls, allCancelled) := withdrawCalls a orders
      ⟨{ g with lastResting := if allCancelled then some noCounts else none },
        noteCancelled report calls, calls⟩

/-! ## The plan -/

/-- Whether `price` is past the threshold from the anchor. -/
def movedPast (anchor : Option ℚ) (price thresholdPct : ℚ) : Bool :=
  match anchor with
  | none => false
  | some last => decide (thresholdPct ≤ |price - last| / last * 100)

/-- A replaced side takes the price; a kept one that rests without an anchor adopts it. -/
def nextAnchor (price : ℚ) (anchor : Option ℚ) (action : SideAction) (count : Nat) : Option ℚ :=
  match action with
  | .replace => some price
  | .keep => if anchor.isNone && decide (0 < count) then some price else anchor
  | .cancel => anchor

def nextAnchors (prev : SideAnchors) (plan : SideAction × SideAction) (resting : SideCounts)
    (price : ℚ) : SideAnchors :=
  ⟨nextAnchor price prev.bid plan.1 resting.bids, nextAnchor price prev.offer plan.2 resting.offers⟩

/-- The input of the plan; a restore forces both sides. -/
def planInput (g : MarketGrid) (market : GridMarket) (a : VisitAnswers) (price : ℚ)
    (funding : GridFunding) (resting : SideCounts) : PlanInput where
  bid := funding.bid
  offer := funding.offer
  bidExpected := market.bidLevels.length
  offerExpected := a.shaped.length
  resting
  forceBid := g.forceRefresh || movedPast g.anchors.bid price market.priceChangeThresholdPercent
  forceOffer := g.forceRefresh || movedPast g.anchors.offer price market.priceChangeThresholdPercent
  shapeChanged := a.shapeChanged

/-- The operations that are carried out, until the visit is stopped. -/
def opCalls (a : VisitAnswers) : Nat → List GridOp → List GridCall
  | _, [] => []
  | i, op :: ops =>
    if a.stop (.op i) then []
    else
      match op with
      | .cancel id _ => .cancel id (a.cancel id) :: opCalls a (i + 1) ops
      | .place side price quantity =>
        .place side price quantity (a.place i) :: opCalls a (i + 1) ops

def failedCancels (calls : List GridCall) : List Nat :=
  calls.filterMap fun
    | .cancel id false => some id
    | _ => none

def placedCount (calls : List GridCall) : Nat :=
  calls.countP fun
    | .place _ _ _ (.placed _) => true
    | _ => false

section Visit

variable [FloatOps]

def executePlan (a : VisitAnswers) (market : GridMarket) (mid : ℚ) (orders : List Order)
    (plan : SideAction × SideAction) : List GridCall :=
  if a.stop .execute then []
  else
    opCalls a 0 (gridOps market.bidLevels (if plan.2 = .replace then a.shaped else []) mid a.tick
      orders plan)

/-- The plan of the visit: `uncross` is asked about a one-sided one, if no shutdown is signalled. -/
def carriedPlan (input : PlanInput) (market : GridMarket) (a : VisitAnswers) (price : ℚ)
    (orders : List Order) : SideAction × SideAction :=
  if a.stop .uncross then planMarket input
  else visitPlan input market.bidLevels a.shaped price a.tick orders

/-- The visit once the orders are listed. -/
def visitOrders (g : MarketGrid) (market : GridMarket) (a : VisitAnswers) (price : ℚ)
    (funding : GridFunding) (orders : List Order) (report : CycleReport) : Visited :=
  let (g, orders, retries) := g.retryFailedCancels a orders
  let report := noteCancelled report retries
  let resting := sideCounts orders
  let input := g.planInput market a price funding resting
  let g := { g with forceRefresh := false }
  let planned := planMarket input
  if planned = (.keep, .keep) then
    ⟨{ g with
        anchors := nextAnchors g.anchors planned resting price
        lastResting := some resting }, report, retries⟩
  else
    let plan := carriedPlan input market a price orders
    let calls := executePlan a market price orders plan
    ⟨{ g with
        lastResting := none
        pendingCancels := g.pendingCancels ∪ failedCancels calls
        anchors := nextAnchors g.anchors plan resting price },
      { noteCancelled report calls with
        placed := addU32 report.placed (placedCount calls)
        refreshed := addU32 report.refreshed 1 },
      retries ++ calls⟩

/-- A market with a side that can be funded is no longer parked. -/
def unpark (g : MarketGrid) (market : GridMarket) (a : VisitAnswers) (funding : GridFunding) :
    MarketGrid :=
  { g with
    parked := g.parked && !(fundable funding.bid market.bidLevels.length ||
      fundable funding.offer a.shaped.length) }

omit [FloatOps] in
@[simp] theorem unpark_forceRefresh (g : MarketGrid) (market : GridMarket) (a : VisitAnswers)
    (funding : GridFunding) : (g.unpark market a funding).forceRefresh = g.forceRefresh := rfl

/-- The visit with a price. -/
def visitPriced (g : MarketGrid) (market : GridMarket) (a : VisitAnswers) (price : ℚ)
    (report : CycleReport) : Visited :=
  let funding := a.funding market price
  let g := g.unpark market a funding
  if funding.bid = .unknown ∧ funding.offer = .unknown then
    ⟨{ g with lastResting := none }, { report with heldUnknown := addU32 report.heldUnknown 1 }, []⟩
  else if a.stop .beforeOrders then ⟨g, report, []⟩
  else
    match a.orders with
    | .error _ => ⟨g, report, []⟩
    | .ok orders => g.visitOrders market a price funding orders report

/-- Whether the visit parks the market. -/
def parks (g : MarketGrid) (market : GridMarket) (a : VisitAnswers) : Bool :=
  canPark (a.fundingBefore market g.lastSeenPrice) market.bidLevels.length a.shapedBefore.length
    g.lastResting (g.lastProbe.map (a.now - ·))

def visitMarket (g : MarketGrid) (market : GridMarket) (a : VisitAnswers) (report : CycleReport) :
    Visited :=
  let report := { report with markets := addU32 report.markets 1 }
  if market.bidLevels.isEmpty && market.offerLevels.isEmpty then
    g.withdrawUnquoted a { report with noLevels := addU32 report.noLevels 1 }
  else if g.parks market a then
    ⟨{ g with parked := true }, { report with parked := addU32 report.parked 1 }, []⟩
  else
    match { g with lastProbe := some a.now }.fetchGridPrice a with
    | (g, none, calls) => ⟨g, report, calls⟩
    | (g, some price, _) => g.visitPriced market a price report

end Visit

end MarketGrid

end BookAgent.AgentLogic
