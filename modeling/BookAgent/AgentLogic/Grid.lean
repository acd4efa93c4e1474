import Mathlib.Data.List.Sort
import BookAgent.Lib.FloatOps
import BookAgent.AgentLogic.Proto

/-!
# The order grid

`order_manager.rs`: what a cycle does to the two sides of a market, the prices of new rungs,
and the cancels and placements that replace old rungs by new ones. A price, a tick and a distance
in percent are given by their values; what is computed from them goes through `FloatOps`.
-/

namespace BookAgent.AgentLogic

open BookAgent.Lib

/-! ## Plans -/

inductive Funding
  | funded
  | short
  | unknown
  deriving DecidableEq

inductive SideAction
  | keep
  | replace
  | cancel
  deriving DecidableEq

inductive OrderSide
  | bid
  | offer
  deriving DecidableEq

namespace OrderSide

def orderType : OrderSide → Int
  | bid => orderTypeBid
  | offer => orderTypeOffer

def opposite : OrderSide → OrderSide
  | bid => offer
  | offer => bid

end OrderSide

structure SideCounts where
  bids : Nat
  offers : Nat
  bidPartial : Bool
  offerPartial : Bool

structure PlanInput where
  bid : Funding
  offer : Funding
  bidExpected : Nat
  offerExpected : Nat
  resting : SideCounts
  forceBid : Bool
  forceOffer : Bool
  shapeChanged : Bool

/-- Resting orders of each side, and whether one of them is partially filled. -/
def sideCounts (orders : List Order) : SideCounts :=
  let isPartial (o : Order) : Bool := decide (0 < (plainValue o.filledQuantity).getD 0)
  { bids := orders.countP fun o => decide (o.orderType = orderTypeBid)
    offers := orders.countP fun o => decide (o.orderType = orderTypeOffer)
    bidPartial := orders.any fun o => decide (o.orderType = orderTypeBid) && isPartial o
    offerPartial := orders.any fun o => decide (o.orderType = orderTypeOffer) && isPartial o }

/-- What is done to one side. -/
def planSide (funding : Funding) (fundable trigger : Bool) (resting : Nat) : SideAction :=
  if funding = .unknown then .keep
  else if fundable then if trigger then .replace else .keep
  else if 0 < resting then .cancel
  else .keep

def fundable (funding : Funding) (expected : Nat) : Bool :=
  decide (funding = .funded) && decide (0 < expected)

def planMarket (input : PlanInput) : SideAction × SideAction :=
  let bidTrigger := input.forceBid || decide (input.resting.bids ≠ input.bidExpected) ||
    input.resting.bidPartial
  let offerTrigger := input.forceOffer || decide (input.resting.offers ≠ input.offerExpected) ||
    input.resting.offerPartial || input.shapeChanged
  (planSide input.bid (fundable input.bid input.bidExpected) bidTrigger input.resting.bids,
    planSide input.offer (fundable input.offer input.offerExpected) offerTrigger
      input.resting.offers)

/-! ## Rungs -/

structure PriceLevel where
  deltaPercent : ℚ
  quantity : String

section Prices

variable [FloatOps]

open FloatOps (F ofValue)

/-- Bids round down to the tick, offers up. -/
def tickPrice (side : OrderSide) (mid deltaPercent tick : ℚ) : F :=
  let factor := FloatOps.add (ofValue 1) (FloatOps.div (ofValue deltaPercent) (ofValue 100))
  let steps := FloatOps.div (FloatOps.mul (ofValue mid) factor) (ofValue tick)
  match side with
  | .bid => FloatOps.mul (FloatOps.floor steps) (ofValue tick)
  | .offer => FloatOps.mul (FloatOps.ceil steps) (ofValue tick)

/-- The price of a new rung as it is placed. -/
def rungPrice (side : OrderSide) (mid deltaPercent tick : ℚ) : String :=
  FloatOps.fixed10 (tickPrice side mid deltaPercent tick)

end Prices

/-- A new order, with its distance from the mid. -/
structure Rung where
  absDelta : ℚ
  side : OrderSide
  price : String
  quantity : String

section Ladders

variable [FloatOps]

open FloatOps (F ofValue)

def newRungs (side : OrderSide) (levels : List PriceLevel) (mid tick : ℚ) : List Rung :=
  levels.map fun l => ⟨|l.deltaPercent|, side, rungPrice side mid l.deltaPercent tick, l.quantity⟩

/-- The resting orders of one side, nearest to `mid` first. -/
def nearestFirst (orders : List Order) (side : OrderSide) (mid : ℚ) : List Order :=
  let distance (o : Order) : F :=
    FloatOps.abs (FloatOps.sub ((FloatOps.parse o.price).getD (ofValue 0)) (ofValue mid))
  (orders.filter fun o => decide (o.orderType = side.orderType)).insertionSort fun a b =>
    FloatOps.totalLe (distance a) (distance b) = true

/-- The ids of the same. -/
def sideQueue (orders : List Order) (side : OrderSide) (mid : ℚ) : List Nat :=
  (nearestFirst orders side mid).map (·.orderId)

end Ladders

/-! ## Operations -/

inductive GridOp
  | cancel (orderId : Nat) (leftover : Bool)
  | place (side : OrderSide) (price quantity : String)
  deriving DecidableEq

/-- Place each new rung after the cancel of an old order of its side, while there are any. -/
def interleave : List Rung → (bidOld offerOld : List Nat) → List GridOp × List Nat × List Nat
  | [], bidOld, offerOld => ([], bidOld, offerOld)
  | r :: rs, bidOld, offerOld =>
    let old := match r.side with
      | .bid => bidOld.head?
      | .offer => offerOld.head?
    let cancel := (old.map fun id => GridOp.cancel id false).toList
    let rest := match r.side with
      | .bid => interleave rs bidOld.tail offerOld
      | .offer => interleave rs bidOld offerOld.tail
    (cancel ++ .place r.side r.price r.quantity :: rest.1, rest.2)

section Operations

variable [FloatOps]

/-- The new orders of a plan, tightest first. -/
def planRungs (bidLevels offerLevels : List PriceLevel) (mid tick : ℚ)
    (plan : SideAction × SideAction) : List Rung :=
  let bids := if plan.1 = .replace then newRungs .bid bidLevels mid tick else []
  let offers := if plan.2 = .replace then newRungs .offer offerLevels mid tick else []
  (bids ++ offers).insertionSort fun a b => a.absDelta ≤ b.absDelta

def cancelAll (ids : List Nat) : List GridOp := ids.map fun id => .cancel id true

/-- The operations of a plan: the withdrawn sides go first, then old orders are replaced by
new ones, and what is left of a replaced side is cancelled. -/
def gridOps (bidLevels offerLevels : List PriceLevel) (mid tick : ℚ) (orders : List Order)
    (plan : SideAction × SideAction) : List GridOp :=
  let bidOld := sideQueue orders .bid mid
  let offerOld := sideQueue orders .offer mid
  let withdrawn := (if plan.1 = .cancel then cancelAll bidOld else []) ++
    if plan.2 = .cancel then cancelAll offerOld else []
  let run := interleave (planRungs bidLevels offerLevels mid tick plan)
    (if plan.1 = .cancel then [] else bidOld) (if plan.2 = .cancel then [] else offerOld)
  withdrawn ++ (run.1 ++ ((if plan.1 = .replace then cancelAll run.2.1 else []) ++
    if plan.2 = .replace then cancelAll run.2.2 else []))

end Operations

/-! ## One-sided plans -/

section Uncross

variable [FloatOps]

open FloatOps (F)

/-- The highest bid or the lowest offer. -/
def tightest (side : OrderSide) (prices : List F) : Option F :=
  match side with
  | .bid => reduce FloatOps.max prices
  | .offer => reduce FloatOps.min prices

def tightestNew (levels : List PriceLevel) (side : OrderSide) (mid tick : ℚ) : Option F :=
  tightest side (levels.filterMap fun l => FloatOps.parse (rungPrice side mid l.deltaPercent tick))

def bestResting (orders : List Order) (side : OrderSide) : Option F :=
  tightest side ((orders.filter fun o => decide (o.orderType = side.orderType)).filterMap fun o =>
    FloatOps.parse o.price)

/-- A one-sided refresh that would reach the other side's best order touches that side too. -/
def uncross (plan : SideAction × SideAction) (bidLevels offerLevels : List PriceLevel) (mid tick : ℚ)
    (orders : List Order) (fundable : Bool × Bool) : SideAction × SideAction :=
  let escalate (fundable : Bool) : SideAction := if fundable then .replace else .cancel
  match plan with
  | (.replace, .keep) =>
    match tightestNew bidLevels .bid mid tick, bestResting orders .offer with
    | some bid, some offer => if FloatOps.le offer bid then (.replace, escalate fundable.2) else plan
    | _, _ => plan
  | (.keep, .replace) =>
    match bestResting orders .bid, tightestNew offerLevels .offer mid tick with
    | some bid, some offer => if FloatOps.le offer bid then (escalate fundable.1, .replace) else plan
    | _, _ => plan
  | _ => plan

/-- The plan that a visit carries out: `uncross` is asked about one-sided plans. -/
def visitPlan (input : PlanInput) (bidLevels offerLevels : List PriceLevel) (mid tick : ℚ)
    (orders : List Order) : SideAction × SideAction :=
  let plan := planMarket input
  let oneSided := decide (plan = (.replace, .keep)) || decide (plan = (.keep, .replace))
  if oneSided then
    uncross plan bidLevels offerLevels mid tick orders
      (fundable input.bid input.bidExpected, fundable input.offer input.offerExpected)
  else plan

end Uncross

end BookAgent.AgentLogic
