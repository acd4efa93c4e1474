import BookAgent.AgentLogic.GridConservation
import BookAgent.AgentLogic.GridVisit
import BookAgent.Lib.Run

/-!
# Visits of a market over time

One market under any sequence of visits and fills. It has no price, and no orders are placed, exactly
between two failures and two successes in a row; after an outage the next plan replaces what rests;
and where a visit is skipped, nothing rests.
-/

namespace BookAgent.AgentLogic

open BookAgent.Lib

/-- Whether the last two fetches in a row that ended alike are failures; the latest comes first. -/
def outageBy : List Bool → Bool
  | true :: true :: _ => false
  | false :: false :: _ => true
  | _ :: outcomes => outageBy outcomes
  | [] => false

/-- A market, the orders that rest in it, and how its price fetches ended, the latest first. -/
structure GridWorld where
  grid : MarketGrid
  book : List Order
  outcomes : List Bool
  /-- It was torn down since its last plan. -/
  tornDown : Bool

inductive GridEvent
  /-- A visit, and what rests after it. -/
  | visit (a : VisitAnswers) (book : List Order)
  /-- Orders are filled. -/
  | fills (book : List Order)

namespace MarketGrid

/-- Whether the visit gets to the price. -/
def fetches (g : MarketGrid) (market : GridMarket) (a : VisitAnswers) : Bool :=
  !(market.bidLevels.isEmpty && market.offerLevels.isEmpty) && !g.parks market a

/-- The fetch of the visit. -/
def fetch (g : MarketGrid) (a : VisitAnswers) : MarketGrid × Option ℚ × List GridCall :=
  { g with lastProbe := some a.now }.fetchGridPrice a

/-- Whether the visit gets to the plan. -/
def plans (g : MarketGrid) (market : GridMarket) (a : VisitAnswers) : Bool :=
  g.fetches market a && (g.fetch a).2.1.any fun price =>
    !(decide ((a.funding market price).bid = .unknown) &&
      decide ((a.funding market price).offer = .unknown)) && !a.stop .beforeOrders && a.orders.isOk

end MarketGrid

namespace GridWorld

variable [FloatOps] (market : GridMarket) (w : GridWorld)

def visited (a : VisitAnswers) : Visited := w.grid.visitMarket market a {}

/-- How the fetches ended, with the one of a visit. -/
def outcomesWith (a : VisitAnswers) : List Bool :=
  if w.grid.fetches market a then a.usablePrice.isSome :: w.outcomes else w.outcomes

def apply : GridEvent → GridWorld
  | .visit a book =>
    let grid := (w.visited market a).grid
    { grid
      book
      outcomes := w.outcomesWith market a
      tornDown := grid.priceless || (w.tornDown && !w.grid.plans market a) }
  | .fills book => { w with book }

/-- What rests afterwards: what rested before and was not cancelled, and what was placed. -/
def Leaves (calls : List GridCall) (book book' : List Order) : Prop :=
  ∀ o ∈ book', (o.orderType = orderTypeBid ∨ o.orderType = orderTypeOffer) ∧
    (o.orderId ∈ MarketGrid.placedIds calls ∨
      o.orderId ∈ book.map (·.orderId) ∧ o.orderId ∉ MarketGrid.cancelledIds calls)

/-- The listing says what rests. -/
def Allowed : GridEvent → Prop
  | .visit a book => (∀ orders, a.orders = .ok orders → orders = w.book) ∧
      Leaves (w.visited market a).calls w.book book
  | .fills book => Leaves [] w.book book

/-- Before the first visit of a process; orders may rest from before. -/
structure Starts (w : GridWorld) : Prop where
  grid : w.grid = {}
  outcomes : w.outcomes = []
  tornDown : w.tornDown = false
  typed : ∀ o ∈ w.book, o.orderType = orderTypeBid ∨ o.orderType = orderTypeOffer

end GridWorld

/-! ## The price -/

namespace MarketGrid

variable {g : MarketGrid} {market : GridMarket} {a : VisitAnswers} {outcomes : List Bool}
  {price : ℚ} {report : CycleReport}

/-- What the streaks are after the fetches. -/
structure PriceInv (g : MarketGrid) (outcomes : List Bool) : Prop where
  priceless : g.priceless = outageBy outcomes
  fails : g.priceless = false → g.priceFailStreak = if outcomes.head? = some false then 1 else 0
  restores : g.priceless = true → g.priceRestoreStreak = if outcomes.head? = some true then 1 else 0

theorem PriceInv.of_same {g' : MarketGrid} (h : g.PriceInv outcomes)
    (hfails : g'.priceFailStreak = g.priceFailStreak)
    (hrestores : g'.priceRestoreStreak = g.priceRestoreStreak)
    (hpriceless : g'.priceless = g.priceless) : g'.PriceInv outcomes :=
  ⟨hpriceless.trans h.priceless, fun hp => hfails.trans (h.fails (hpriceless.symm.trans hp)),
    fun hp => hrestores.trans (h.restores (hpriceless.symm.trans hp))⟩

theorem PriceInv.priced (hout : outageBy outcomes = false) (hpriceless : g.priceless = false)
    (hfails : g.priceFailStreak = if outcomes.head? = some false then 1 else 0) :
    g.PriceInv outcomes :=
  ⟨hpriceless.trans hout.symm, fun _ => hfails, fun hp =>
    absurd (hpriceless.symm.trans hp) Bool.false_ne_true⟩

theorem PriceInv.outage (hout : outageBy outcomes = true) (hpriceless : g.priceless = true)
    (hrestores : g.priceRestoreStreak = if outcomes.head? = some true then 1 else 0) :
    g.PriceInv outcomes :=
  ⟨hpriceless.trans hout.symm, fun hp => absurd (hp.symm.trans hpriceless) Bool.false_ne_true,
    fun _ => hrestores⟩

theorem acceptPrice_priced (h : g.priceless = false) : g.acceptPrice price =
    ({ g with priceFailStreak := 0, lastSeenPrice := some price }, some price) := by
  simp [acceptPrice, h]

theorem acceptPrice_first (h : g.priceless = true) (hstreak : g.priceRestoreStreak = 0) :
    g.acceptPrice price =
      ({ g with priceFailStreak := 0, lastSeenPrice := some price, priceRestoreStreak := 1 }, none) := by
  simp [acceptPrice, h, hstreak, addU32]

theorem acceptPrice_second (h : g.priceless = true) (hstreak : g.priceRestoreStreak = 1) :
    g.acceptPrice price =
      ({ g with
          priceFailStreak := 0
          lastSeenPrice := some price
          priceRestoreStreak := 0
          priceless := false
          forceRefresh := true }, some price) := by
  simp [acceptPrice, h, hstreak, addU32]

theorem fetchGridPrice_some (hprice : a.usablePrice = some price) :
    g.fetchGridPrice a = ((g.acceptPrice price).1, (g.acceptPrice price).2, []) := by
  rw [fetchGridPrice, hprice, Option.elim_some]

/-- A success: it is accepted, unless the outage goes on. -/
theorem acceptPrice_inv (h : g.PriceInv outcomes) :
    ((g.acceptPrice price).1).PriceInv (true :: outcomes) ∧
      (g.acceptPrice price).2 = if outageBy (true :: outcomes) then none else some price := by
  cases hpriceless : g.priceless with
  | false =>
    have hold : outageBy outcomes = false := h.priceless.symm.trans hpriceless
    have hout : outageBy (true :: outcomes) = false := by
      match outcomes, hold with
      | [], _ => rfl
      | true :: _, _ => rfl
      | false :: _, hold => exact hold
    rw [acceptPrice_priced hpriceless, hout]
    exact ⟨.priced hout hpriceless rfl, rfl⟩
  | true =>
    have hold : outageBy outcomes = true := h.priceless.symm.trans hpriceless
    have hstreak := h.restores hpriceless
    match outcomes, hold, hstreak with
    | true :: rest, _, hstreak =>
      rw [acceptPrice_second hpriceless hstreak]
      exact ⟨.priced rfl rfl rfl, rfl⟩
    | false :: rest, hold, hstreak =>
      have hout : outageBy (true :: false :: rest) = true := hold
      rw [acceptPrice_first hpriceless hstreak, hout]
      exact ⟨.outage hout hpriceless rfl, rfl⟩

theorem fetchGridPrice_first (hprice : a.usablePrice = none) (hpriceless : g.priceless = false)
    (hstreak : g.priceFailStreak = 0) : g.fetchGridPrice a =
      ({ g with priceRestoreStreak := 0, priceFailStreak := 1 }, none, []) := by
  simp [fetchGridPrice, refusePrice, hprice, hpriceless, hstreak, addU32]

theorem fetchGridPrice_torn (hprice : a.usablePrice = none)
    (h : g.priceless = true ∨ g.priceFailStreak = 1) : g.fetchGridPrice a =
      (({ g with
          priceRestoreStreak := 0
          priceFailStreak := addU32 g.priceFailStreak 1 }.handlePriceless a).1,
        none, (g.handlePriceless a).2) := by
  have htorn : 2 ≤ addU32 g.priceFailStreak 1 ∨ g.priceless = true := by
    rcases h with h | h
    · exact .inr h
    · exact .inl (by simp [h, addU32])
  have hrefused : g.refusePrice a = { g with
      priceRestoreStreak := 0
      priceFailStreak := addU32 g.priceFailStreak 1 }.handlePriceless a := if_pos htorn
  rw [fetchGridPrice, hprice, Option.elim_none, hrefused]
  rfl

/-- A failure: at the second in a row, and as long as the outage goes on, the orders are cancelled. -/
theorem fetchGridPrice_none (h : g.PriceInv outcomes) (hprice : a.usablePrice = none) :
    ((g.fetchGridPrice a).1).PriceInv (false :: outcomes) ∧
      (g.fetchGridPrice a).2 =
        (none, if outageBy (false :: outcomes) then (g.handlePriceless a).2 else []) := by
  cases hpriceless : g.priceless with
  | true =>
    have hold : outageBy outcomes = true := h.priceless.symm.trans hpriceless
    have hout : outageBy (false :: outcomes) = true := by
      match outcomes, hold with
      | true :: _, hold => exact hold
      | false :: _, _ => rfl
    rw [fetchGridPrice_torn hprice (.inl hpriceless), hout]
    exact ⟨.outage hout rfl rfl, rfl⟩
  | false =>
    have hold : outageBy outcomes = false := h.priceless.symm.trans hpriceless
    have hstreak := h.fails hpriceless
    match outcomes, hold, hstreak with
    | [], _, hstreak =>
      rw [fetchGridPrice_first hprice hpriceless hstreak]
      exact ⟨.priced rfl hpriceless rfl, rfl⟩
    | true :: rest, hold, hstreak =>
      have hout : outageBy (false :: true :: rest) = false := hold
      rw [fetchGridPrice_first hprice hpriceless hstreak, hout]
      exact ⟨.priced hout hpriceless rfl, rfl⟩
    | false :: rest, _, hstreak =>
      rw [fetchGridPrice_torn hprice (.inr hstreak)]
      exact ⟨.outage rfl rfl rfl, rfl⟩

/-! ## The ways of a visit -/

theorem fetch_inv (h : g.PriceInv outcomes) :
    ((g.fetch a).1).PriceInv (a.usablePrice.isSome :: outcomes) ∧
      (g.fetch a).2.1 = (if outageBy (true :: outcomes) then none else a.usablePrice) ∧
      (g.fetch a).2.2 = if a.usablePrice = none ∧ outageBy (false :: outcomes) = true
        then (g.handlePriceless a).2 else [] := by
  have hprobed : { g with lastProbe := some a.now }.PriceInv outcomes := h.of_same rfl rfl rfl
  cases hprice : a.usablePrice with
  | some price =>
    obtain ⟨hinv, haccepted⟩ := acceptPrice_inv hprobed
    rw [fetch, fetchGridPrice_some hprice]
    exact ⟨hinv, haccepted, by simp⟩
  | none =>
    obtain ⟨hinv, hrest⟩ := fetchGridPrice_none hprobed hprice
    refine ⟨hinv, ?_, ?_⟩
    · rw [fetch, hrest]
      exact (ite_self none).symm
    · rw [fetch, hrest]
      simp [handlePriceless]

theorem visitMarket_unquoted [FloatOps] (h : (market.bidLevels.isEmpty && market.offerLevels.isEmpty) = true) :
    g.visitMarket market a report = g.withdrawUnquoted a
      { report with markets := addU32 report.markets 1, noLevels := addU32 report.noLevels 1 } := by
  simp only [visitMarket, h, if_true]

theorem visitMarket_parked [FloatOps] (h : (market.bidLevels.isEmpty && market.offerLevels.isEmpty) = false)
    (hparks : g.parks market a = true) : g.visitMarket market a report =
      ⟨{ g with parked := true },
        { report with markets := addU32 report.markets 1, parked := addU32 report.parked 1 }, []⟩ := by
  simp only [visitMarket, h, hparks, Bool.false_eq_true, if_false, if_true]

theorem fetches_iff : g.fetches market a = true ↔
    (market.bidLevels.isEmpty && market.offerLevels.isEmpty) = false ∧ g.parks market a = false := by
  rw [fetches, Bool.and_eq_true, Bool.not_eq_true', Bool.not_eq_true']

theorem visitMarket_unpriced [FloatOps] (h : g.fetches market a = true) (hprice : (g.fetch a).2.1 = none) :
    g.visitMarket market a report =
      ⟨(g.fetch a).1, { report with markets := addU32 report.markets 1 }, (g.fetch a).2.2⟩ := by
  obtain ⟨hlevels, hparks⟩ := fetches_iff.mp h
  unfold fetch at hprice ⊢
  simp only [visitMarket, hlevels, hparks, Bool.false_eq_true, if_false]
  split
  · rename_i heq
    rw [heq]
  · rename_i heq
    rw [heq] at hprice
    cases hprice

theorem visitMarket_priced [FloatOps] (h : g.fetches market a = true) (hprice : (g.fetch a).2.1 = some price) :
    g.visitMarket market a report =
      (g.fetch a).1.visitPriced market a price { report with markets := addU32 report.markets 1 } := by
  obtain ⟨hlevels, hparks⟩ := fetches_iff.mp h
  unfold fetch at hprice ⊢
  simp only [visitMarket, hlevels, hparks, Bool.false_eq_true, if_false]
  split
  · rename_i heq
    rw [heq] at hprice
    cases hprice
  · rename_i heq
    rw [heq] at hprice ⊢
    obtain rfl := Option.some.inj hprice
    rfl

theorem visitPriced_planned [FloatOps] {price : ℚ} {orders : List Order}
    (hfunding : ¬ ((a.funding market price).bid = .unknown ∧ (a.funding market price).offer = .unknown))
    (hstop : a.stop .beforeOrders = false) (horders : a.orders = .ok orders) :
    g.visitPriced market a price report =
      (g.unpark market a (a.funding market price)).visitOrders market a price (a.funding market price)
        orders report := by
  simp only [visitPriced, if_neg hfunding, hstop, horders, Bool.false_eq_true, if_false]

/-- What a visit with a price leaves of the price's state; a plan takes the refresh with it. -/
structure PricedFrame (g g' : MarketGrid) (planned : Bool) : Prop where
  fails : g'.priceFailStreak = g.priceFailStreak
  restores : g'.priceRestoreStreak = g.priceRestoreStreak
  priceless : g'.priceless = g.priceless
  force : g'.forceRefresh = (g.forceRefresh && !planned)

theorem visitOrders_frame [FloatOps] (funding : GridFunding) (orders : List Order) :
    g.PricedFrame (g.visitOrders market a price funding orders report).grid true := by
  unfold visitOrders retryFailedCancels
  dsimp only
  split
  · exact ⟨rfl, rfl, rfl, (Bool.and_false _).symm⟩
  · exact ⟨rfl, rfl, rfl, (Bool.and_false _).symm⟩

theorem visitPriced_frame [FloatOps] (g : MarketGrid) (market : GridMarket) (a : VisitAnswers) (price : ℚ)
    (report : CycleReport) : g.PricedFrame (g.visitPriced market a price report).grid
    (!(decide ((a.funding market price).bid = .unknown) &&
        decide ((a.funding market price).offer = .unknown)) &&
      !a.stop .beforeOrders && a.orders.isOk) := by
  unfold visitPriced
  dsimp only
  split
  · rename_i hunknown
    exact ⟨rfl, rfl, rfl, by simp [hunknown]⟩
  · rename_i hknown
    split
    · rename_i hstop
      exact ⟨rfl, rfl, rfl, by simp [hstop]⟩
    · rename_i hstop
      split
      · rename_i horders
        exact ⟨rfl, rfl, rfl, by simp [horders, Except.isOk, Except.toBool]⟩
      · rename_i orders horders
        have hplanned : (!(decide ((a.funding market price).bid = .unknown) &&
            decide ((a.funding market price).offer = .unknown)) &&
          !a.stop .beforeOrders && a.orders.isOk) = true := by
          simp only [not_and_or] at hknown
          simp [hstop, horders, Except.isOk, Except.toBool, Bool.or_eq_true]
          exact hknown
        rw [hplanned]
        obtain ⟨fails, restores, priceless, force⟩ : (g.unpark market a (a.funding market price)).PricedFrame
            ((g.unpark market a (a.funding market price)).visitOrders market a price
              (a.funding market price) orders report).grid true := visitOrders_frame _ orders
        exact ⟨fails, restores, priceless, force⟩

theorem withdrawUnquoted_frame : g.PricedFrame (g.withdrawUnquoted a report).grid false := by
  unfold withdrawUnquoted
  dsimp only
  split
  · exact ⟨rfl, rfl, rfl, (Bool.and_true _).symm⟩
  · split
    · exact ⟨rfl, rfl, rfl, (Bool.and_true _).symm⟩
    · exact ⟨rfl, rfl, rfl, (Bool.and_true _).symm⟩

/-! ## Placements -/

variable {side : OrderSide} {text quantity : String} {result : PlaceEnd}

theorem place_mem_opCalls {ops : List GridOp} {i : Nat}
    (h : .place side text quantity result ∈ opCalls a i ops) : .place side text quantity ∈ ops := by
  induction ops generalizing i with
  | nil => exact absurd h List.not_mem_nil
  | cons op ops ih =>
    rw [opCalls.eq_def] at h
    dsimp only at h
    split at h
    · exact absurd h List.not_mem_nil
    · cases op with
      | cancel id leftover =>
        rcases List.mem_cons.mp h with heq | hrest
        · cases heq
        · exact List.mem_cons_of_mem _ (ih hrest)
      | place side' text' quantity' =>
        rcases List.mem_cons.mp h with heq | hrest
        · cases heq
          exact List.mem_cons_self
        · exact List.mem_cons_of_mem _ (ih hrest)

theorem not_place_mem_retryCalls {ids : List Nat} :
    .place side text quantity result ∉ retryCalls a ids := by
  induction ids with
  | nil => exact List.not_mem_nil
  | cons id ids ih =>
    rw [retryCalls]
    split
    · exact List.not_mem_nil
    · simp [ih]

theorem not_place_mem_withdrawCalls {orders : List Order} :
    .place side text quantity result ∉ (withdrawCalls a orders).1 := by
  induction orders with
  | nil => exact List.not_mem_nil
  | cons o orders ih =>
    rw [withdrawCalls]
    split
    · exact List.not_mem_nil
    · simp [ih]

theorem replaced_of_place [FloatOps] {orders : List Order} {bidLevels offerLevels : List PriceLevel}
    {mid tick : ℚ} {plan : SideAction × SideAction}
    (h : .place side text quantity ∈ gridOps bidLevels offerLevels mid tick orders plan) :
    side.among plan.1 plan.2 = .replace := by
  have hplaced : (side, text, quantity) ∈
      placements (gridOps bidLevels offerLevels mid tick orders plan) :=
    List.mem_filterMap.mpr ⟨_, h, rfl⟩
  rw [placements_gridOps.mem_iff, List.mem_append] at hplaced
  unfold replacement at hplaced
  rcases hplaced with hbid | hoffer
  · split at hbid
    · obtain ⟨l, -, heq⟩ := List.mem_map.mp hbid
      cases heq
      assumption
    · exact absurd hbid List.not_mem_nil
  · split at hoffer
    · obtain ⟨l, -, heq⟩ := List.mem_map.mp hoffer
      cases heq
      assumption
    · exact absurd hoffer List.not_mem_nil

theorem funded_of_planSide {funding : Funding} {expected resting : Nat} {trigger : Bool}
    (h : planSide funding (fundable funding expected) trigger resting = .replace) :
    funding = .funded := by
  unfold planSide fundable at h
  cases funding <;> simp at h ⊢
  split at h <;> cases h

theorem funded_of_planMarket {input : PlanInput}
    (h : side.among (planMarket input).1 (planMarket input).2 = .replace) :
    side.among input.bid input.offer = .funded := by
  cases side with
  | bid => exact funded_of_planSide h
  | offer => exact funded_of_planSide h

/-- `uncross` adds a replacement only on a side that can be funded. -/
theorem funded_of_uncross [FloatOps] {plan : SideAction × SideAction} {bidLevels offerLevels : List PriceLevel}
    {mid tick : ℚ} {orders : List Order} {can : Bool × Bool}
    (h : side.among (uncross plan bidLevels offerLevels mid tick orders can).1
      (uncross plan bidLevels offerLevels mid tick orders can).2 = .replace) :
    side.among plan.1 plan.2 = .replace ∨ side.among can.1 can.2 = true := by
  unfold uncross at h
  dsimp only at h
  split at h
  · split at h
    · split at h
      · cases side with
        | bid => exact .inl rfl
        | offer =>
          refine .inr ?_
          by_contra hcan
          simp [OrderSide.among] at h hcan
          simp [hcan] at h
      · exact .inl h
    · exact .inl h
  · split at h
    · split at h
      · cases side with
        | bid =>
          refine .inr ?_
          by_contra hcan
          simp [OrderSide.among] at h hcan
          simp [hcan] at h
        | offer => exact .inl rfl
      · exact .inl h
    · exact .inl h
  · exact .inl h

theorem funded_of_carriedPlan [FloatOps] {input : PlanInput} {orders : List Order}
    (h : side.among (carriedPlan input market a price orders).1
      (carriedPlan input market a price orders).2 = .replace) :
    side.among input.bid input.offer = .funded := by
  unfold carriedPlan visitPlan at h
  dsimp only at h
  split at h
  · exact funded_of_planMarket h
  · split at h
    · rcases funded_of_uncross h with hplan | hcan
      · exact funded_of_planMarket hplan
      · cases side <;> simp_all [OrderSide.among, fundable]
    · exact funded_of_planMarket h

theorem place_of_visitOrders [FloatOps] {funding : GridFunding} {orders : List Order}
    (h : .place side text quantity result ∈
      (g.visitOrders market a price funding orders report).calls) :
    side.among funding.bid funding.offer = .funded := by
  unfold visitOrders retryFailedCancels at h
  dsimp only at h
  split at h
  · exact absurd h not_place_mem_retryCalls
  · rcases List.mem_append.mp h with hretry | hplan
    · exact absurd hretry not_place_mem_retryCalls
    · unfold executePlan at hplan
      split at hplan
      · exact absurd hplan List.not_mem_nil
      · exact funded_of_carriedPlan (replaced_of_place (place_mem_opCalls hplan))

theorem place_of_visitPriced [FloatOps] (h : .place side text quantity result ∈
    (g.visitPriced market a price report).calls) :
    side.among (a.funding market price).bid (a.funding market price).offer = .funded := by
  unfold visitPriced at h
  dsimp only at h
  split at h
  · exact absurd h List.not_mem_nil
  · split at h
    · exact absurd h List.not_mem_nil
    · split at h
      · exact absurd h List.not_mem_nil
      · exact place_of_visitOrders h

theorem not_place_mem_handlePriceless :
    .place side text quantity result ∉ (g.handlePriceless a).2 := by
  unfold handlePriceless
  dsimp only
  split
  · simp
  · exact List.not_mem_nil

/-- A visit places orders only at a price it accepted, on a side that is funded at that price. -/
theorem place_of_visitMarket [FloatOps] (hinv : g.PriceInv outcomes) (h : .place side text quantity result ∈
    (g.visitMarket market a report).calls) : g.fetches market a = true ∧
      ∃ price, (g.fetch a).2.1 = some price ∧
        side.among (a.funding market price).bid (a.funding market price).offer = .funded := by
  cases hlevels : market.bidLevels.isEmpty && market.offerLevels.isEmpty with
  | true =>
    rw [visitMarket_unquoted hlevels] at h
    unfold withdrawUnquoted at h
    dsimp only at h
    split at h
    · exact absurd h List.not_mem_nil
    · split at h
      · exact absurd h List.not_mem_nil
      · exact absurd h not_place_mem_withdrawCalls
  | false =>
    cases hparks : g.parks market a with
    | true =>
      rw [visitMarket_parked hlevels hparks] at h
      exact absurd h List.not_mem_nil
    | false =>
      have hfetches : g.fetches market a = true := fetches_iff.mpr ⟨hlevels, hparks⟩
      refine ⟨hfetches, ?_⟩
      cases hprice : (g.fetch a).2.1 with
      | none =>
        obtain ⟨-, -, hcalls⟩ := fetch_inv (a := a) hinv
        rw [visitMarket_unpriced hfetches hprice, hcalls] at h
        split at h
        · exact absurd h (not_place_mem_handlePriceless (g := g))
        · exact absurd h List.not_mem_nil
      | some price =>
        rw [visitMarket_priced hfetches hprice] at h
        exact ⟨price, rfl, place_of_visitPriced h⟩

/-! ## What rests -/

theorem placedIds_nil {calls : List GridCall}
    (h : ∀ side text quantity result, .place side text quantity result ∉ calls) :
    placedIds calls = [] := by
  refine List.filterMap_eq_nil_iff.mpr fun call hcall => ?_
  cases call with
  | cancel id ok => rfl
  | place side text quantity result => exact absurd hcall (h side text quantity result)

/-- If all that rested is cancelled and nothing placed, nothing rests. -/
theorem leaves_nil {calls : List GridCall} {book book' : List Order}
    (hleaves : GridWorld.Leaves calls book book')
    (hplace : ∀ side text quantity result, .place side text quantity result ∉ calls)
    (hall : ∀ o ∈ book, o.orderId ∈ cancelledIds calls) : book' = [] := by
  refine List.eq_nil_iff_forall_not_mem.mpr fun o ho => ?_
  rcases (hleaves o ho).2 with hplaced | ⟨hold, hkept⟩
  · rw [placedIds_nil hplace] at hplaced
    exact absurd hplaced List.not_mem_nil
  · obtain ⟨o', ho', hid⟩ := List.mem_map.mp hold
    exact hkept (hid ▸ hall o' ho')

theorem mem_cancelledIds {calls : List GridCall} {id : Nat} :
    id ∈ cancelledIds calls ↔ .cancel id true ∈ calls := by
  unfold cancelledIds
  rw [List.mem_filterMap]
  constructor
  · rintro ⟨call, hcall, hid⟩
    match call, hid with
    | .cancel _ true, hid => exact Option.some.inj hid ▸ hcall
  · exact fun h => ⟨_, h, rfl⟩

theorem withdrawCalls_all {orders : List Order} (h : (withdrawCalls a orders).2 = true) {o : Order}
    (ho : o ∈ orders) : o.orderId ∈ cancelledIds (withdrawCalls a orders).1 := by
  rw [mem_cancelledIds]
  induction orders with
  | nil => exact absurd ho List.not_mem_nil
  | cons o' orders ih =>
    rw [withdrawCalls] at h ⊢
    split at h
    · cases h
    · rename_i hstop
      simp only [Bool.and_eq_true] at h
      rw [if_neg hstop]
      rcases List.mem_cons.mp ho with rfl | ho
      · exact h.1 ▸ List.mem_cons_self
      · exact List.mem_cons_of_mem _ (ih h.2 ho)

/-- An order of a listing that counts nothing is neither a bid nor an offer. -/
theorem nil_of_counts {orders : List Order} (hnone : (sideCounts orders).anyResting = false)
    (htyped : ∀ o ∈ orders, o.orderType = orderTypeBid ∨ o.orderType = orderTypeOffer) :
    orders = [] := by
  have hzero : (sideCounts orders).bids = 0 ∧ (sideCounts orders).offers = 0 := by
    simp only [SideCounts.anyResting, Bool.or_eq_false_iff, decide_eq_false_iff_not] at hnone
    omega
  simp only [sideCounts, List.countP_eq_zero, decide_eq_true_eq] at hzero
  refine List.eq_nil_iff_forall_not_mem.mpr fun o ho => ?_
  rcases htyped o ho with htype | htype
  · exact hzero.1 o ho htype
  · exact hzero.2 o ho htype

/-- The fetch forgets what rested, or changes neither that nor the book. -/
theorem fetch_lastResting : (g.fetch a).1.lastResting = none ∨
    (g.fetch a).1.lastResting = g.lastResting ∧ (g.fetch a).2.2 = [] := by
  cases hprice : a.usablePrice with
  | some p =>
    rw [fetch, fetchGridPrice_some hprice]
    refine .inr ⟨?_, rfl⟩
    unfold acceptPrice
    dsimp only
    split
    · split <;> rfl
    · rfl
  | none =>
    rw [fetch, fetchGridPrice, hprice, Option.elim_none]
    unfold refusePrice
    dsimp only
    split
    · exact .inl rfl
    · exact .inr ⟨rfl, rfl⟩

/-- What a visit says to rest, if that is nothing, is so. -/
def SeesEmpty (g g' : MarketGrid) (calls : List GridCall) (book : List Order) : Prop :=
  ∀ r, g'.lastResting = some r → r.anyResting = false →
    (g'.lastResting = g.lastResting ∧ calls = []) ∨
      (∀ o ∈ book, o.orderId ∈ cancelledIds calls) ∧
        ∀ side text quantity result, .place side text quantity result ∉ calls

theorem visitOrders_seesEmpty [FloatOps] {funding : GridFunding} {orders : List Order}
    (htyped : ∀ o ∈ orders, o.orderType = orderTypeBid ∨ o.orderType = orderTypeOffer) :
    g.SeesEmpty (g.visitOrders market a price funding orders report).grid
      (g.visitOrders market a price funding orders report).calls orders := by
  intro r hr hnone
  unfold visitOrders retryFailedCancels at hr ⊢
  dsimp only at hr ⊢
  split at hr
  · rename_i hplan
    rw [if_pos hplan]
    refine .inr ⟨fun o ho => ?_, fun _ _ _ _ => not_place_mem_retryCalls⟩
    obtain rfl := Option.some.inj hr
    have hnil := nil_of_counts hnone fun o ho => htyped o (List.mem_of_mem_filter ho)
    rw [List.filter_eq_nil_iff] at hnil
    have hgone := hnil o ho
    simpa using hgone
  · cases hr

theorem visitPriced_seesEmpty [FloatOps] {book : List Order} (horders : ∀ orders, a.orders = .ok orders → orders = book)
    (htyped : ∀ o ∈ book, o.orderType = orderTypeBid ∨ o.orderType = orderTypeOffer) :
    g.SeesEmpty (g.visitPriced market a price report).grid
      (g.visitPriced market a price report).calls book := by
  intro r hr hnone
  unfold visitPriced at hr ⊢
  dsimp only at hr ⊢
  split at hr
  · cases hr
  · rename_i hknown
    rw [if_neg hknown]
    split at hr
    · rename_i hstop
      rw [if_pos hstop]
      exact .inl ⟨rfl, rfl⟩
    · rename_i hstop
      rw [if_neg hstop]
      split at hr
      · exact .inl ⟨rfl, rfl⟩
      · rename_i orders hlisted
        obtain rfl := horders orders hlisted
        exact visitOrders_seesEmpty htyped r hr hnone

theorem withdrawUnquoted_seesEmpty {book : List Order}
    (horders : ∀ orders, a.orders = .ok orders → orders = book) :
    g.SeesEmpty (g.withdrawUnquoted a report).grid (g.withdrawUnquoted a report).calls book := by
  intro r hr hnone
  unfold withdrawUnquoted at hr ⊢
  dsimp only at hr ⊢
  split at hr
  · rename_i hskip
    rw [if_pos hskip]
    exact .inl ⟨rfl, rfl⟩
  · rename_i hskip
    rw [if_neg hskip]
    split at hr
    · exact .inl ⟨rfl, rfl⟩
    · rename_i orders hlisted
      obtain rfl := horders orders hlisted
      dsimp only at hr ⊢
      split at hr
      · rename_i hall
        exact .inr ⟨fun o ho => withdrawCalls_all hall ho, fun _ _ _ _ => not_place_mem_withdrawCalls⟩
      · cases hr

theorem visitMarket_seesEmpty [FloatOps] {book : List Order}
    (horders : ∀ orders, a.orders = .ok orders → orders = book)
    (htyped : ∀ o ∈ book, o.orderType = orderTypeBid ∨ o.orderType = orderTypeOffer) :
    g.SeesEmpty (g.visitMarket market a report).grid (g.visitMarket market a report).calls book := by
  cases hlevels : market.bidLevels.isEmpty && market.offerLevels.isEmpty with
  | true =>
    rw [visitMarket_unquoted hlevels]
    exact withdrawUnquoted_seesEmpty horders
  | false =>
    cases hparks : g.parks market a with
    | true =>
      rw [visitMarket_parked hlevels hparks]
      exact fun r _ _ => .inl ⟨rfl, rfl⟩
    | false =>
      have hfetches : g.fetches market a = true := fetches_iff.mpr ⟨hlevels, hparks⟩
      intro r hr hnone
      cases hprice : (g.fetch a).2.1 with
      | none =>
        rw [visitMarket_unpriced hfetches hprice] at hr ⊢
        rcases fetch_lastResting (g := g) (a := a) with hforgot | ⟨hsame, hcalls⟩
        · cases hforgot.symm.trans hr
        · exact .inl ⟨hsame, hcalls⟩
      | some p =>
        rw [visitMarket_priced hfetches hprice] at hr ⊢
        rcases visitPriced_seesEmpty horders htyped r hr hnone with ⟨hkept, hnocalls⟩ | hempty
        · rcases fetch_lastResting (g := g) (a := a) with hforgot | ⟨hsame, -⟩
          · cases hforgot.symm.trans (hkept.symm.trans hr)
          · exact .inl ⟨hkept.trans hsame, hnocalls⟩
        · exact .inr hempty

/-! ## After an outage -/

theorem opCalls_cancel (hstop : ∀ check, a.stop check = false) {ops : List GridOp} {id : Nat}
    (h : id ∈ cancelled ops) (i : Nat) : .cancel id (a.cancel id) ∈ opCalls a i ops := by
  induction ops generalizing i with
  | nil => exact absurd h List.not_mem_nil
  | cons op ops ih =>
    rw [opCalls.eq_def]
    dsimp only
    rw [hstop, if_neg Bool.false_ne_true]
    cases op with
    | cancel id' leftover =>
      rcases List.mem_cons.mp h with rfl | h
      · exact List.mem_cons_self
      · exact List.mem_cons_of_mem _ (ih h (i + 1))
    | place side text quantity => exact List.mem_cons_of_mem _ (ih h (i + 1))

/-- A forced side that rests, and whose funding is known, is not kept. -/
theorem planSide_forced {funding : Funding} {expected resting : Nat} (hknown : funding ≠ .unknown)
    (hresting : 0 < resting) : planSide funding (fundable funding expected) true resting ≠ .keep := by
  unfold planSide
  rw [if_neg hknown]
  split
  · exact SideAction.noConfusion
  · exact SideAction.noConfusion

theorem resting_pos {orders : List Order} {o : Order} (ho : o ∈ orders)
    (htype : o.orderType = side.orderType) :
    0 < side.among (sideCounts orders).bids (sideCounts orders).offers := by
  cases side <;> exact List.countP_pos_iff.mpr ⟨o, ho, decide_eq_true htype⟩

theorem uncross_not_keep [FloatOps] {plan : SideAction × SideAction} {bidLevels offerLevels : List PriceLevel}
    {mid tick : ℚ} {orders : List Order} {can : Bool × Bool} (h : side.among plan.1 plan.2 ≠ .keep) :
    side.among (uncross plan bidLevels offerLevels mid tick orders can).1
      (uncross plan bidLevels offerLevels mid tick orders can).2 ≠ .keep := by
  unfold uncross
  dsimp only
  split
  · split
    · split
      · cases side with
        | bid => exact h
        | offer => exact absurd rfl h
      · exact h
    · exact h
  · split
    · split
      · cases side with
        | bid => exact absurd rfl h
        | offer => exact h
      · exact h
    · exact h
  · exact h

theorem carriedPlan_not_keep [FloatOps] {input : PlanInput} {orders : List Order}
    (h : side.among (planMarket input).1 (planMarket input).2 ≠ .keep) :
    side.among (carriedPlan input market a price orders).1
      (carriedPlan input market a price orders).2 ≠ .keep := by
  unfold carriedPlan visitPlan
  dsimp only
  split
  · exact h
  · split
    · exact uncross_not_keep h
    · exact h

theorem planMarket_forced (market : GridMarket) (a : VisitAnswers) (price : ℚ)
    {funding : GridFunding} {orders : List Order} (hforce : g.forceRefresh = true)
    (hknown : side.among funding.bid funding.offer ≠ .unknown) {o : Order} (ho : o ∈ orders)
    (htype : o.orderType = side.orderType) :
    side.among (planMarket (g.planInput market a price funding (sideCounts orders))).1
      (planMarket (g.planInput market a price funding (sideCounts orders))).2 ≠ .keep := by
  have hresting := resting_pos ho htype
  cases side with
  | bid =>
    have hkept : planSide funding.bid (fundable funding.bid market.bidLevels.length) true
        (sideCounts orders).bids ≠ .keep := planSide_forced hknown hresting
    simpa [planMarket, planInput, hforce, OrderSide.among] using hkept
  | offer =>
    have hkept : planSide funding.offer (fundable funding.offer a.shaped.length) true
        (sideCounts orders).offers ≠ .keep := planSide_forced hknown hresting
    simpa [planMarket, planInput, hforce, OrderSide.among] using hkept

/-- With a refresh pending, the cancel of every listed order on a side of known funding is tried. -/
theorem cancels_of_forced [FloatOps] {funding : GridFunding} {orders : List Order}
    (hstop : ∀ check, a.stop check = false) (hforce : g.forceRefresh = true)
    (hknown : side.among funding.bid funding.offer ≠ .unknown) {o : Order} (ho : o ∈ orders)
    (htype : o.orderType = side.orderType) :
    ∃ ok, .cancel o.orderId ok ∈ (g.visitOrders market a price funding orders report).calls := by
  unfold visitOrders retryFailedCancels
  dsimp only
  generalize hpending : (g.pendingCancels.filter fun id => orders.any fun o => o.orderId == id) = pending
  generalize hretries : retryCalls a (a.retryOrder pending) = retries
  by_cases hgone : o.orderId ∈ cancelledIds retries
  · refine ⟨true, ?_⟩
    have hretried := mem_cancelledIds.mp hgone
    split
    · exact hretried
    · exact List.mem_append_left _ hretried
  · refine ⟨a.cancel o.orderId, ?_⟩
    have hleft : o ∈ orders.filter fun o => !(cancelledIds retries).contains o.orderId := by
      rw [List.mem_filter]
      exact ⟨ho, by simpa using hgone⟩
    have hforced := planMarket_forced (g := { g with
        pendingCancels := pending.filter fun id => !(cancelledIds retries).contains id })
      market a price hforce hknown hleft htype
    split
    · rename_i hkeep
      rw [hkeep] at hforced
      cases side <;> exact absurd rfl hforced
    · refine List.mem_append_right _ ?_
      unfold executePlan
      rw [hstop, if_neg Bool.false_ne_true]
      refine opCalls_cancel hstop ?_ 0
      rw [mem_cancelled_gridOps]
      exact ⟨o, hleft, rfl, side, htype, carriedPlan_not_keep hforced⟩

/-- A price is accepted with a refresh pending, if there was an outage. -/
theorem fetch_forced (htorn : g.priceless = true ∨ g.forceRefresh = true)
    (hprice : (g.fetch a).2.1 = some price) : (g.fetch a).1.forceRefresh = true := by
  cases husable : a.usablePrice with
  | none =>
    rw [fetch, fetchGridPrice, husable] at hprice
    cases hprice
  | some p =>
    rw [fetch, fetchGridPrice_some husable] at hprice ⊢
    unfold acceptPrice at hprice ⊢
    dsimp only at hprice ⊢
    split at hprice
    · split at hprice
      · cases hprice
      · rename_i hpriceless hstreak
        rw [if_pos hpriceless, if_neg hstreak]
    · rename_i hpriced
      rw [if_neg hpriced]
      exact htorn.resolve_left hpriced

theorem fetch_torn (htorn : g.priceless = true ∨ g.forceRefresh = true) :
    (g.fetch a).1.priceless = true ∨ (g.fetch a).1.forceRefresh = true := by
  cases husable : a.usablePrice with
  | none =>
    rw [fetch, fetchGridPrice, husable, Option.elim_none]
    unfold refusePrice
    dsimp only
    split
    · exact .inl rfl
    · exact htorn
  | some p =>
    rw [fetch, fetchGridPrice_some husable]
    unfold acceptPrice
    dsimp only
    split
    · split
      · rename_i hpriceless _
        exact .inl hpriceless
      · exact .inr rfl
    · exact htorn

end MarketGrid

/-! ## Runs -/

namespace GridWorld

section Runs

variable [FloatOps] {market : GridMarket} {w start : GridWorld} {a : VisitAnswers} {book : List Order}

structure Sound (w : GridWorld) : Prop where
  price : w.grid.PriceInv w.outcomes
  torn : w.tornDown = true → w.grid.priceless = true ∨ w.grid.forceRefresh = true
  typed : ∀ o ∈ w.book, o.orderType = orderTypeBid ∨ o.orderType = orderTypeOffer
  empty : ∀ r, w.grid.lastResting = some r → r.anyResting = false → w.book = []

/-- The price's state after a visit. -/
theorem Sound.visited_frame (h : w.Sound) (market : GridMarket) (a : VisitAnswers) :
    ((w.visited market a).grid).PriceInv (w.outcomesWith market a) ∧
      (w.grid.plans market a = false → w.tornDown = true →
        (w.visited market a).grid.priceless = true ∨ (w.visited market a).grid.forceRefresh = true) := by
  unfold visited outcomesWith
  cases hfetches : w.grid.fetches market a with
  | false =>
    have same : w.grid.PricedFrame (w.grid.visitMarket market a {}).grid false := by
      cases hlevels : market.bidLevels.isEmpty && market.offerLevels.isEmpty with
      | true =>
        rw [MarketGrid.visitMarket_unquoted hlevels]
        exact MarketGrid.withdrawUnquoted_frame
      | false =>
        have hparks : w.grid.parks market a = true := by
          simpa [MarketGrid.fetches, hlevels] using hfetches
        rw [MarketGrid.visitMarket_parked hlevels hparks]
        exact ⟨rfl, rfl, rfl, (Bool.and_true _).symm⟩
    refine ⟨h.price.of_same same.fails same.restores same.priceless, fun _ htorn => ?_⟩
    rw [same.priceless, same.force]
    simpa using h.torn htorn
  | true =>
    obtain ⟨hinv, -, -⟩ := MarketGrid.fetch_inv (a := a) h.price
    rw [if_pos rfl]
    cases hprice : (w.grid.fetch a).2.1 with
    | none =>
      rw [MarketGrid.visitMarket_unpriced hfetches hprice]
      exact ⟨hinv, fun _ htorn => MarketGrid.fetch_torn (h.torn htorn)⟩
    | some price =>
      rw [MarketGrid.visitMarket_priced hfetches hprice]
      have same := MarketGrid.visitPriced_frame (w.grid.fetch a).1 market a price { markets := addU32 0 1 }
      refine ⟨hinv.of_same same.fails same.restores same.priceless, fun hplans htorn => ?_⟩
      have hplanned : (!(decide ((a.funding market price).bid = .unknown) &&
          decide ((a.funding market price).offer = .unknown)) &&
        !a.stop .beforeOrders && a.orders.isOk) = false := by
        simpa only [MarketGrid.plans, hfetches, hprice, Bool.true_and, Option.any_some] using hplans
      have hforce := same.force
      rw [hplanned, Bool.not_false, Bool.and_true] at hforce
      show (MarketGrid.visitPriced _ market a price _).grid.priceless = true ∨
        (MarketGrid.visitPriced _ market a price _).grid.forceRefresh = true
      rw [same.priceless, hforce]
      exact MarketGrid.fetch_torn (h.torn htorn)

omit [FloatOps] in
theorem Sound.fills (h : w.Sound) (hleaves : Leaves [] w.book book) : ({ w with book } : GridWorld).Sound :=
  ⟨h.price, h.torn, fun o ho => (hleaves o ho).1, fun r hr hnone =>
    MarketGrid.leaves_nil hleaves (fun _ _ _ _ => List.not_mem_nil) fun o ho => by
      rw [h.empty r hr hnone] at ho
      exact absurd ho List.not_mem_nil⟩

theorem Sound.apply (h : w.Sound) {e : GridEvent} (hallowed : w.Allowed market e) :
    (w.apply market e).Sound := by
  cases e with
  | fills book => exact h.fills hallowed
  | visit a book =>
    obtain ⟨horders, hleaves⟩ := hallowed
    obtain ⟨hprice, htorn⟩ := h.visited_frame market a
    refine ⟨hprice, fun hdown => ?_, fun o ho => (hleaves o ho).1, fun r hr hnone => ?_⟩
    · simp only [GridWorld.apply, Bool.or_eq_true, Bool.and_eq_true, Bool.not_eq_true'] at hdown
      rcases hdown with hpriceless | ⟨hdown, hplans⟩
      · exact .inl hpriceless
      · exact htorn hplans hdown
    · rcases MarketGrid.visitMarket_seesEmpty horders h.typed r hr hnone with
        ⟨hsame, hcalls⟩ | ⟨hall, hplace⟩
      · refine MarketGrid.leaves_nil hleaves (fun _ _ _ _ hplace => ?_) fun o ho => ?_
        · rw [visited, hcalls] at hplace
          exact absurd hplace List.not_mem_nil
        · rw [h.empty r (hsame.symm.trans hr) hnone] at ho
          exact absurd ho List.not_mem_nil
      · exact MarketGrid.leaves_nil hleaves hplace hall

omit [FloatOps] in
theorem Starts.sound (h : start.Starts) : start.Sound where
  price := by
    rw [h.grid, h.outcomes]
    exact ⟨rfl, fun _ => rfl, fun _ => rfl⟩
  torn htorn := absurd (h.tornDown.symm.trans htorn) Bool.false_ne_true
  typed := h.typed
  empty r hr := by
    rw [h.grid] at hr
    cases hr

theorem Sound.of_reachable (hstart : start.Starts)
    (run : Reachable (Allowed market) (GridWorld.apply market) start w) : w.Sound :=
  run.invariant Sound hstart.sound fun _ _ hinv hallowed => hinv.apply hallowed

/-- In every run of a market: it is without a price exactly while the last two fetches in a row that
ended alike are failures. A visit places orders only at a usable price that is no such case, on a side
the balances can fund at that price; a failed fetch leaves the grid alone the first time, and cancels
all that is listed from the second in a row until two successes in a row. -/
theorem quotes_between_outages (hstart : start.Starts)
    (run : Reachable (Allowed market) (GridWorld.apply market) start w)
    (a : VisitAnswers) :
    w.grid.priceless = outageBy w.outcomes ∧
      (∀ side text quantity result, .place side text quantity result ∈ (w.visited market a).calls →
        w.grid.fetches market a = true ∧ outageBy (true :: w.outcomes) = false ∧
          ∃ price, a.usablePrice = some price ∧
            side.among (a.funding market price).bid (a.funding market price).offer = .funded) ∧
      (w.grid.fetches market a = true → a.usablePrice = none →
        (outageBy (false :: w.outcomes) = false → (w.visited market a).calls = []) ∧
          ∀ orders, outageBy (false :: w.outcomes) = true → a.orders = .ok orders →
            (w.visited market a).calls = orders.map fun o => .cancel o.orderId (a.cancel o.orderId)) := by
  have sound : w.Sound := .of_reachable hstart run
  obtain ⟨-, haccepted, hcalls⟩ := MarketGrid.fetch_inv (a := a) sound.price
  refine ⟨sound.price.priceless, fun side text quantity result hplace => ?_, fun hfetches hprice => ?_⟩
  · obtain ⟨hfetches, price, hfetched, hfunded⟩ := MarketGrid.place_of_visitMarket sound.price hplace
    rw [haccepted] at hfetched
    split at hfetched
    · cases hfetched
    · rename_i hout
      exact ⟨hfetches, by simpa using hout, price, hfetched, hfunded⟩
  · have hnone : (w.grid.fetch a).2.1 = none := by
      rw [haccepted, hprice]
      exact ite_self none
    have hvisited : (w.visited market a).calls = (w.grid.fetch a).2.2 := by
      rw [visited, MarketGrid.visitMarket_unpriced hfetches hnone]
    refine ⟨fun hout => ?_, fun orders hout horders => ?_⟩
    · rw [hvisited, hcalls, hout]
      simp
    · rw [hvisited, hcalls, if_pos ⟨hprice, hout⟩, MarketGrid.handlePriceless, horders]

/-- After an outage, the next visit that gets to a plan tries the cancel of every order that rests on
a side of known funding, however many visits fell out before, and whatever was placed or left there. -/
theorem outage_replaced (hstart : start.Starts)
    (run : Reachable (Allowed market) (GridWorld.apply market) start w)
    (htorn : w.tornDown = true) (hallowed : w.Allowed market (.visit a book))
    (hplans : w.grid.plans market a = true) (hstop : ∀ check, a.stop check = false) :
    ∃ price, a.usablePrice = some price ∧ ∀ o ∈ w.book, ∀ side : OrderSide,
      o.orderType = side.orderType →
        side.among (a.funding market price).bid (a.funding market price).offer ≠ .unknown →
          ∃ ok, .cancel o.orderId ok ∈ (w.visited market a).calls := by
  have sound : w.Sound := .of_reachable hstart run
  obtain ⟨-, haccepted, -⟩ := MarketGrid.fetch_inv (a := a) sound.price
  simp only [MarketGrid.plans, Bool.and_eq_true, Option.any_eq_true, Bool.not_eq_true'] at hplans
  obtain ⟨hfetches, price, hprice, ⟨hfunding, -⟩, horders⟩ := hplans
  have husable : a.usablePrice = some price := by
    rw [haccepted] at hprice
    split at hprice
    · cases hprice
    · exact hprice
  refine ⟨price, husable, fun o ho side htype hknown => ?_⟩
  have hlisted : a.orders = .ok w.book := by
    cases hanswer : a.orders with
    | error e => rw [hanswer] at horders; cases horders
    | ok orders => rw [hallowed.1 orders hanswer]
  have hfunded : ¬ ((a.funding market price).bid = .unknown ∧
      (a.funding market price).offer = .unknown) := by
    rintro ⟨hbid, hoffer⟩
    simp [hbid, hoffer] at hfunding
  rw [visited, MarketGrid.visitMarket_priced hfetches hprice,
    MarketGrid.visitPriced_planned hfunded (hstop _) hlisted]
  have hforced : ((w.grid.fetch a).1.unpark market a (a.funding market price)).forceRefresh = true :=
    MarketGrid.fetch_forced (sound.torn htorn) hprice
  exact MarketGrid.cancels_of_forced hstop hforced hknown ho htype

/-- Where a visit makes no call because nothing is to be expected of the market (parked, or without
rungs and seen empty), none of its orders rests, and it was looked at less than a probe's interval
ago. -/
theorem skipped_is_empty (hstart : start.Starts)
    (run : Reachable (Allowed market) (GridWorld.apply market) start w)
    (hskips : w.grid.parks market a = true ∨
      w.grid.lastResting.any (fun r => !r.anyResting) = true ∧
        (w.grid.lastProbe.map (a.now - ·)).any (fun age => decide (age < unfundedProbe)) = true) :
    w.book = [] ∧ ∃ t, w.grid.lastProbe = some t ∧ a.now - t < unfundedProbe := by
  have sound : w.Sound := .of_reachable hstart run
  have hseen : w.grid.lastResting.any (fun r => !r.anyResting) = true ∧
      (w.grid.lastProbe.map (a.now - ·)).any (fun age => decide (age < unfundedProbe)) = true := by
    rcases hskips with hparks | hseen
    · simp only [MarketGrid.parks, canPark, Bool.and_eq_true] at hparks
      exact ⟨hparks.1.1.1, hparks.2⟩
    · exact hseen
  obtain ⟨hresting, hprobe⟩ := hseen
  refine ⟨?_, ?_⟩
  · cases hr : w.grid.lastResting with
    | none => simp [hr] at hresting
    | some r => exact sound.empty r hr (by simpa [hr] using hresting)
  · cases ht : w.grid.lastProbe with
    | none => simp [ht] at hprobe
    | some t => exact ⟨t, rfl, by simpa [ht] using hprobe⟩

end Runs

section Example

attribute [local instance] Binary64.ops

/-- One bid of 1 CC, 1% below the price. -/
def oneBid : GridMarket := ⟨"CC-USDC", [⟨-1, "1"⟩], [], 1⟩

/-- Nothing rests. -/
def fresh : GridWorld := ⟨{}, [], [], false⟩

theorem fresh_starts : fresh.Starts := ⟨rfl, rfl, rfl, fun _ h => nomatch h⟩

def bidOf99 : Order := ⟨7, "CC-USDC", orderTypeBid, "99.0000000000", "1", "0", "0", none, [], 0⟩

/-- A visit at the time, with 1000 USDC and the given price and listing; cancels fail. -/
def visitAt (now : Instant) (price : Except String ℚ) (orders : List Order) : VisitAnswers where
  now
  stop _ := false
  balances := [⟨"CC", "5", true⟩, ⟨"USDC", "1000", false⟩]
  balancesSetAt := some 0
  balanceStaleAfterSecs := 0
  pricedAt := now
  feeReserveCc := 1
  shapedBefore := []
  shaped := []
  shapeChanged := false
  price
  orders := .ok orders
  tick := 1 / 100
  retryOrder ids := ids
  retryOrder_perm ids := .refl ids
  retried _ := false
  cancel _ := false
  place _ := .placed 7

/-- The bid is placed, the price is lost twice, and the cancel of the bid fails. -/
def lostPrice : List GridEvent :=
  [.visit (visitAt 0 (.ok 100) []) [bidOf99], .visit (visitAt 1 (.error "timeout") [bidOf99]) [bidOf99],
    .visit (visitAt 2 (.error "timeout") [bidOf99]) [bidOf99]]

def lost (n : Nat) : GridWorld := (lostPrice.take n).foldl (apply oneBid) fresh

theorem allowed_visitAt {now : Instant} {price : Except String ℚ} {w : GridWorld} {book : List Order}
    (h : Leaves (w.visited oneBid (visitAt now price w.book)).calls w.book book) :
    w.Allowed oneBid (.visit (visitAt now price w.book) book) :=
  ⟨fun _ horders => (Except.ok.inj horders).symm, h⟩

theorem reachable_lost : Reachable (Allowed oneBid) (apply oneBid) fresh (lost 3) := by
  have placed : Reachable (Allowed oneBid) (apply oneBid) fresh (lost 1) :=
    Reachable.start.step (allowed_visitAt (by unfold Leaves; decide +kernel))
  have failed : Reachable (Allowed oneBid) (apply oneBid) fresh (lost 2) :=
    placed.step (allowed_visitAt (by unfold Leaves; decide +kernel))
  exact failed.step (allowed_visitAt (by unfold Leaves; decide +kernel))

/-- In the outage the price comes back once: nothing is placed yet. -/
theorem lost_awaits_second : (lost 3).grid.priceless = true ∧
    ∀ side text quantity result, .place side text quantity result ∉
      ((lost 3).visited oneBid (visitAt 3 (.ok 100) [bidOf99])).calls := by
  obtain ⟨hpriceless, hplaces, -⟩ :=
    quotes_between_outages fresh_starts reachable_lost (visitAt 3 (.ok 100) [bidOf99])
  refine ⟨hpriceless.trans (by decide +kernel), fun side text quantity result hplace => ?_⟩
  have hout : outageBy (true :: (lost 3).outcomes) = true := by decide +kernel
  exact nomatch hout.symm.trans (hplaces side text quantity result hplace).2.1

/-- After two successes the bid that was left is cancelled again. -/
theorem lost_replaced : (lost 3).book = [bidOf99] ∧
    ∃ ok, .cancel 7 ok ∈ (((lost 3).apply oneBid
      (.visit (visitAt 3 (.ok 100) [bidOf99]) [bidOf99])).visited oneBid
        (visitAt 4 (.ok 100) [bidOf99])).calls := by
  have back : Reachable (Allowed oneBid) (apply oneBid) fresh ((lost 3).apply oneBid
      (.visit (visitAt 3 (.ok 100) [bidOf99]) [bidOf99])) :=
    reachable_lost.step (allowed_visitAt (by unfold Leaves; decide +kernel))
  have allowed : GridWorld.Allowed oneBid ((lost 3).apply oneBid
      (.visit (visitAt 3 (.ok 100) [bidOf99]) [bidOf99])) (.visit (visitAt 4 (.ok 100) [bidOf99]) [bidOf99]) :=
    allowed_visitAt (by unfold Leaves; decide +kernel)
  obtain ⟨price, hprice, hcancels⟩ := outage_replaced fresh_starts back (by decide +kernel) allowed
    (by decide +kernel) fun _ => rfl
  have hundred : (100 : ℚ) = price :=
    Option.some.inj ((by decide +kernel : some (100 : ℚ) =
      (visitAt 4 (.ok 100) [bidOf99]).usablePrice).trans hprice)
  subst hundred
  exact ⟨rfl, hcancels bidOf99 List.mem_cons_self .bid rfl (by decide +kernel)⟩

/-- Without any USDC the market is seen empty and then parked. -/
def poorVisit (now : Instant) : VisitAnswers :=
  { visitAt now (.ok 100) [] with balances := [⟨"CC", "5", true⟩] }

theorem poor_parked : (fresh.apply oneBid (.visit (poorVisit 0) [])).book = [] ∧
    ∃ t, (fresh.apply oneBid (.visit (poorVisit 0) [])).grid.lastProbe = some t ∧
      (poorVisit 1).now - t < unfundedProbe := by
  have run : Reachable (Allowed oneBid) (apply oneBid) fresh
      (fresh.apply oneBid (.visit (poorVisit 0) [])) :=
    .step .start ⟨fun _ horders => (Except.ok.inj horders).symm, fun _ h => nomatch h⟩
  exact skipped_is_empty fresh_starts run (.inl (by decide +kernel))

end Example

end GridWorld

end BookAgent.AgentLogic
