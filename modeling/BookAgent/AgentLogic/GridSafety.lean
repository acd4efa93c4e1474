import BookAgent.Lib.Binary64
import BookAgent.Lib.StableSort
import BookAgent.AgentLogic.Grid

/-!
# Trading against the own grid

The operations of a refresh are run against the book of our own orders. A new order crosses
one of ours that still rests if the two could trade; when a refresh is free of that is read
off the ladders and the old orders.
-/

namespace BookAgent.AgentLogic

open BookAgent.Lib

/-! ## The own book -/

/-- One of our orders in the book; a new order's id is not known in advance. -/
structure RestingOrder where
  orderId : Option Nat
  orderType : Int
  price : String
  deriving DecidableEq

def Order.resting (o : Order) : RestingOrder := ⟨some o.orderId, o.orderType, o.price⟩

def Rung.resting (r : Rung) : RestingOrder := ⟨none, r.side.orderType, r.price⟩

/-- What an operation that succeeds makes of the book. -/
def execute (book : List RestingOrder) : GridOp → List RestingOrder
  | .cancel id _ => book.filter fun o => decide (o.orderId ≠ some id)
  | .place side price _ => ⟨none, side.orderType, price⟩ :: book

/-- An order of this side and price could trade with one of the other side. -/
def Crosses (side : OrderSide) (price other : String) : Prop :=
  ∃ p q, plainValue price = some p ∧ plainValue other = some q ∧
    match side with
    | .bid => q ≤ p
    | .offer => p ≤ q

/-- No order is placed that crosses one of the book. -/
def NeverCrosses (book : List RestingOrder) (ops : List GridOp) : Prop :=
  ∀ before side price quantity after, ops = before ++ .place side price quantity :: after →
    ∀ o ∈ before.foldl execute book, o.orderType = side.opposite.orderType →
      ¬ Crosses side price o.price

variable {book : List RestingOrder} {ops : List GridOp}

theorem neverCrosses_nil : NeverCrosses book [] := by
  intro before side price quantity after h
  cases before <;> cases h

theorem neverCrosses_cancel {id : Nat} {leftover : Bool} :
    NeverCrosses book (.cancel id leftover :: ops)
      ↔ NeverCrosses (execute book (.cancel id leftover)) ops := by
  constructor
  · intro h before side price quantity after hops
    exact h (.cancel id leftover :: before) side price quantity after (by rw [hops]; rfl)
  · intro h before side price quantity after hops
    cases before with
    | nil => cases hops
    | cons op before =>
      obtain ⟨rfl, hrest⟩ := List.cons.inj hops
      exact h before side price quantity after hrest

theorem neverCrosses_place {side : OrderSide} {price quantity : String} :
    NeverCrosses book (.place side price quantity :: ops)
      ↔ (∀ o ∈ book, o.orderType = side.opposite.orderType → ¬ Crosses side price o.price) ∧
        NeverCrosses (execute book (.place side price quantity)) ops := by
  constructor
  · intro h
    refine ⟨h [] side price quantity ops rfl, fun before side' price' quantity' after hops => ?_⟩
    exact h (.place side price quantity :: before) side' price' quantity' after (by rw [hops]; rfl)
  · rintro ⟨hfirst, hrest⟩ before side' price' quantity' after hops
    cases before with
    | nil =>
      obtain ⟨hop, -⟩ := List.cons.inj hops
      cases hop
      exact hfirst
    | cons op before =>
      obtain ⟨rfl, htail⟩ := List.cons.inj hops
      exact hrest before side' price' quantity' after htail

/-- Cancels come to nothing but fewer orders. -/
theorem neverCrosses_cancelAll {ids : List Nat} :
    NeverCrosses book (cancelAll ids ++ ops)
      ↔ NeverCrosses (book.filter fun o => decide (∀ id ∈ ids, o.orderId ≠ some id)) ops := by
  induction ids generalizing book with
  | nil =>
    have same : (book.filter fun o => decide (∀ id ∈ ([] : List Nat), o.orderId ≠ some id)) = book :=
      List.filter_eq_self.mpr fun o _ => decide_eq_true fun id hid => absurd hid List.not_mem_nil
    rw [same]
    rfl
  | cons id ids ih =>
    have both : ((execute book (.cancel id true)).filter fun o =>
          decide (∀ id ∈ ids, o.orderId ≠ some id))
        = book.filter fun o => decide (∀ i ∈ id :: ids, o.orderId ≠ some i) := by
      unfold execute
      rw [List.filter_filter]
      refine List.filter_congr fun o _ => ?_
      rw [Bool.eq_iff_iff, Bool.and_eq_true, decide_eq_true_eq, decide_eq_true_eq,
        decide_eq_true_eq, List.forall_mem_cons, and_comm]
    rw [← both, ← ih]
    exact neverCrosses_cancel

theorem neverCrosses_only_cancels (ids : List Nat) : NeverCrosses book (cancelAll ids) := by
  rw [← List.append_nil (cancelAll ids), neverCrosses_cancelAll]
  exact neverCrosses_nil

/-! ## Placing the rungs in turn -/

/-- What belongs to one side. -/
def OrderSide.among {α : Type} (bids offers : α) : OrderSide → α
  | bid => bids
  | offer => offers

/-- No rung crosses an old order of the other side that still rests at its turn, or a rung
of the other side placed before it. -/
def ClearInTurn : List Rung → (bidOld offerOld : List Order) → (placed : List Rung) → Prop
  | [], _, _, _ => True
  | r :: rs, bidOld, offerOld, placed =>
    (∀ o ∈ r.side.opposite.among bidOld offerOld, ¬ Crosses r.side r.price o.price) ∧
      (∀ p ∈ placed, p.side = r.side.opposite → ¬ Crosses r.side r.price p.price) ∧
      match r.side with
      | .bid => ClearInTurn rs bidOld.tail offerOld (r :: placed)
      | .offer => ClearInTurn rs bidOld offerOld.tail (r :: placed)

/-- The book holds these orders of the two sides. -/
def HoldsBook (book : List RestingOrder) (bidOld offerOld : List Order) (placed : List Rung) : Prop :=
  ∀ o, (o.orderType = orderTypeBid ∨ o.orderType = orderTypeOffer) →
    (o ∈ book ↔ (∃ old ∈ bidOld ++ offerOld, old.resting = o) ∨ ∃ p ∈ placed, p.resting = o)

/-- The old orders of the two sides. -/
structure OldOrders (bidOld offerOld : List Order) : Prop where
  bids : ∀ o ∈ bidOld, o.orderType = orderTypeBid
  offers : ∀ o ∈ offerOld, o.orderType = orderTypeOffer
  nodup : ((bidOld ++ offerOld).map (·.orderId)).Nodup

namespace HoldsBook

variable {bidOld offerOld : List Order} {placed : List Rung}

theorem place (h : HoldsBook book bidOld offerOld placed) (r : Rung) :
    HoldsBook (execute book (.place r.side r.price r.quantity)) bidOld offerOld (r :: placed) := by
  intro o htype
  unfold execute
  rw [List.mem_cons, h o htype, or_left_comm, List.exists_mem_cons_iff]
  exact or_congr Iff.rfl (or_congr ⟨Eq.symm, Eq.symm⟩ Iff.rfl)

/-- A cancel takes its order out of the book. -/
theorem cancel {old : Order} {bidOld' offerOld' : List Order}
    (h : HoldsBook book bidOld offerOld placed)
    (hrest : ∀ o, o ∈ bidOld' ++ offerOld' ↔ o ∈ bidOld ++ offerOld ∧ o.orderId ≠ old.orderId)
    (left : Bool) :
    HoldsBook (execute book (.cancel old.orderId left)) bidOld' offerOld' placed := by
  intro o htype
  unfold execute
  rw [List.mem_filter, h o htype, decide_eq_true_eq]
  constructor
  · rintro ⟨⟨order, horder, rfl⟩ | ⟨p, hp, rfl⟩, hid⟩
    · refine .inl ⟨order, (hrest order).mpr ⟨horder, fun hsame => hid ?_⟩, rfl⟩
      exact congrArg some hsame
    · exact .inr ⟨p, hp, rfl⟩
  · rintro (⟨order, horder, rfl⟩ | ⟨p, hp, rfl⟩)
    · obtain ⟨hmem, hid⟩ := (hrest order).mp horder
      exact ⟨.inl ⟨order, hmem, rfl⟩, fun hsame => hid (Option.some.inj hsame)⟩
    · exact ⟨.inr ⟨p, hp, rfl⟩, fun hsame => by cases hsame⟩

/-- What a new order is held against. -/
theorem against (h : HoldsBook book bidOld offerOld placed) (hold : OldOrders bidOld offerOld)
    (side : OrderSide) (price : String) :
    (∀ o ∈ book, o.orderType = side.opposite.orderType → ¬ Crosses side price o.price) ↔
      (∀ o ∈ side.opposite.among bidOld offerOld, ¬ Crosses side price o.price) ∧
        ∀ p ∈ placed, p.side = side.opposite → ¬ Crosses side price p.price := by
  have typed : side.opposite.orderType = orderTypeBid ∨ side.opposite.orderType = orderTypeOffer := by
    cases side
    · exact .inr rfl
    · exact .inl rfl
  constructor
  · intro hbook
    refine ⟨fun o ho => ?_, fun p hp hside => ?_⟩
    · have otype : o.orderType = side.opposite.orderType := by
        cases side
        · exact hold.offers o ho
        · exact hold.bids o ho
      have mem : o ∈ bidOld ++ offerOld := by
        cases side
        · exact List.mem_append_right _ ho
        · exact List.mem_append_left _ ho
      have known : o.orderType = orderTypeBid ∨ o.orderType = orderTypeOffer := otype ▸ typed
      exact hbook o.resting ((h o.resting known).mpr (.inl ⟨o, mem, rfl⟩)) otype
    · have ptype : p.resting.orderType = side.opposite.orderType := congrArg OrderSide.orderType hside
      exact hbook p.resting ((h _ (ptype ▸ typed)).mpr (.inr ⟨p, hp, rfl⟩)) ptype
  · rintro ⟨hold', hplaced⟩ o ho htype
    rcases (h o (htype ▸ typed)).mp ho with ⟨order, horder, rfl⟩ | ⟨p, hp, rfl⟩
    · refine hold' order ?_
      cases side with
      | bid =>
        refine (List.mem_append.mp horder).resolve_left fun hbid => ?_
        exact absurd ((hold.bids order hbid).symm.trans htype) (by decide)
      | offer =>
        refine (List.mem_append.mp horder).resolve_right fun hoffer => ?_
        exact absurd ((hold.offers order hoffer).symm.trans htype) (by decide)
    · refine hplaced p hp ?_
      cases hp : p.side with
      | bid =>
        cases side with
        | bid =>
          have same : p.side.orderType = orderTypeOffer := htype
          rw [hp] at same
          exact absurd same (by decide)
        | offer => rfl
      | offer =>
        cases side with
        | bid => rfl
        | offer =>
          have same : p.side.orderType = orderTypeBid := htype
          rw [hp] at same
          exact absurd same (by decide)

end HoldsBook

namespace OldOrders

variable {bidOld offerOld : List Order} {o : Order}

theorem tail_bid (h : OldOrders (o :: bidOld) offerOld) : OldOrders bidOld offerOld where
  bids order horder := h.bids order (List.mem_cons_of_mem _ horder)
  offers := h.offers
  nodup := (List.nodup_cons.mp h.nodup).2

theorem tail_offer (h : OldOrders bidOld (o :: offerOld)) : OldOrders bidOld offerOld where
  bids := h.bids
  offers order horder := h.offers order (List.mem_cons_of_mem _ horder)
  nodup := by
    refine h.nodup.sublist (List.Sublist.map _ ?_)
    exact (List.sublist_cons_self _ _).append_left _

/-- Only the order itself has its id. -/
theorem mem_tail_bid (h : OldOrders (o :: bidOld) offerOld) (order : Order) :
    order ∈ bidOld ++ offerOld ↔ order ∈ o :: bidOld ++ offerOld ∧ order.orderId ≠ o.orderId := by
  obtain ⟨hnew, -⟩ := List.nodup_cons.mp h.nodup
  constructor
  · intro hmem
    refine ⟨List.mem_cons_of_mem _ hmem, fun hsame => hnew ?_⟩
    exact List.mem_map.mpr ⟨order, hmem, hsame⟩
  · rintro ⟨hmem, hid⟩
    refine (List.mem_cons.mp hmem).resolve_left fun heq => hid ?_
    rw [heq]

theorem mem_tail_offer (h : OldOrders bidOld (o :: offerOld)) (order : Order) :
    order ∈ bidOld ++ offerOld ↔ order ∈ bidOld ++ o :: offerOld ∧ order.orderId ≠ o.orderId := by
  have nodup : ((o :: (bidOld ++ offerOld)).map (·.orderId)).Nodup := by
    refine (List.Perm.nodup_iff ?_).mp h.nodup
    exact List.Perm.map _ List.perm_middle
  obtain ⟨hnew, -⟩ := List.nodup_cons.mp nodup
  constructor
  · intro hmem
    refine ⟨?_, fun hsame => hnew (List.mem_map.mpr ⟨order, hmem, hsame⟩)⟩
    rcases List.mem_append.mp hmem with hb | ho
    · exact List.mem_append_left _ hb
    · exact List.mem_append_right _ (List.mem_cons_of_mem _ ho)
  · rintro ⟨hmem, hid⟩
    rcases List.mem_append.mp hmem with hb | ho
    · exact List.mem_append_left _ hb
    · refine List.mem_append_right _ ((List.mem_cons.mp ho).resolve_left fun heq => hid ?_)
      rw [heq]

end OldOrders

/-- The run of a ladder against the book, up to cancels. -/
theorem neverCrosses_interleave (rs : List Rung) {leftovers : List GridOp}
    (hleft : ∀ book, NeverCrosses book leftovers) :
    ∀ {book : List RestingOrder} {bidOld offerOld : List Order} {placed : List Rung},
      HoldsBook book bidOld offerOld placed → OldOrders bidOld offerOld →
      (NeverCrosses book ((interleave rs (bidOld.map (·.orderId)) (offerOld.map (·.orderId))).1
          ++ leftovers) ↔ ClearInTurn rs bidOld offerOld placed) := by
  induction rs with
  | nil => exact fun _ _ => ⟨fun _ => trivial, fun _ => hleft _⟩
  | cons r rs ih =>
    intro book bidOld offerOld placed hbook hold
    unfold interleave ClearInTurn
    cases hside : r.side with
    | bid =>
      have turn {book : List RestingOrder} {bidOld : List Order}
          (hbook : HoldsBook book bidOld offerOld placed) (hold : OldOrders bidOld offerOld) :
          NeverCrosses book (.place .bid r.price r.quantity ::
            ((interleave rs (bidOld.map (·.orderId)) (offerOld.map (·.orderId))).1 ++ leftovers)) ↔
            (∀ o ∈ offerOld, ¬ Crosses .bid r.price o.price) ∧
              (∀ p ∈ placed, p.side = .offer → ¬ Crosses .bid r.price p.price) ∧
              ClearInTurn rs bidOld offerOld (r :: placed) := by
        have placedNow := hbook.place r
        rw [hside] at placedNow
        rw [neverCrosses_place, hbook.against hold, ih placedNow hold, and_assoc]
        exact Iff.rfl
      cases bidOld with
      | nil => exact turn hbook hold
      | cons o bidOld =>
        have cancelled := hbook.cancel hold.mem_tail_bid false
        refine Iff.trans ?_ (turn cancelled hold.tail_bid)
        exact neverCrosses_cancel
    | offer =>
      have turn {book : List RestingOrder} {offerOld : List Order}
          (hbook : HoldsBook book bidOld offerOld placed) (hold : OldOrders bidOld offerOld) :
          NeverCrosses book (.place .offer r.price r.quantity ::
            ((interleave rs (bidOld.map (·.orderId)) (offerOld.map (·.orderId))).1 ++ leftovers)) ↔
            (∀ o ∈ bidOld, ¬ Crosses .offer r.price o.price) ∧
              (∀ p ∈ placed, p.side = .bid → ¬ Crosses .offer r.price p.price) ∧
              ClearInTurn rs bidOld offerOld (r :: placed) := by
        have placedNow := hbook.place r
        rw [hside] at placedNow
        rw [neverCrosses_place, hbook.against hold, ih placedNow hold, and_assoc]
        exact Iff.rfl
      cases offerOld with
      | nil => exact turn hbook hold
      | cons o offerOld =>
        have cancelled := hbook.cancel hold.mem_tail_offer false
        refine Iff.trans ?_ (turn cancelled hold.tail_offer)
        exact neverCrosses_cancel

/-! ## The operations of a plan -/

section Plan

variable [FloatOps] {orders : List Order} {mid tick : ℚ} {bidLevels offerLevels : List PriceLevel}
  {plan : SideAction × SideAction}

theorem mem_nearestFirst {side : OrderSide} {o : Order} :
    o ∈ nearestFirst orders side mid ↔ o ∈ orders ∧ o.orderType = side.orderType := by
  unfold nearestFirst
  rw [List.mem_insertionSort, List.mem_filter, decide_eq_true_eq]

theorem nodup_nearestFirst (hids : (orders.map (·.orderId)).Nodup) (side : OrderSide) :
    ((nearestFirst orders side mid).map (·.orderId)).Nodup := by
  have sorted : (nearestFirst orders side mid).Perm
      (orders.filter fun o => decide (o.orderType = side.orderType)) :=
    List.perm_insertionSort _ _
  exact (sorted.map _).nodup_iff.mpr (hids.sublist ((List.filter_sublist).map _))

theorem oldOrders_nearestFirst (hids : (orders.map (·.orderId)).Nodup) :
    OldOrders (nearestFirst orders .bid mid) (nearestFirst orders .offer mid) where
  bids o ho := (mem_nearestFirst.mp ho).2
  offers o ho := (mem_nearestFirst.mp ho).2
  nodup := by
    rw [List.map_append, List.nodup_append]
    refine ⟨nodup_nearestFirst hids _, nodup_nearestFirst hids _, ?_⟩
    intro id hbid id' hoffer hsame
    obtain ⟨b, hb, rfl⟩ := List.mem_map.mp hbid
    obtain ⟨f, hf, rfl⟩ := List.mem_map.mp hoffer
    obtain ⟨hbmem, hbtype⟩ := mem_nearestFirst.mp hb
    obtain ⟨hfmem, hftype⟩ := mem_nearestFirst.mp hf
    have one : b = f := List.inj_on_of_nodup_map hids hbmem hfmem hsame
    rw [one, hftype] at hbtype
    exact absurd hbtype (by decide)

/-- The old orders of a side that a plan does not withdraw. -/
def keptOrders (action : SideAction) (orders : List Order) (side : OrderSide) (mid : ℚ) : List Order :=
  if action = .cancel then [] else nearestFirst orders side mid

theorem keptOrders_subset {action : SideAction} {side : OrderSide} :
    ∀ o ∈ keptOrders action orders side mid, o ∈ nearestFirst orders side mid := by
  unfold keptOrders
  split_ifs
  · exact fun o ho => absurd ho List.not_mem_nil
  · exact fun o ho => ho

theorem keptOrders_sublist {action : SideAction} {side : OrderSide} :
    (keptOrders action orders side mid).Sublist (nearestFirst orders side mid) := by
  unfold keptOrders
  split_ifs
  · exact List.nil_sublist _
  · exact List.Sublist.refl _

theorem oldOrders_kept (hids : (orders.map (·.orderId)).Nodup) :
    OldOrders (keptOrders plan.1 orders .bid mid) (keptOrders plan.2 orders .offer mid) where
  bids o ho := (oldOrders_nearestFirst hids).bids o (keptOrders_subset o ho)
  offers o ho := (oldOrders_nearestFirst hids).offers o (keptOrders_subset o ho)
  nodup := (oldOrders_nearestFirst hids).nodup.sublist
    ((keptOrders_sublist.append keptOrders_sublist).map _)

omit [FloatOps] in
theorem cancelAll_append (ids ids' : List Nat) : cancelAll (ids ++ ids') = cancelAll ids ++ cancelAll ids' :=
  List.map_append

/-- The ids that a plan withdraws first. -/
def withdrawnIds (plan : SideAction × SideAction) (orders : List Order) (mid : ℚ) : List Nat :=
  (if plan.1 = .cancel then sideQueue orders .bid mid else []) ++
    if plan.2 = .cancel then sideQueue orders .offer mid else []

theorem mem_keptOrders {action : SideAction} {side : OrderSide} {o : Order} :
    o ∈ keptOrders action orders side mid
      ↔ action ≠ .cancel ∧ o ∈ orders ∧ o.orderType = side.orderType := by
  unfold keptOrders
  split_ifs with h
  · exact ⟨fun ho => absurd ho List.not_mem_nil, fun ho => absurd h ho.1⟩
  · rw [mem_nearestFirst]
    exact ⟨fun ho => ⟨h, ho⟩, fun ho => ho.2⟩

theorem mem_withdrawn_side {action : SideAction} {side : OrderSide} {id : Nat} :
    id ∈ (if action = .cancel then sideQueue orders side mid else [])
      ↔ action = .cancel ∧ ∃ o ∈ orders, o.orderType = side.orderType ∧ o.orderId = id := by
  split_ifs with h
  · unfold sideQueue
    rw [List.mem_map]
    constructor
    · rintro ⟨o, ho, hid⟩
      obtain ⟨hmem, htype⟩ := mem_nearestFirst.mp ho
      exact ⟨h, o, hmem, htype, hid⟩
    · rintro ⟨-, o, hmem, htype, hid⟩
      exact ⟨o, mem_nearestFirst.mpr ⟨hmem, htype⟩, hid⟩
  · exact ⟨fun ho => absurd ho List.not_mem_nil, fun ho => absurd ho.1 h⟩

/-- An order of a side is withdrawn exactly if its side is. -/
theorem mem_withdrawnIds (hids : (orders.map (·.orderId)).Nodup) {o : Order} (ho : o ∈ orders)
    {side : OrderSide} (htype : o.orderType = side.orderType) :
    o.orderId ∈ withdrawnIds plan orders mid ↔ side.among plan.1 plan.2 = .cancel := by
  have same {side' : OrderSide} (h : ∃ o' ∈ orders, o'.orderType = side'.orderType ∧
      o'.orderId = o.orderId) : side' = side := by
    obtain ⟨o', ho', htype', hid⟩ := h
    have one : o' = o := List.inj_on_of_nodup_map hids ho' ho hid
    rw [one, htype] at htype'
    cases side <;> cases side' <;> first | rfl | exact absurd htype' (by decide)
  unfold withdrawnIds
  rw [List.mem_append, mem_withdrawn_side, mem_withdrawn_side]
  constructor
  · rintro (⟨hcancel, h⟩ | ⟨hcancel, h⟩)
    · exact same h ▸ hcancel
    · exact same h ▸ hcancel
  · intro hcancel
    cases side with
    | bid => exact .inl ⟨hcancel, o, ho, htype, rfl⟩
    | offer => exact .inr ⟨hcancel, o, ho, htype, rfl⟩

/-- After the withdrawals the book holds the old orders that were kept. -/
theorem holdsBook_withdrawn (hids : (orders.map (·.orderId)).Nodup) :
    HoldsBook ((orders.map Order.resting).filter fun o =>
        decide (∀ id ∈ withdrawnIds plan orders mid, o.orderId ≠ some id))
      (keptOrders plan.1 orders .bid mid) (keptOrders plan.2 orders .offer mid) [] := by
  intro o htype
  rw [List.mem_filter, List.mem_map, decide_eq_true_eq]
  constructor
  · rintro ⟨⟨order, hmem, rfl⟩, hkept⟩
    have notWithdrawn : order.orderId ∉ withdrawnIds plan orders mid :=
      fun h => hkept order.orderId h rfl
    refine .inl ⟨order, List.mem_append.mpr ?_, rfl⟩
    rcases htype with hbid | hoffer
    · have side : order.orderType = OrderSide.bid.orderType := hbid
      rw [mem_withdrawnIds hids hmem side] at notWithdrawn
      exact .inl (mem_keptOrders.mpr ⟨notWithdrawn, hmem, side⟩)
    · have side : order.orderType = OrderSide.offer.orderType := hoffer
      rw [mem_withdrawnIds hids hmem side] at notWithdrawn
      exact .inr (mem_keptOrders.mpr ⟨notWithdrawn, hmem, side⟩)
  · rintro (⟨order, hmem, rfl⟩ | ⟨p, hp, -⟩)
    · have kept : order ∈ orders ∧ order.orderId ∉ withdrawnIds plan orders mid := by
        rcases List.mem_append.mp hmem with h | h <;>
          obtain ⟨haction, horder, side⟩ := mem_keptOrders.mp h <;>
          exact ⟨horder, fun hw => haction ((mem_withdrawnIds hids horder side).mp hw)⟩
      refine ⟨⟨order, kept.1, rfl⟩, fun id hid hsame => kept.2 ?_⟩
      exact Option.some.inj hsame ▸ hid
    · exact absurd hp List.not_mem_nil

theorem neverCrosses_gridOps (hids : (orders.map (·.orderId)).Nodup) :
    NeverCrosses (orders.map Order.resting) (gridOps bidLevels offerLevels mid tick orders plan) ↔
      ClearInTurn (planRungs bidLevels offerLevels mid tick plan)
        (keptOrders plan.1 orders .bid mid) (keptOrders plan.2 orders .offer mid) [] := by
  have withdrawn : (if plan.1 = .cancel then cancelAll (sideQueue orders .bid mid) else []) ++
        (if plan.2 = .cancel then cancelAll (sideQueue orders .offer mid) else [])
      = cancelAll (withdrawnIds plan orders mid) := by
    unfold withdrawnIds
    rw [cancelAll_append]
    split_ifs <;> rfl
  have queue (action : SideAction) (side : OrderSide) :
      (if action = .cancel then [] else sideQueue orders side mid)
        = (keptOrders action orders side mid).map (·.orderId) := by
    unfold keptOrders sideQueue
    split_ifs <;> rfl
  unfold gridOps
  dsimp only
  rw [withdrawn, neverCrosses_cancelAll, queue, queue]
  refine neverCrosses_interleave _ (fun book => ?_) (holdsBook_withdrawn hids) (oldOrders_kept hids)
  have leftover (c : Prop) [Decidable c] (ids : List Nat) :
      (if c then cancelAll ids else []) = cancelAll (if c then ids else []) := by
    split_ifs <;> rfl
  rw [leftover, leftover, ← cancelAll_append]
  exact neverCrosses_only_cancels _

end Plan

/-! ## Whose turn it is -/

theorem crosses_offer_iff {price other : String} :
    Crosses .offer price other ↔ Crosses .bid other price :=
  ⟨fun ⟨p, q, hp, hq, hle⟩ => ⟨q, p, hq, hp, hle⟩, fun ⟨p, q, hp, hq, hle⟩ => ⟨q, p, hq, hp, hle⟩⟩

/-- A rung's turn comes when as many old orders of the other side are gone as rungs of that
side came before it. -/
theorem clearInTurn_iff {rs : List Rung} : ∀ {bidOld offerOld : List Order} {placed : List Rung},
    ClearInTurn rs bidOld offerOld placed ↔ ∀ before r after, rs = before ++ r :: after →
      (∀ o ∈ (r.side.opposite.among bidOld offerOld).drop
          (before.countP fun p => decide (p.side = r.side.opposite)),
        ¬ Crosses r.side r.price o.price) ∧
      (∀ p, p ∈ placed ∨ p ∈ before → p.side = r.side.opposite →
        ¬ Crosses r.side r.price p.price) := by
  induction rs with
  | nil =>
    intro bidOld offerOld placed
    refine ⟨fun _ before r after h => ?_, fun _ => trivial⟩
    cases before <;> cases h
  | cons r rs ih =>
    intro bidOld offerOld placed
    have later (before : List Rung) (s : Rung) : ((s.side.opposite.among
          (if r.side = .bid then bidOld.tail else bidOld)
          (if r.side = .bid then offerOld else offerOld.tail)).drop
          (before.countP fun p => decide (p.side = s.side.opposite)))
        = (s.side.opposite.among bidOld offerOld).drop
          ((r :: before).countP fun p => decide (p.side = s.side.opposite)) := by
      cases hr : r.side <;> cases hs : s.side <;>
        simp [hr, OrderSide.opposite, OrderSide.among]
    have unfolded : ClearInTurn (r :: rs) bidOld offerOld placed ↔
        (∀ o ∈ r.side.opposite.among bidOld offerOld, ¬ Crosses r.side r.price o.price) ∧
        (∀ p ∈ placed, p.side = r.side.opposite → ¬ Crosses r.side r.price p.price) ∧
        ClearInTurn rs (if r.side = .bid then bidOld.tail else bidOld)
          (if r.side = .bid then offerOld else offerOld.tail) (r :: placed) := by
      rw [ClearInTurn]
      cases r.side <;> exact Iff.rfl
    rw [unfolded, ih]
    constructor
    · rintro ⟨hold, hplaced, hrest⟩ before s after hsplit
      cases before with
      | nil =>
        obtain ⟨rfl, rfl⟩ := List.cons.inj hsplit
        refine ⟨hold, fun p hp => ?_⟩
        exact hplaced p (hp.resolve_right List.not_mem_nil)
      | cons x before =>
        obtain ⟨rfl, htail⟩ := List.cons.inj hsplit
        obtain ⟨hs, hps⟩ := hrest before s after htail
        rw [later] at hs
        refine ⟨hs, fun p hp => hps p ?_⟩
        rcases hp with hp | hp
        · exact .inl (List.mem_cons_of_mem _ hp)
        · rcases List.mem_cons.mp hp with rfl | hp
          · exact .inl List.mem_cons_self
          · exact .inr hp
    · intro h
      obtain ⟨hold, hplaced⟩ := h [] r rs rfl
      refine ⟨hold, fun p hp => hplaced p (.inl hp), fun before s after hsplit => ?_⟩
      obtain ⟨hs, hps⟩ := h (r :: before) s after (by rw [hsplit]; rfl)
      rw [later]
      refine ⟨hs, fun p hp => hps p ?_⟩
      rcases hp with hp | hp
      · rcases List.mem_cons.mp hp with rfl | hp
        · exact .inr List.mem_cons_self
        · exact .inl hp
      · exact .inr (List.mem_cons_of_mem _ hp)

/-! ## Both ladders at once -/

section Ladders

variable [FloatOps] {bidLevels offerLevels : List PriceLevel} {mid tick : ℚ} {orders : List Order}

/-- What both ladders have to keep clear of when both sides are replaced. Of the old orders
of the other side those nearest to the mid are gone at a rung's turn, one for each rung of
that side nearer than it. -/
structure LaddersClear (bidLevels offerLevels : List PriceLevel) (mid tick : ℚ)
    (orders : List Order) : Prop where
  bids : ∀ b ∈ bidLevels, ∀ o ∈ (nearestFirst orders .offer mid).drop
      (offerLevels.countP fun f => decide (|f.deltaPercent| < |b.deltaPercent|)),
    ¬ Crosses .bid (rungPrice .bid mid b.deltaPercent tick) o.price
  offers : ∀ f ∈ offerLevels, ∀ o ∈ (nearestFirst orders .bid mid).drop
      (bidLevels.countP fun b => decide (|b.deltaPercent| ≤ |f.deltaPercent|)),
    ¬ Crosses .offer (rungPrice .offer mid f.deltaPercent tick) o.price
  rungs : ∀ b ∈ bidLevels, ∀ f ∈ offerLevels, ¬ Crosses .bid
    (rungPrice .bid mid b.deltaPercent tick) (rungPrice .offer mid f.deltaPercent tick)

/-- At equal distance bids go before offers. -/
def BidFirst (a b : Rung) : Prop := ¬ (a.side = .offer ∧ b.side = .bid)

theorem side_of_newRungs {side : OrderSide} {levels : List PriceLevel} {r : Rung}
    (h : r ∈ newRungs side levels mid tick) : r.side = side := by
  obtain ⟨l, -, rfl⟩ := List.mem_map.mp h
  rfl

theorem mem_newRungs {side : OrderSide} {levels : List PriceLevel} {l : PriceLevel}
    (h : l ∈ levels) : (⟨|l.deltaPercent|, side, rungPrice side mid l.deltaPercent tick,
      l.quantity⟩ : Rung) ∈ newRungs side levels mid tick :=
  List.mem_map_of_mem h

theorem planRungs_both : planRungs bidLevels offerLevels mid tick (.replace, .replace)
    = (newRungs .bid bidLevels mid tick ++ newRungs .offer offerLevels mid tick).insertionSort
      fun a b => a.absDelta ≤ b.absDelta := rfl

theorem mem_planRungs_both {r : Rung} :
    r ∈ planRungs bidLevels offerLevels mid tick (.replace, .replace)
      ↔ r ∈ newRungs .bid bidLevels mid tick ∨ r ∈ newRungs .offer offerLevels mid tick := by
  rw [planRungs_both, List.mem_insertionSort, List.mem_append]

theorem planRungs_both_sorted :
    (planRungs bidLevels offerLevels mid tick (.replace, .replace)).Pairwise
      (StableOrder Rung.absDelta BidFirst) := by
  refine pairwise_insertionSort_stable (List.pairwise_append.mpr ⟨?_, ?_, ?_⟩)
  · refine List.pairwise_of_forall_mem_list fun a ha b _ h => ?_
    exact OrderSide.noConfusion ((side_of_newRungs ha).symm.trans h.1)
  · refine List.pairwise_of_forall_mem_list fun a _ b hb h => ?_
    exact OrderSide.noConfusion ((side_of_newRungs hb).symm.trans h.2)
  · intro a ha b _ h
    exact OrderSide.noConfusion ((side_of_newRungs ha).symm.trans h.1)

/-- The rungs of one side whose distance passes a test, over both ladders. -/
theorem countP_planRungs_both (side : OrderSide) (near : ℚ → Bool) :
    ((planRungs bidLevels offerLevels mid tick (.replace, .replace)).countP fun p =>
        decide (p.side = side) && near p.absDelta)
      = (side.among bidLevels offerLevels).countP fun l => near |l.deltaPercent| := by
  rw [planRungs_both, (List.perm_insertionSort _ _).countP_eq, List.countP_append]
  unfold newRungs
  rw [List.countP_map, List.countP_map]
  cases side with
  | bid =>
    have none : (offerLevels.countP ((fun p : Rung => decide (p.side = OrderSide.bid) &&
        near p.absDelta) ∘ fun l => ⟨|l.deltaPercent|, .offer,
          rungPrice .offer mid l.deltaPercent tick, l.quantity⟩)) = 0 :=
      List.countP_eq_zero.mpr fun l _ => Bool.noConfusion
    rw [none, Nat.add_zero]
    exact List.countP_congr fun l _ => Iff.rfl
  | offer =>
    have none : (bidLevels.countP ((fun p : Rung => decide (p.side = OrderSide.offer) &&
        near p.absDelta) ∘ fun l => ⟨|l.deltaPercent|, .bid,
          rungPrice .bid mid l.deltaPercent tick, l.quantity⟩)) = 0 :=
      List.countP_eq_zero.mpr fun l _ => Bool.noConfusion
    rw [none, Nat.zero_add]
    exact List.countP_congr fun l _ => Iff.rfl

/-- How many rungs of the other side come before a rung. -/
theorem rungs_before {before after : List Rung} {r : Rung}
    (h : planRungs bidLevels offerLevels mid tick (.replace, .replace) = before ++ r :: after) :
    before.countP (fun p => decide (p.side = r.side.opposite)) =
      match r.side with
      | .bid => offerLevels.countP fun f => decide (|f.deltaPercent| < r.absDelta)
      | .offer => bidLevels.countP fun b => decide (|b.deltaPercent| ≤ r.absDelta) := by
  have sorted : (planRungs bidLevels offerLevels mid tick (.replace, .replace)).Pairwise
    (StableOrder Rung.absDelta BidFirst) := planRungs_both_sorted
  cases hside : r.side with
  | bid =>
    have counted : ((planRungs bidLevels offerLevels mid tick (.replace, .replace)).countP fun p =>
          decide (p.side = .offer) && decide (p.absDelta < r.absDelta))
        = offerLevels.countP fun f => decide (|f.deltaPercent| < r.absDelta) :=
      countP_planRungs_both .offer fun d => decide (d < r.absDelta)
    refine Eq.trans ?_ counted
    refine countP_before sorted h (fun x hx => ?_) ?_ fun x hx => ?_
    · rw [Bool.and_eq_true, decide_eq_true_eq, decide_eq_true_eq, decide_eq_true_eq]
      refine ⟨fun hq => hq.1, fun hoffer => ⟨hoffer, ?_⟩⟩
      rcases hx with hlt | ⟨-, hfirst⟩
      · exact hlt
      · exact absurd ⟨hoffer, hside⟩ hfirst
    · rw [hside]
      rfl
    · refine Bool.eq_false_iff.mpr fun hq => ?_
      rw [Bool.and_eq_true, decide_eq_true_eq, decide_eq_true_eq] at hq
      exact absurd hq.2 hx.le.not_gt
  | offer =>
    have counted : ((planRungs bidLevels offerLevels mid tick (.replace, .replace)).countP fun p =>
          decide (p.side = .bid) && decide (p.absDelta ≤ r.absDelta))
        = bidLevels.countP fun b => decide (|b.deltaPercent| ≤ r.absDelta) :=
      countP_planRungs_both .bid fun d => decide (d ≤ r.absDelta)
    refine Eq.trans ?_ counted
    refine countP_before sorted h (fun x hx => ?_) ?_ fun x hx => ?_
    · rw [Bool.and_eq_true, decide_eq_true_eq, decide_eq_true_eq, decide_eq_true_eq]
      exact ⟨fun hq => hq.1, fun hbid => ⟨hbid, hx.le⟩⟩
    · rw [hside]
      rfl
    · refine Bool.eq_false_iff.mpr fun hq => ?_
      rw [Bool.and_eq_true, decide_eq_true_eq, decide_eq_true_eq] at hq
      rcases hx with hlt | ⟨-, hfirst⟩
      · exact absurd hq.2 hlt.not_ge
      · exact hfirst ⟨hside, hq.1⟩

theorem clearInTurn_both_iff :
    ClearInTurn (planRungs bidLevels offerLevels mid tick (.replace, .replace))
        (nearestFirst orders .bid mid) (nearestFirst orders .offer mid) []
      ↔ LaddersClear bidLevels offerLevels mid tick orders := by
  rw [clearInTurn_iff]
  constructor
  · intro h
    have planned {r : Rung} (hr : r ∈ newRungs .bid bidLevels mid tick ∨
          r ∈ newRungs .offer offerLevels mid tick) :
        r ∈ planRungs bidLevels offerLevels mid tick (.replace, .replace) :=
      mem_planRungs_both.mpr hr
    have turn {r : Rung} (hr : r ∈ newRungs .bid bidLevels mid tick ∨
          r ∈ newRungs .offer offerLevels mid tick) :
        ∃ before after,
          planRungs bidLevels offerLevels mid tick (.replace, .replace) = before ++ r :: after :=
      List.append_of_mem (planned hr)
    -- whichever of the two comes second is held against the first
    have apart {b f : Rung} (hb : b ∈ newRungs .bid bidLevels mid tick)
        (hf : f ∈ newRungs .offer offerLevels mid tick) : ¬ Crosses .bid b.price f.price := by
      have hbid := side_of_newRungs hb
      have hoffer := side_of_newRungs hf
      obtain ⟨before, after, hsplit⟩ := turn (.inl hb)
      have offered := planned (.inr hf)
      rw [hsplit, List.mem_append, List.mem_cons] at offered
      rcases offered with hfirst | hsame | hsecond
      · obtain ⟨-, hps⟩ := h before b after hsplit
        rw [hbid] at hps
        exact hps f (.inr hfirst) hoffer
      · rw [hsame, hbid] at hoffer
        exact OrderSide.noConfusion hoffer
      · obtain ⟨between, rest, hafter⟩ := List.append_of_mem hsecond
        have hlater : planRungs bidLevels offerLevels mid tick (.replace, .replace)
            = (before ++ b :: between) ++ f :: rest := by
          rw [hsplit, hafter, List.append_assoc, List.cons_append]
        obtain ⟨-, hps⟩ := h _ f rest hlater
        rw [hoffer] at hps
        have hb' : b ∈ before ++ b :: between := List.mem_append_right _ List.mem_cons_self
        exact fun hcross => hps b (.inr hb') hbid (crosses_offer_iff.mpr hcross)
    have bidTurn {b : Rung} (hb : b ∈ newRungs .bid bidLevels mid tick) :
        ∀ o ∈ (nearestFirst orders .offer mid).drop
          (offerLevels.countP fun f => decide (|f.deltaPercent| < b.absDelta)),
          ¬ Crosses .bid b.price o.price := by
      obtain ⟨before, after, hsplit⟩ := turn (.inl hb)
      obtain ⟨hold, -⟩ := h before b after hsplit
      rw [rungs_before hsplit, side_of_newRungs hb] at hold
      exact hold
    have offerTurn {f : Rung} (hf : f ∈ newRungs .offer offerLevels mid tick) :
        ∀ o ∈ (nearestFirst orders .bid mid).drop
          (bidLevels.countP fun b => decide (|b.deltaPercent| ≤ f.absDelta)),
          ¬ Crosses .offer f.price o.price := by
      obtain ⟨before, after, hsplit⟩ := turn (.inr hf)
      obtain ⟨hold, -⟩ := h before f after hsplit
      rw [rungs_before hsplit, side_of_newRungs hf] at hold
      exact hold
    refine ⟨fun b hb => ?_, fun f hf => ?_, fun b hb f hf => ?_⟩
    · have clear := bidTurn (mem_newRungs hb)
      exact clear
    · have clear := offerTurn (mem_newRungs hf)
      exact clear
    · have clear := apart (mem_newRungs hb) (mem_newRungs hf)
      exact clear
  · intro hclear before r after hsplit
    have rung {p : Rung} (hp : p ∈ before ∨ p = r) :
        p ∈ newRungs .bid bidLevels mid tick ∨ p ∈ newRungs .offer offerLevels mid tick := by
      refine mem_planRungs_both.mp ?_
      rw [hsplit, List.mem_append, List.mem_cons]
      exact hp.imp id .inl
    rw [rungs_before hsplit]
    rcases rung (.inr rfl) with hr | hr <;> obtain ⟨l, hl, rfl⟩ := List.mem_map.mp hr
    · refine ⟨hclear.bids l hl, fun p hp hside => ?_⟩
      have hbefore := hp.resolve_left List.not_mem_nil
      rcases rung (.inl hbefore) with hp' | hp'
      · exact absurd ((side_of_newRungs hp').symm.trans hside) OrderSide.noConfusion
      · obtain ⟨f, hf, rfl⟩ := List.mem_map.mp hp'
        exact hclear.rungs l hl f hf
    · refine ⟨hclear.offers l hl, fun p hp hside => ?_⟩
      have hbefore := hp.resolve_left List.not_mem_nil
      rcases rung (.inl hbefore) with hp' | hp'
      · obtain ⟨b, hb, rfl⟩ := List.mem_map.mp hp'
        exact fun hcross => hclear.rungs b hb l hl (crosses_offer_iff.mp hcross)
      · exact absurd ((side_of_newRungs hp').symm.trans hside) OrderSide.noConfusion

/-! ## Every plan -/

/-- The new bids and the old offers that plain texts name are seen by `uncross`, in their order. -/
theorem le_of_crosses {bids offers : List String} {bid offer : String} (hbid : bid ∈ bids)
    (hoffer : offer ∈ offers) (hcross : Crosses .bid bid offer) :
    ∃ best lowest, tightest .bid (bids.filterMap FloatOps.parse) = some best ∧
      tightest .offer (offers.filterMap FloatOps.parse) = some lowest ∧
      FloatOps.le lowest best = true := by
  obtain ⟨p, q, hp, hq, hle⟩ := hcross
  obtain ⟨y, x, hy, hx, hyx⟩ := FloatOps.parse_mono hq hp hle
  obtain ⟨best, hbest, hxbest⟩ := FloatOps.le_reduce_max
    (List.mem_filterMap.mpr ⟨bid, hbid, hx⟩) (FloatOps.le_self hyx).2
  obtain ⟨lowest, hlowest, hlowesty⟩ := FloatOps.reduce_min_le
    (List.mem_filterMap.mpr ⟨offer, hoffer, hy⟩) (FloatOps.le_self hyx).1
  exact ⟨best, lowest, hbest, hlowest,
    FloatOps.le_trans hlowesty (FloatOps.le_trans hyx hxbest)⟩

omit [FloatOps] in
/-- Rungs of one side only are held against the old orders of the other. -/
theorem clearInTurn_one_side {rs : List Rung} {bidOld offerOld : List Order} {side : OrderSide}
    (hside : ∀ r ∈ rs, r.side = side)
    (hold : ∀ r ∈ rs, ∀ o ∈ side.opposite.among bidOld offerOld, ¬ Crosses side r.price o.price) :
    ClearInTurn rs bidOld offerOld [] := by
  refine clearInTurn_iff.mpr fun before r after hsplit => ?_
  have hr : r ∈ rs := hsplit ▸ List.mem_append_right _ List.mem_cons_self
  rw [hside r hr]
  refine ⟨fun o ho => hold r hr o (List.mem_of_mem_drop ho), fun p hp hopposite => ?_⟩
  have hbefore := hp.resolve_left List.not_mem_nil
  have same : p.side = side := hside p (hsplit ▸ List.mem_append_left _ hbefore)
  rw [same] at hopposite
  cases side <;> exact OrderSide.noConfusion hopposite

section Uncross

variable {fundable : Bool × Bool}

theorem tightestNew_eq {levels : List PriceLevel} {side : OrderSide} :
    tightestNew levels side mid tick = tightest side ((levels.map fun l =>
      rungPrice side mid l.deltaPercent tick).filterMap FloatOps.parse) := by
  unfold tightestNew
  rw [List.filterMap_map]
  rfl

theorem bestResting_eq {side : OrderSide} :
    bestResting orders side = tightest side (((orders.filter fun o =>
      decide (o.orderType = side.orderType)).map fun o => o.price).filterMap FloatOps.parse) := by
  unfold bestResting
  rw [List.filterMap_map]
  rfl

omit [FloatOps] in
theorem mem_prices {side : OrderSide} {o : Order} (ho : o ∈ orders)
    (htype : o.orderType = side.orderType) :
    o.price ∈ (orders.filter fun o => decide (o.orderType = side.orderType)).map fun o => o.price :=
  List.mem_map_of_mem (List.mem_filter.mpr ⟨ho, decide_eq_true htype⟩)

/-- A plan for the bids alone that stays one-sided reaches no offer. -/
theorem uncross_bids_clear
    (h : uncross (.replace, .keep) bidLevels offerLevels mid tick orders fundable
      = (.replace, .keep)) {b : PriceLevel} (hb : b ∈ bidLevels) {o : Order} (ho : o ∈ orders)
    (htype : o.orderType = OrderSide.offer.orderType) :
    ¬ Crosses .bid (rungPrice .bid mid b.deltaPercent tick) o.price := by
  intro hcross
  have hnew : rungPrice .bid mid b.deltaPercent tick ∈
      bidLevels.map fun l => rungPrice .bid mid l.deltaPercent tick := List.mem_map_of_mem hb
  obtain ⟨bid, offer, hbid, hoffer, hle⟩ := le_of_crosses hnew (mem_prices ho htype) hcross
  unfold uncross at h
  dsimp only at h
  rw [tightestNew_eq, bestResting_eq, hbid, hoffer] at h
  dsimp only at h
  rw [if_pos hle] at h
  have kept := congrArg Prod.snd h
  dsimp only at kept
  split_ifs at kept

theorem uncross_offers_clear
    (h : uncross (.keep, .replace) bidLevels offerLevels mid tick orders fundable
      = (.keep, .replace)) {f : PriceLevel} (hf : f ∈ offerLevels) {o : Order} (ho : o ∈ orders)
    (htype : o.orderType = OrderSide.bid.orderType) :
    ¬ Crosses .offer (rungPrice .offer mid f.deltaPercent tick) o.price := by
  intro hcross
  have hnew : rungPrice .offer mid f.deltaPercent tick ∈
      offerLevels.map fun l => rungPrice .offer mid l.deltaPercent tick := List.mem_map_of_mem hf
  obtain ⟨bid, offer, hbid, hoffer, hle⟩ :=
    le_of_crosses (mem_prices ho htype) hnew (crosses_offer_iff.mp hcross)
  unfold uncross at h
  dsimp only at h
  rw [tightestNew_eq, bestResting_eq, hbid, hoffer] at h
  dsimp only at h
  rw [if_pos hle] at h
  have kept := congrArg Prod.fst h
  dsimp only at kept
  split_ifs at kept

theorem uncross_replaces_bids :
    (uncross (.replace, .keep) bidLevels offerLevels mid tick orders fundable).1 = .replace := by
  unfold uncross
  dsimp only
  split
  · split_ifs <;> rfl
  · rfl

theorem uncross_replaces_offers :
    (uncross (.keep, .replace) bidLevels offerLevels mid tick orders fundable).2 = .replace := by
  unfold uncross
  dsimp only
  split
  · split_ifs <;> rfl
  · rfl

end Uncross

variable {input : PlanInput}

/-- A visit that leaves one side alone has asked `uncross`. -/
theorem uncross_of_visitPlan_bids
    (h : visitPlan input bidLevels offerLevels mid tick orders = (.replace, .keep)) :
    uncross (.replace, .keep) bidLevels offerLevels mid tick orders
      (fundable input.bid input.bidExpected, fundable input.offer input.offerExpected)
      = (.replace, .keep) := by
  unfold visitPlan at h
  dsimp only at h
  split_ifs at h with honeSided
  · rw [Bool.or_eq_true, decide_eq_true_eq, decide_eq_true_eq] at honeSided
    rcases honeSided with hplan | hplan
    · rw [hplan] at h
      exact h
    · rw [hplan] at h
      have both := uncross_replaces_offers.symm.trans (congrArg Prod.snd h)
      exact absurd both SideAction.noConfusion
  · rw [Bool.or_eq_true, decide_eq_true_eq] at honeSided
    exact absurd (.inl h) honeSided

theorem uncross_of_visitPlan_offers
    (h : visitPlan input bidLevels offerLevels mid tick orders = (.keep, .replace)) :
    uncross (.keep, .replace) bidLevels offerLevels mid tick orders
      (fundable input.bid input.bidExpected, fundable input.offer input.offerExpected)
      = (.keep, .replace) := by
  unfold visitPlan at h
  dsimp only at h
  split_ifs at h with honeSided
  · rw [Bool.or_eq_true, decide_eq_true_eq, decide_eq_true_eq] at honeSided
    rcases honeSided with hplan | hplan
    · rw [hplan] at h
      have both := uncross_replaces_bids.symm.trans (congrArg Prod.fst h)
      exact absurd both SideAction.noConfusion
    · rw [hplan] at h
      exact h
  · rw [Bool.or_eq_true, decide_eq_true_eq, decide_eq_true_eq] at honeSided
    exact absurd (.inr h) honeSided

theorem planRungs_bids {action : SideAction} (h : action ≠ .replace) :
    ∀ r ∈ planRungs bidLevels offerLevels mid tick (.replace, action),
      r ∈ newRungs .bid bidLevels mid tick := by
  intro r hr
  unfold planRungs at hr
  dsimp only at hr
  rw [List.mem_insertionSort, if_pos rfl, if_neg h, List.append_nil] at hr
  exact hr

theorem planRungs_offers {action : SideAction} (h : action ≠ .replace) :
    ∀ r ∈ planRungs bidLevels offerLevels mid tick (action, .replace),
      r ∈ newRungs .offer offerLevels mid tick := by
  intro r hr
  unfold planRungs at hr
  dsimp only at hr
  rw [List.mem_insertionSort, if_neg h, if_pos rfl, List.nil_append] at hr
  exact hr

/-- A refresh trades against no own order exactly if it does not replace both sides or both
ladders keep clear. -/
theorem grid_refresh_never_crosses (hids : (orders.map (·.orderId)).Nodup) :
    NeverCrosses (orders.map Order.resting) (gridOps bidLevels offerLevels mid tick orders
        (visitPlan input bidLevels offerLevels mid tick orders))
      ↔ (visitPlan input bidLevels offerLevels mid tick orders = (.replace, .replace) →
        LaddersClear bidLevels offerLevels mid tick orders) := by
  rw [neverCrosses_gridOps hids]
  have oneSided {bidOld offerOld : List Order} {side : OrderSide} {levels : List PriceLevel}
      {rs : List Rung} (hrs : ∀ r ∈ rs, r ∈ newRungs side levels mid tick)
      (hold : ∀ l ∈ levels, ∀ o ∈ side.opposite.among bidOld offerOld,
        ¬ Crosses side (rungPrice side mid l.deltaPercent tick) o.price) :
      ClearInTurn rs bidOld offerOld [] := by
    refine clearInTurn_one_side (fun r hr => side_of_newRungs (hrs r hr)) fun r hr o ho => ?_
    obtain ⟨l, hl, rfl⟩ := List.mem_map.mp (hrs r hr)
    exact hold l hl o ho
  have none {P Q : Prop} {plan : SideAction × SideAction} (hP : P)
      (hplan : plan ≠ (.replace, .replace)) : P ↔ (plan = (.replace, .replace) → Q) :=
    ⟨fun _ h => absurd h hplan, fun _ => hP⟩
  match hplan : visitPlan input bidLevels offerLevels mid tick orders with
  | (.replace, .replace) =>
    refine Iff.trans clearInTurn_both_iff ⟨fun h _ => h, fun h => h rfl⟩
  | (.replace, .keep) =>
    refine none (oneSided (planRungs_bids (by decide)) fun l hl o ho => ?_) (by decide)
    obtain ⟨hmem, htype⟩ := mem_nearestFirst.mp ho
    exact uncross_bids_clear (uncross_of_visitPlan_bids hplan) hl hmem htype
  | (.replace, .cancel) =>
    refine none (oneSided (planRungs_bids (by decide)) fun l hl o ho => ?_) (by decide)
    exact absurd ho List.not_mem_nil
  | (.keep, .replace) =>
    refine none (oneSided (planRungs_offers (by decide)) fun l hl o ho => ?_) (by decide)
    obtain ⟨hmem, htype⟩ := mem_nearestFirst.mp ho
    exact uncross_offers_clear (uncross_of_visitPlan_offers hplan) hl hmem htype
  | (.cancel, .replace) =>
    refine none (oneSided (planRungs_offers (by decide)) fun l hl o ho => ?_) (by decide)
    exact absurd ho List.not_mem_nil
  | (.keep, .keep) => exact none trivial (by decide)
  | (.keep, .cancel) => exact none trivial (by decide)
  | (.cancel, .keep) => exact none trivial (by decide)
  | (.cancel, .cancel) => exact none trivial (by decide)

end Ladders

/-! ## A mid that moved up -/

/-- One rung of each side, one percent off the mid. -/
def onePercent (deltaPercent : ℚ) : List PriceLevel := [⟨deltaPercent, "1"⟩]

/-- Our orders around a mid of 100. -/
def ordersAround100 : List Order :=
  [⟨1, "m", orderTypeOffer, "101", "1", "0", "0", none, [], 0⟩,
    ⟨2, "m", orderTypeBid, "99", "1", "0", "0", none, [], 0⟩]

/-- Both sides are due. -/
def bothDue : PlanInput where
  bid := .funded
  offer := .funded
  bidExpected := 1
  offerExpected := 1
  resting := sideCounts ordersAround100
  forceBid := true
  forceOffer := true
  shapeChanged := false

section Moved

attribute [local instance] Binary64.ops

/-- With the mid at 103 the new bid goes in at 101, where the old offer still rests. -/
theorem refresh_buys_own_offer : ¬ ∀ (input : PlanInput) (bidLevels offerLevels : List PriceLevel)
    (mid tick : ℚ) (orders : List Order), (∀ b ∈ bidLevels, b.deltaPercent < 0) →
    (∀ f ∈ offerLevels, 0 < f.deltaPercent) → 0 < tick → (orders.map (·.orderId)).Nodup →
    (∀ o ∈ orders, (plainValue o.price).isSome) → input.resting = sideCounts orders →
    NeverCrosses (orders.map Order.resting) (gridOps bidLevels offerLevels mid tick orders
      (visitPlan input bidLevels offerLevels mid tick orders)) := by
  intro h
  have safe := h bothDue (onePercent (-1)) (onePercent 1) 103 1 ordersAround100 (by decide +kernel)
    (by decide +kernel) (by decide +kernel) (by decide) (by decide +kernel) rfl
  have ops : gridOps (onePercent (-1)) (onePercent 1) 103 1 ordersAround100
      (visitPlan bothDue (onePercent (-1)) (onePercent 1) 103 1 ordersAround100)
      = [.cancel 2 false, .place .bid "101.0000000000" "1", .cancel 1 false,
        .place .offer "105.0000000000" "1"] := by
    decide +kernel
  rw [ops] at safe
  refine safe [.cancel 2 false] _ _ _ _ rfl ⟨some 1, orderTypeOffer, "101"⟩ ?_ rfl ?_
  · decide +kernel
  · exact ⟨101, 101, by decide +kernel, by decide +kernel, le_rfl⟩

/-- With the mid where it was the refresh is safe. -/
theorem refresh_in_place_never_crosses :
    NeverCrosses (ordersAround100.map Order.resting) (gridOps (onePercent (-1)) (onePercent 1) 100 1
        ordersAround100 (visitPlan bothDue (onePercent (-1)) (onePercent 1) 100 1 ordersAround100))
      ↔ (visitPlan bothDue (onePercent (-1)) (onePercent 1) 100 1 ordersAround100
          = (.replace, .replace) →
        LaddersClear (onePercent (-1)) (onePercent 1) 100 1 ordersAround100) :=
  grid_refresh_never_crosses (by decide)

end Moved

end BookAgent.AgentLogic
