import BookAgent.Lib.Swaps
import BookAgent.AgentLogic.GridSafety

/-!
# What a refresh does to the grid

The operations of a plan account for every old order and every new rung of the sides it
touches, each once. A withdrawn side is empty before anything is placed, and a replaced side
is never more than one order short of the smaller of its two ladders.
-/

namespace BookAgent.AgentLogic

open BookAgent.Lib

/-! ## What operations do -/

namespace GridOp

def cancelId? : GridOp → Option Nat
  | cancel id _ => some id
  | place _ _ _ => none

def placement? : GridOp → Option (OrderSide × String × String)
  | cancel _ _ => none
  | place side price quantity => some (side, price, quantity)

/-- What an operation does to the number of orders of a side whose old ones are `ids`. -/
def change? (side : OrderSide) (ids : List Nat) : GridOp → Option Int
  | cancel id _ => if id ∈ ids then some (-1) else none
  | place s _ _ => if s = side then some 1 else none

end GridOp

/-- The ids that operations cancel. -/
def cancelled (ops : List GridOp) : List Nat := ops.filterMap GridOp.cancelId?

/-- What operations place. -/
def placements (ops : List GridOp) : List (OrderSide × String × String) :=
  ops.filterMap GridOp.placement?

/-- The orders of a side in the own book. -/
def restingOn (side : OrderSide) (book : List RestingOrder) : Nat :=
  book.countP fun o => decide (o.orderType = side.orderType)

variable {ops ops' : List GridOp} {side : OrderSide} {ids ids' bidOld offerOld : List Nat}

@[simp] theorem cancelled_append : cancelled (ops ++ ops') = cancelled ops ++ cancelled ops' :=
  List.filterMap_append

@[simp] theorem cancelled_nil : cancelled [] = [] := rfl

@[simp] theorem cancelled_cancel (id : Nat) (leftover : Bool) :
    cancelled (.cancel id leftover :: ops) = id :: cancelled ops :=
  rfl

@[simp] theorem cancelled_place (side : OrderSide) (price quantity : String) :
    cancelled (.place side price quantity :: ops) = cancelled ops :=
  rfl

@[simp] theorem cancelled_cancelAll (ids : List Nat) : cancelled (cancelAll ids) = ids := by
  unfold cancelled cancelAll
  rw [List.filterMap_map]
  exact List.filterMap_some

@[simp] theorem placements_append : placements (ops ++ ops') = placements ops ++ placements ops' :=
  List.filterMap_append

@[simp] theorem placements_cancelAll (ids : List Nat) : placements (cancelAll ids) = [] :=
  List.filterMap_eq_nil_iff.mpr fun op hop => by
    obtain ⟨id, -, rfl⟩ := List.mem_map.mp hop
    rfl

/-- What operations do to the number of orders of a side whose old ones are `ids`. -/
def changes (side : OrderSide) (ids : List Nat) (ops : List GridOp) : List Int :=
  ops.filterMap (GridOp.change? side ids)

theorem changes_cancel_own {id : Nat} (h : id ∈ ids) (leftover : Bool) :
    changes side ids (.cancel id leftover :: ops) = -1 :: changes side ids ops :=
  List.filterMap_cons_some (if_pos h)

theorem changes_cancel_other {id : Nat} (h : id ∉ ids) (leftover : Bool) :
    changes side ids (.cancel id leftover :: ops) = changes side ids ops :=
  List.filterMap_cons_none (if_neg h)

theorem changes_place_own (price quantity : String) :
    changes side ids (.place side price quantity :: ops) = 1 :: changes side ids ops :=
  List.filterMap_cons_some (if_pos rfl)

theorem changes_place_other {s : OrderSide} (h : s ≠ side) (price quantity : String) :
    changes side ids (.place s price quantity :: ops) = changes side ids ops :=
  List.filterMap_cons_none (if_neg h)

theorem changes_cancelAll_own (h : ∀ id ∈ ids', id ∈ ids) :
    changes side ids (cancelAll ids') = List.replicate ids'.length (-1) := by
  induction ids' with
  | nil => rfl
  | cons id ids' ih =>
    obtain ⟨hid, hrest⟩ := List.forall_mem_cons.mp h
    exact (changes_cancel_own hid true).trans (congrArg _ (ih hrest))

theorem changes_cancelAll_other (h : ∀ id ∈ ids', id ∉ ids) :
    changes side ids (cancelAll ids') = [] :=
  List.filterMap_eq_nil_iff.mpr fun op hop => by
    obtain ⟨id, hid, rfl⟩ := List.mem_map.mp hop
    exact if_neg (h id hid)

/-! ## Replacing the old orders -/

section Interleave

/-- The pops of both queues and the new orders account for all of them. -/
theorem cancelled_interleave (rs : List Rung) (bidOld offerOld : List Nat) :
    (cancelled (interleave rs bidOld offerOld).1 ++
        ((interleave rs bidOld offerOld).2.1 ++ (interleave rs bidOld offerOld).2.2)).Perm
      (bidOld ++ offerOld) := by
  induction rs generalizing bidOld offerOld with
  | nil => exact List.Perm.refl _
  | cons r rs ih =>
    unfold interleave
    cases r.side with
    | bid =>
      cases bidOld with
      | nil => exact ih [] offerOld
      | cons id bidOld => exact (ih bidOld offerOld).cons id
    | offer =>
      cases offerOld with
      | nil => exact ih bidOld []
      | cons id offerOld => exact ((ih bidOld offerOld).cons id).trans List.perm_middle.symm

theorem placements_interleave (rs : List Rung) (bidOld offerOld : List Nat) :
    placements (interleave rs bidOld offerOld).1
      = rs.map fun r => (r.side, r.price, r.quantity) := by
  induction rs generalizing bidOld offerOld with
  | nil => rfl
  | cons r rs ih =>
    unfold interleave
    rw [List.map_cons]
    cases r.side with
    | bid =>
      rw [← ih bidOld.tail offerOld]
      cases bidOld <;> rfl
    | offer =>
      rw [← ih bidOld offerOld.tail]
      cases offerOld <;> rfl

/-- A side with no new orders keeps its old ones. -/
theorem interleave_untouched {rs : List Rung} (h : ∀ r ∈ rs, r.side ≠ side)
    (bidOld offerOld : List Nat) :
    side.among (interleave rs bidOld offerOld).2.1 (interleave rs bidOld offerOld).2.2
      = side.among bidOld offerOld := by
  induction rs generalizing bidOld offerOld with
  | nil => rfl
  | cons r rs ih =>
    obtain ⟨hr, hrest⟩ := List.forall_mem_cons.mp h
    unfold interleave
    cases hside : r.side with
    | bid =>
      have hstep := ih hrest bidOld.tail offerOld
      cases side with
      | bid => exact absurd hside hr
      | offer => exact hstep
    | offer =>
      have hstep := ih hrest bidOld offerOld.tail
      cases side with
      | bid => exact hstep
      | offer => exact absurd hside hr

/-- What is left of a queue is its end. -/
theorem interleave_suffix (rs : List Rung) (bidOld offerOld : List Nat) :
    side.among (interleave rs bidOld offerOld).2.1 (interleave rs bidOld offerOld).2.2
      <:+ side.among bidOld offerOld := by
  induction rs generalizing bidOld offerOld with
  | nil => exact List.suffix_rfl
  | cons r rs ih =>
    unfold interleave
    cases r.side with
    | bid =>
      refine (ih bidOld.tail offerOld).trans ?_
      cases side with
      | bid => exact List.tail_suffix _
      | offer => exact List.suffix_rfl
    | offer =>
      refine (ih bidOld offerOld.tail).trans ?_
      cases side with
      | bid => exact List.suffix_rfl
      | offer => exact List.tail_suffix _

/-- The number of rungs of a side. -/
def rungsOn (side : OrderSide) (rs : List Rung) : Nat := rs.countP fun r => decide (r.side = side)

theorem rungsOn_cons_own {r : Rung} {rs : List Rung} (h : r.side = side) :
    rungsOn side (r :: rs) = rungsOn side rs + 1 :=
  List.countP_cons_of_pos (decide_eq_true h)

theorem rungsOn_cons_other {r : Rung} {rs : List Rung} (h : r.side ≠ side) :
    rungsOn side (r :: rs) = rungsOn side rs :=
  List.countP_cons_of_neg (by rwa [decide_eq_true_eq])

/-- A turn of the own side takes out the head of the queue, if any, and puts in the rung. -/
theorem changes_turn_own (h : ∀ id ∈ ids', id ∈ ids) (price quantity : String) :
    changes side ids ((ids'.head?.map fun id => GridOp.cancel id false).toList ++
        .place side price quantity :: ops)
      = List.replicate (min ids'.length 1) (-1) ++ 1 :: changes side ids ops := by
  cases ids' with
  | nil => exact changes_place_own price quantity
  | cons id ids' =>
    rw [List.length_cons, Nat.min_eq_right (Nat.le_add_left 1 _)]
    refine (changes_cancel_own (h id List.mem_cons_self) false).trans ?_
    exact congrArg _ (changes_place_own price quantity)

/-- A turn of the other side changes nothing. -/
theorem changes_turn_other {s : OrderSide} (hs : s ≠ side) (h : ∀ id ∈ ids', id ∉ ids)
    (price quantity : String) :
    changes side ids ((ids'.head?.map fun id => GridOp.cancel id false).toList ++
        .place s price quantity :: ops)
      = changes side ids ops := by
  cases ids' with
  | nil => exact changes_place_other hs price quantity
  | cons id ids' =>
    refine (changes_cancel_other (h id List.mem_cons_self) false).trans ?_
    exact changes_place_other hs price quantity

/-- On each side the old orders are swapped for the new ones. -/
theorem changes_interleave (rs : List Rung) {bidOld offerOld : List Nat}
    (hown : ∀ id ∈ side.among bidOld offerOld, id ∈ ids)
    (hother : ∀ id ∈ side.opposite.among bidOld offerOld, id ∉ ids) :
    changes side ids (interleave rs bidOld offerOld).1 ++
        List.replicate
          (side.among (interleave rs bidOld offerOld).2.1
            (interleave rs bidOld offerOld).2.2).length (-1)
      = swaps (side.among bidOld offerOld).length (rungsOn side rs) := by
  induction rs generalizing bidOld offerOld with
  | nil => exact (swaps_zero _).symm
  | cons r rs ih =>
    unfold interleave
    cases side with
    | bid =>
      cases hr : r.side with
      | bid =>
        have hrest := @ih bidOld.tail offerOld (fun id hid => hown id (List.mem_of_mem_tail hid))
          hother
        rw [rungsOn_cons_own hr, swaps_succ, ← List.length_tail]
        refine Eq.trans ?_ (congrArg (fun l => _ ++ 1 :: l) hrest)
        exact (congrArg (· ++ _) (changes_turn_own hown _ _)).trans (List.append_assoc _ _ _)
      | offer =>
        have hrest := @ih bidOld offerOld.tail hown fun id hid =>
          hother id (List.mem_of_mem_tail hid)
        rw [rungsOn_cons_other (hr ▸ by decide)]
        refine Eq.trans ?_ hrest
        exact congrArg (· ++ _) (changes_turn_other (by decide) hother _ _)
    | offer =>
      cases hr : r.side with
      | bid =>
        have hrest := @ih bidOld.tail offerOld hown fun id hid =>
          hother id (List.mem_of_mem_tail hid)
        rw [rungsOn_cons_other (hr ▸ by decide)]
        refine Eq.trans ?_ hrest
        exact congrArg (· ++ _) (changes_turn_other (by decide) hother _ _)
      | offer =>
        have hrest := @ih bidOld offerOld.tail (fun id hid => hown id (List.mem_of_mem_tail hid))
          hother
        rw [rungsOn_cons_own hr, swaps_succ, ← List.length_tail]
        refine Eq.trans ?_ (congrArg (fun l => _ ++ 1 :: l) hrest)
        exact (congrArg (· ++ _) (changes_turn_own hown _ _)).trans (List.append_assoc _ _ _)

end Interleave

/-! ## The book as operations are executed -/

section Book

/-- The orders of a side with an id. -/
def heldOn (side : OrderSide) (id : Nat) (book : List RestingOrder) : Nat :=
  book.countP fun o => decide (o.orderType = side.orderType) && decide (o.orderId = some id)

variable {book : List RestingOrder}

theorem restingOn_place (s : OrderSide) (price quantity : String) :
    restingOn side (execute book (.place s price quantity))
      = restingOn side book + if s = side then 1 else 0 := by
  unfold restingOn execute
  rw [List.countP_cons]
  cases s <;> cases side <;> rfl

theorem heldOn_place (id : Nat) (s : OrderSide) (price quantity : String) :
    heldOn side id (execute book (.place s price quantity)) = heldOn side id book :=
  List.countP_cons_of_neg (by simp)

/-- A cancel takes out the orders with its id. -/
theorem restingOn_cancel (id : Nat) (leftover : Bool) :
    restingOn side (execute book (.cancel id leftover)) + heldOn side id book
      = restingOn side book := by
  have hsplit := List.countP_eq_countP_filter_add book
    (fun o => decide (o.orderType = side.orderType)) fun o => decide (o.orderId ≠ some id)
  have hheld : ((book.filter fun o => !decide (o.orderId ≠ some id)).countP fun o =>
      decide (o.orderType = side.orderType)) = heldOn side id book := by
    rw [List.countP_filter]
    refine List.countP_congr fun o _ => ?_
    simp
  exact (hsplit.trans (congrArg _ hheld)).symm

/-- A cancel leaves the orders with other ids. -/
theorem heldOn_cancel {id id' : Nat} (h : id' ≠ id) (leftover : Bool) :
    heldOn side id' (execute book (.cancel id leftover)) = heldOn side id' book := by
  refine List.countP_filter.trans (List.countP_congr fun o _ => ?_)
  simp only [Bool.and_eq_true, decide_eq_true_eq]
  refine ⟨fun ho => ho.1, fun ho => ⟨ho, fun hid => h ?_⟩⟩
  exact Option.some.inj (ho.2.symm.trans hid)

/-- **The number of orders of a side follows the changes**, when each cancel finds one order
of the side its id belongs to. -/
theorem restingOn_foldl {ops : List GridOp} (hnodup : (cancelled ops).Nodup)
    (hheld : ∀ id ∈ cancelled ops, heldOn side id book = if id ∈ ids then 1 else 0) :
    (restingOn side (ops.foldl execute book) : Int)
      = restingOn side book + (changes side ids ops).sum := by
  induction ops generalizing book with
  | nil => exact (add_zero _).symm
  | cons op ops ih =>
    rw [List.foldl_cons]
    match op with
    | .cancel id leftover =>
      obtain ⟨hnew, hnodup⟩ := List.nodup_cons.mp hnodup
      obtain ⟨hid, hrest⟩ := List.forall_mem_cons.mp hheld
      rw [ih hnodup fun id' hid' => by
        rw [heldOn_cancel (ne_of_mem_of_not_mem hid' hnew), hrest id' hid']]
      have hcancel : restingOn side (execute book (.cancel id leftover)) + heldOn side id book
          = restingOn side book :=
        restingOn_cancel id leftover
      rw [hid] at hcancel
      split_ifs at hcancel with hmem
      · rw [changes_cancel_own hmem, List.sum_cons]
        omega
      · rw [changes_cancel_other hmem]
        omega
    | .place s price quantity =>
      rw [ih hnodup fun id' hid' => by rw [heldOn_place, hheld id' hid'], restingOn_place]
      split_ifs with hs
      · subst hs
        rw [changes_place_own, List.sum_cons]
        omega
      · rw [changes_place_other hs]
        omega

end Book

/-! ## A plan's operations -/

section Plan

variable [FloatOps] {orders : List Order} {mid tick : ℚ} {bidLevels offerLevels : List PriceLevel}
  {plan : SideAction × SideAction}

/-- The old orders of a plan's side that are to be replaced, or left alone. -/
def notWithdrawn (action : SideAction) (queue : List Nat) : List Nat :=
  if action = .cancel then [] else queue

/-- The run of the new orders of a plan. -/
def replaceRun (bidLevels offerLevels : List PriceLevel) (mid tick : ℚ) (orders : List Order)
    (plan : SideAction × SideAction) : List GridOp × List Nat × List Nat :=
  interleave (planRungs bidLevels offerLevels mid tick plan)
    (notWithdrawn plan.1 (sideQueue orders .bid mid))
    (notWithdrawn plan.2 (sideQueue orders .offer mid))

theorem gridOps_eq : gridOps bidLevels offerLevels mid tick orders plan
    = cancelAll (withdrawnIds plan orders mid) ++
      ((replaceRun bidLevels offerLevels mid tick orders plan).1 ++
        cancelAll ((if plan.1 = .replace then
            (replaceRun bidLevels offerLevels mid tick orders plan).2.1 else []) ++
          if plan.2 = .replace then
            (replaceRun bidLevels offerLevels mid tick orders plan).2.2 else [])) := by
  unfold gridOps withdrawnIds replaceRun notWithdrawn
  rw [cancelAll_append, cancelAll_append]
  split_ifs <;> rfl

theorem mem_sideQueue {side : OrderSide} {id : Nat} :
    id ∈ sideQueue orders side mid
      ↔ ∃ o ∈ orders, o.orderType = side.orderType ∧ o.orderId = id := by
  unfold sideQueue
  rw [List.mem_map]
  constructor
  · rintro ⟨o, ho, rfl⟩
    obtain ⟨hmem, htype⟩ := mem_nearestFirst.mp ho
    exact ⟨o, hmem, htype, rfl⟩
  · rintro ⟨o, hmem, htype, rfl⟩
    exact ⟨o, mem_nearestFirst.mpr ⟨hmem, htype⟩, rfl⟩

theorem nodup_sideQueues (hids : (orders.map (·.orderId)).Nodup) :
    (sideQueue orders .bid mid ++ sideQueue orders .offer mid).Nodup := by
  have hold : OldOrders (nearestFirst orders .bid mid) (nearestFirst orders .offer mid) :=
    oldOrders_nearestFirst hids
  unfold sideQueue
  rw [← List.map_append]
  exact hold.nodup

/-- The old orders that a plan takes out of the book. -/
def touched (action : SideAction) (queue : List Nat) : List Nat :=
  if action = .keep then [] else queue

theorem planRungs_side {r : Rung} (hr : r ∈ planRungs bidLevels offerLevels mid tick plan) :
    r.side.among plan.1 plan.2 = .replace := by
  unfold planRungs at hr
  rw [List.mem_insertionSort, List.mem_append] at hr
  rcases hr with hr | hr
  · split_ifs at hr with h
    · rw [side_of_newRungs hr]
      exact h
    · exact absurd hr List.not_mem_nil
  · split_ifs at hr with h
    · rw [side_of_newRungs hr]
      exact h
    · exact absurd hr List.not_mem_nil

/-- A side that is not replaced keeps its queue. -/
theorem replaceRun_kept (side : OrderSide) (h : side.among plan.1 plan.2 ≠ .replace) :
    side.among (replaceRun bidLevels offerLevels mid tick orders plan).2.1
        (replaceRun bidLevels offerLevels mid tick orders plan).2.2
      = side.among (notWithdrawn plan.1 (sideQueue orders .bid mid))
        (notWithdrawn plan.2 (sideQueue orders .offer mid)) :=
  interleave_untouched (fun r hr hside => h (by rw [← hside]; exact planRungs_side hr)) _ _

omit [FloatOps] in
/-- Of one side: what is withdrawn, replaced and left over makes up what is taken out, next
to what stays. -/
theorem count_side (action : SideAction) (queue left : List Nat)
    (hleft : action ≠ .replace → left = notWithdrawn action queue) (id : Nat) :
    (if action = .cancel then queue else []).count id + (notWithdrawn action queue).count id +
        (if action = .replace then left else []).count id
      = (touched action queue).count id + left.count id := by
  cases action with
  | keep =>
    rw [hleft (by decide)]
    rw [if_neg (by decide), if_neg (by decide), List.count_nil, Nat.zero_add]
    exact Nat.add_comm _ _
  | replace =>
    rw [if_pos rfl, if_neg (by decide), List.count_nil, Nat.zero_add]
    rfl
  | cancel =>
    rw [hleft (by decide)]
    rfl

/-- Each old order that is taken out is cancelled once. -/
theorem cancelled_gridOps : (cancelled (gridOps bidLevels offerLevels mid tick orders plan)).Perm
    (touched plan.1 (sideQueue orders .bid mid) ++
      touched plan.2 (sideQueue orders .offer mid)) := by
  rw [List.perm_iff_count]
  intro id
  have hrun := (cancelled_interleave (planRungs bidLevels offerLevels mid tick plan)
      (notWithdrawn plan.1 (sideQueue orders .bid mid))
      (notWithdrawn plan.2 (sideQueue orders .offer mid))).count_eq id
  have hbid := count_side plan.1 (sideQueue orders .bid mid)
    (replaceRun bidLevels offerLevels mid tick orders plan).2.1 (replaceRun_kept .bid) id
  have hoffer := count_side plan.2 (sideQueue orders .offer mid)
    (replaceRun bidLevels offerLevels mid tick orders plan).2.2 (replaceRun_kept .offer) id
  rw [gridOps_eq]
  unfold withdrawnIds
  unfold replaceRun at *
  simp only [cancelled_append, cancelled_cancelAll, List.count_append] at *
  omega

/-- The rungs that a plan places on a side. -/
def replacement (side : OrderSide) (action : SideAction) (levels : List PriceLevel) (mid tick : ℚ) :
    List (OrderSide × String × String) :=
  if action = .replace then
    levels.map fun l => (side, rungPrice side mid l.deltaPercent tick, l.quantity)
  else []

/-- Each rung of a replaced side is placed once. -/
theorem placements_gridOps : (placements (gridOps bidLevels offerLevels mid tick orders plan)).Perm
    (replacement .bid plan.1 bidLevels mid tick ++
      replacement .offer plan.2 offerLevels mid tick) := by
  have hside (side : OrderSide) (action : SideAction) (levels : List PriceLevel) :
      (if action = .replace then newRungs side levels mid tick else []).map
          (fun r => (r.side, r.price, r.quantity))
        = replacement side action levels mid tick := by
    unfold replacement newRungs
    split_ifs
    · exact List.map_map
    · rfl
  rw [gridOps_eq]
  simp only [placements_append, placements_cancelAll, List.nil_append, List.append_nil]
  unfold replaceRun
  rw [placements_interleave, ← hside, ← hside, ← List.map_append]
  exact (List.perm_insertionSort _ _).map _

/-- A side that is replaced has a rung for each level. -/
theorem rungsOn_planRungs (h : side.among plan.1 plan.2 = .replace) :
    rungsOn side (planRungs bidLevels offerLevels mid tick plan)
      = (side.among bidLevels offerLevels).length := by
  have hown (levels : List PriceLevel) :
      rungsOn side (newRungs side levels mid tick) = levels.length := by
    refine (List.countP_eq_length.mpr fun r hr => ?_).trans (List.length_map _)
    exact decide_eq_true (side_of_newRungs hr)
  have hother {s : OrderSide} (hs : s ≠ side) (action : SideAction) (levels : List PriceLevel) :
      rungsOn side (if action = .replace then newRungs s levels mid tick else []) = 0 := by
    refine List.countP_eq_zero.mpr fun r hr => ?_
    split_ifs at hr
    · rw [decide_eq_true_eq, side_of_newRungs hr]
      exact hs
    · exact absurd hr List.not_mem_nil
  unfold planRungs
  refine ((List.perm_insertionSort _ _).countP_eq _).trans (List.countP_append.trans ?_)
  cases side with
  | bid =>
    have hplan : plan.1 = .replace := h
    rw [if_pos hplan]
    exact congr (congrArg _ (hown _)) (hother (by decide) _ _)
  | offer =>
    have hplan : plan.2 = .replace := h
    rw [if_pos hplan]
    exact (congr (congrArg _ (hother (by decide) _ _)) (hown _)).trans (Nat.zero_add _)

theorem not_mem_sideQueue_opposite (hids : (orders.map (·.orderId)).Nodup) {id : Nat}
    (h : id ∈ sideQueue orders side.opposite mid) : id ∉ sideQueue orders side mid := by
  intro hown
  obtain ⟨o, ho, htype, rfl⟩ := mem_sideQueue.mp h
  obtain ⟨o', ho', htype', hid⟩ := mem_sideQueue.mp hown
  have one : o' = o := List.inj_on_of_nodup_map hids ho' ho hid
  rw [one, htype] at htype'
  cases side <;> exact absurd htype' (by decide)

omit [FloatOps] in
theorem mem_of_mem_notWithdrawn {action : SideAction} {queue : List Nat} {id : Nat}
    (h : id ∈ notWithdrawn action queue) : id ∈ queue := by
  unfold notWithdrawn at h
  split_ifs at h
  · exact absurd h List.not_mem_nil
  · exact h

theorem mem_of_mem_left (side : OrderSide) {id : Nat}
    (h : id ∈ side.among (replaceRun bidLevels offerLevels mid tick orders plan).2.1
      (replaceRun bidLevels offerLevels mid tick orders plan).2.2) :
    id ∈ sideQueue orders side mid := by
  have hqueue := (interleave_suffix _ _ _).mem h
  cases side with
  | bid => exact mem_of_mem_notWithdrawn hqueue
  | offer => exact mem_of_mem_notWithdrawn hqueue

omit [FloatOps] in
theorem notWithdrawn_replace {action : SideAction} (h : action = .replace) (queue : List Nat) :
    notWithdrawn action queue = queue :=
  if_neg (by rw [h]; decide)

/-- A side that is replaced has nothing withdrawn. -/
theorem mem_withdrawn_opposite (h : side.among plan.1 plan.2 = .replace) {id : Nat}
    (hid : id ∈ withdrawnIds plan orders mid) : id ∈ sideQueue orders side.opposite mid := by
  unfold withdrawnIds at hid
  rw [List.mem_append, mem_withdrawn_side, mem_withdrawn_side] at hid
  rw [mem_sideQueue]
  cases side with
  | bid =>
    rcases hid with ⟨hplan, -⟩ | ⟨-, hid⟩
    · exact absurd (h.symm.trans hplan) (by decide)
    · exact hid
  | offer =>
    rcases hid with ⟨-, hid⟩ | ⟨hplan, -⟩
    · exact hid
    · exact absurd (h.symm.trans hplan) (by decide)

omit [FloatOps] in
theorem changes_append (ops ops' : List GridOp) :
    changes side ids (ops ++ ops') = changes side ids ops ++ changes side ids ops' :=
  List.filterMap_append

/-- What the leftovers of both sides do to a replaced one. -/
theorem changes_leftovers (hids : (orders.map (·.orderId)).Nodup)
    (h : side.among plan.1 plan.2 = .replace) :
    changes side (sideQueue orders side mid) (cancelAll ((if plan.1 = .replace then
        (replaceRun bidLevels offerLevels mid tick orders plan).2.1 else []) ++
      if plan.2 = .replace then
        (replaceRun bidLevels offerLevels mid tick orders plan).2.2 else []))
      = List.replicate (side.among (replaceRun bidLevels offerLevels mid tick orders plan).2.1
          (replaceRun bidLevels offerLevels mid tick orders plan).2.2).length (-1) := by
  rw [cancelAll_append, changes_append]
  cases side with
  | bid =>
    have hplan : plan.1 = .replace := h
    have hleft : ∀ id ∈ (replaceRun bidLevels offerLevels mid tick orders plan).2.1,
        id ∈ sideQueue orders .bid mid :=
      fun id hid => mem_of_mem_left .bid hid
    rw [if_pos hplan, changes_cancelAll_own hleft,
      changes_cancelAll_other fun id hid => ?_]
    · exact List.append_nil _
    · split_ifs at hid
      · exact not_mem_sideQueue_opposite hids (mem_of_mem_left .offer hid)
      · exact absurd hid List.not_mem_nil
  | offer =>
    have hplan : plan.2 = .replace := h
    have hleft : ∀ id ∈ (replaceRun bidLevels offerLevels mid tick orders plan).2.2,
        id ∈ sideQueue orders .offer mid :=
      fun id hid => mem_of_mem_left .offer hid
    rw [if_pos hplan, changes_cancelAll_own hleft,
      changes_cancelAll_other fun id hid => ?_]
    · exact List.nil_append _
    · split_ifs at hid
      · exact not_mem_sideQueue_opposite hids (mem_of_mem_left .bid hid)
      · exact absurd hid List.not_mem_nil

/-- A side that is replaced goes through the swap of its ladders. -/
theorem changes_gridOps (hids : (orders.map (·.orderId)).Nodup)
    (h : side.among plan.1 plan.2 = .replace) :
    changes side (sideQueue orders side mid) (gridOps bidLevels offerLevels mid tick orders plan)
      = swaps (sideQueue orders side mid).length (side.among bidLevels offerLevels).length := by
  have hother {id : Nat} (hid : id ∈ sideQueue orders side.opposite mid) :
      id ∉ sideQueue orders side mid :=
    not_mem_sideQueue_opposite hids hid
  have hqueue : side.among (notWithdrawn plan.1 (sideQueue orders .bid mid))
      (notWithdrawn plan.2 (sideQueue orders .offer mid)) = sideQueue orders side mid := by
    cases side with
    | bid => exact notWithdrawn_replace h _
    | offer => exact notWithdrawn_replace h _
  have hrun := changes_interleave (planRungs bidLevels offerLevels mid tick plan)
    (fun id hid => hqueue ▸ hid) fun id hid => hother (by
      cases side with
      | bid => exact mem_of_mem_notWithdrawn hid
      | offer => exact mem_of_mem_notWithdrawn hid)
  rw [rungsOn_planRungs h, hqueue] at hrun
  rw [gridOps_eq, changes_append, changes_append, changes_leftovers hids h, ← hrun,
    changes_cancelAll_other fun id hid => hother (mem_withdrawn_opposite h hid)]
  rfl

/-! ## The grid is conserved -/

/-- What holds of the operations of a plan. -/
structure ConservesGrid (bidLevels offerLevels : List PriceLevel) (mid tick : ℚ)
    (orders : List Order) (plan : SideAction × SideAction) (ops : List GridOp) : Prop where
  /-- No order is cancelled twice. -/
  nodup : (cancelled ops).Nodup
  /-- What is cancelled is what rests on a side that is not kept. -/
  cancels : ∀ id, id ∈ cancelled ops ↔ ∃ o ∈ orders, o.orderId = id ∧
    ∃ side : OrderSide, o.orderType = side.orderType ∧ side.among plan.1 plan.2 ≠ .keep
  /-- What is placed is one order for each level of a replaced side. -/
  places : (placements ops).Perm (replacement .bid plan.1 bidLevels mid tick ++
    replacement .offer plan.2 offerLevels mid tick)
  /-- A withdrawn side is empty before the first placement. -/
  withdrawn : ∀ before s price quantity after, ops = before ++ .place s price quantity :: after →
    ∀ side : OrderSide, side.among plan.1 plan.2 = .cancel →
      ∀ o ∈ orders, o.orderType = side.orderType → o.orderId ∈ cancelled before
  /-- A replaced side is at most one order short of the smaller of its two ladders. -/
  resting : ∀ before, before <+: ops → ∀ side : OrderSide, side.among plan.1 plan.2 = .replace →
    let old := restingOn side (orders.map Order.resting)
    let new := (side.among bidLevels offerLevels).length
    let now := restingOn side (before.foldl execute (orders.map Order.resting))
    min old new - 1 ≤ now ∧ now ≤ max old new

theorem nodup_cancelled (hids : (orders.map (·.orderId)).Nodup) :
    (cancelled (gridOps bidLevels offerLevels mid tick orders plan)).Nodup := by
  have htouched (action : SideAction) (queue : List Nat) :
      (touched action queue).Sublist queue := by
    unfold touched
    split_ifs
    · exact List.nil_sublist queue
    · exact List.Sublist.refl queue
  have hqueues : (sideQueue orders .bid mid ++ sideQueue orders .offer mid).Nodup :=
    nodup_sideQueues hids
  exact cancelled_gridOps.nodup_iff.mpr
    (hqueues.sublist ((htouched _ _).append (htouched _ _)))

theorem mem_touched {action : SideAction} {id : Nat} :
    id ∈ touched action (sideQueue orders side mid)
      ↔ action ≠ .keep ∧ ∃ o ∈ orders, o.orderType = side.orderType ∧ o.orderId = id := by
  unfold touched
  split_ifs with h
  · exact ⟨fun hid => absurd hid List.not_mem_nil, fun hid => absurd h hid.1⟩
  · rw [mem_sideQueue]
    exact ⟨fun hid => ⟨h, hid⟩, fun hid => hid.2⟩

theorem mem_cancelled_gridOps {id : Nat} :
    id ∈ cancelled (gridOps bidLevels offerLevels mid tick orders plan) ↔
      ∃ o ∈ orders, o.orderId = id ∧
        ∃ side : OrderSide, o.orderType = side.orderType ∧ side.among plan.1 plan.2 ≠ .keep := by
  rw [cancelled_gridOps.mem_iff, List.mem_append, mem_touched, mem_touched]
  constructor
  · rintro (⟨hplan, o, ho, htype, hid⟩ | ⟨hplan, o, ho, htype, hid⟩)
    · exact ⟨o, ho, hid, .bid, htype, hplan⟩
    · exact ⟨o, ho, hid, .offer, htype, hplan⟩
  · rintro ⟨o, ho, hid, side, htype, hplan⟩
    cases side with
    | bid => exact .inl ⟨hplan, o, ho, htype, hid⟩
    | offer => exact .inr ⟨hplan, o, ho, htype, hid⟩

/-- The withdrawals come before any placement. -/
theorem withdrawn_first {before after : List GridOp} {s : OrderSide} {price quantity : String}
    (hops : gridOps bidLevels offerLevels mid tick orders plan
      = before ++ .place s price quantity :: after) :
    cancelAll (withdrawnIds plan orders mid) <+: before := by
  rw [gridOps_eq] at hops
  rcases List.append_eq_append_iff.mp hops with ⟨rest, hbefore, -⟩ | ⟨rest, hwithdrawn, hrest⟩
  · exact ⟨rest, hbefore.symm⟩
  · cases rest with
    | nil => exact ⟨[], by rw [hwithdrawn, List.append_nil, List.append_nil]⟩
    | cons op rest =>
      obtain ⟨rfl, -⟩ := List.cons.inj hrest
      have hplace : GridOp.place s price quantity ∈ cancelAll (withdrawnIds plan orders mid) := by
        rw [hwithdrawn]
        exact List.mem_append_right _ List.mem_cons_self
      obtain ⟨id, -, hcancel⟩ := List.mem_map.mp hplace
      exact absurd hcancel GridOp.noConfusion

theorem sideQueue_perm (side : OrderSide) : (sideQueue orders side mid).Perm
    ((orders.filter fun o => decide (o.orderType = side.orderType)).map (·.orderId)) :=
  (List.perm_insertionSort _ _).map _

theorem restingOn_orders (mid : ℚ) (side : OrderSide) :
    restingOn side (orders.map Order.resting) = (sideQueue orders side mid).length := by
  rw [(sideQueue_perm side).length_eq, List.length_map, ← List.countP_eq_length_filter]
  exact List.countP_map

/-- An id is held by one order of a side or by none. -/
theorem heldOn_orders (hids : (orders.map (·.orderId)).Nodup) (side : OrderSide) (id : Nat) :
    heldOn side id (orders.map Order.resting)
      = if id ∈ sideQueue orders side mid then 1 else 0 := by
  have hnodup : (sideQueue orders side mid).Nodup := nodup_nearestFirst hids side
  rw [← hnodup.count, (sideQueue_perm side).count_eq]
  unfold heldOn List.count
  rw [List.countP_map, List.countP_map, List.countP_filter]
  refine List.countP_congr fun o _ => ?_
  simp only [Order.resting, Function.comp_apply, Bool.and_eq_true, decide_eq_true_eq, beq_iff_eq,
    Option.some.injEq]
  exact (and_congr_left' decide_eq_true_iff).trans and_comm

/-- **The operations of a plan conserve the grid.** -/
theorem conservesGrid_gridOps (bidLevels offerLevels : List PriceLevel) (mid tick : ℚ)
    (hids : (orders.map (·.orderId)).Nodup) (plan : SideAction × SideAction) :
    ConservesGrid bidLevels offerLevels mid tick orders plan
      (gridOps bidLevels offerLevels mid tick orders plan) where
  nodup := nodup_cancelled hids
  cancels id := mem_cancelled_gridOps
  places := placements_gridOps
  withdrawn before s price quantity after hops side hplan o ho htype := by
    have hmem : o.orderId ∈ withdrawnIds plan orders mid :=
      (mem_withdrawnIds hids ho htype).mpr hplan
    have hprefix := (withdrawn_first hops).filterMap GridOp.cancelId?
    refine hprefix.subset ?_
    change o.orderId ∈ cancelled (cancelAll (withdrawnIds plan orders mid))
    rw [cancelled_cancelAll]
    exact hmem
  resting before hbefore side hplan := by
    have hcancels : cancelled before
        <+: cancelled (gridOps bidLevels offerLevels mid tick orders plan) :=
      hbefore.filterMap GridOp.cancelId?
    have hnow := restingOn_foldl ((nodup_cancelled hids).sublist hcancels.sublist) fun id _ =>
      @heldOn_orders _ orders mid hids side id
    have hchanges : changes side (sideQueue orders side mid) before
        <+: changes side (sideQueue orders side mid)
          (gridOps bidLevels offerLevels mid tick orders plan) :=
      hbefore.filterMap _
    rw [changes_gridOps hids hplan, ← restingOn_orders] at hchanges
    have hbounds := swaps_bounds hchanges
    intro old new now
    omega

end Plan

section Moved

attribute [local instance] Binary64.ops

/-- Both sides of a grid replaced around a new mid, one rung more for the bids. -/
theorem conservesGrid_bothSides :
    ConservesGrid [⟨-1, "1"⟩, ⟨-2, "1"⟩] [⟨1, "1"⟩] 103 1 ordersAround100 (.replace, .replace)
      (gridOps [⟨-1, "1"⟩, ⟨-2, "1"⟩] [⟨1, "1"⟩] 103 1 ordersAround100 (.replace, .replace)) :=
  conservesGrid_gridOps _ _ _ _ (by decide) _

end Moved

end BookAgent.AgentLogic
