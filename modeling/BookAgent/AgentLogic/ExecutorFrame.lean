import BookAgent.AgentLogic.ProposalStep

/-!
# Task numbers and tracked orders

Within one process no event takes a task number twice, none forgets an order that is
tracked, and what an order has settled only grows by what is noted for the proposals.
-/

namespace BookAgent.AgentLogic

open BookAgent.Lib

namespace OrderTracker

variable {D : Type} [Amount D] {t : OrderTracker D} {id : Nat}

omit [Amount D] in
theorem mem_modifyOrder {other : Nat} {f : TrackedOrder D → TrackedOrder D} :
    id ∈ (t.modifyOrder other f).orders ↔ id ∈ t.orders := by
  rw [← AList.lookup_isSome, ← AList.lookup_isSome, lookup_modifyOrder]
  by_cases h : id = other
  · rw [if_pos h, h, Option.isSome_map]
  · rw [if_neg h]

theorem mem_orders_trackOrder {other : Nat} {market price quantity signature : String} {type : Int}
    {nonce : Nat} {signedData : List UInt8} (h : id ∈ t.orders) :
    id ∈ (t.trackOrder other market type price quantity nonce signature signedData).orders :=
  (AList.mem_insert _).mpr (.inr h)

theorem mem_applyOrders {e : OrderEvent} (h : id ∈ t.orders) : id ∈ (t.applyOrders e).orders := by
  cases e with
  | track => exact mem_orders_trackOrder h
  | submitFailed => exact h
  | placing => exact h
  | placed market =>
    change id ∈ (t.dropPlacement market).orders
    unfold dropPlacement
    split
    · exact h
    · split <;> exact h
  | cancel other => exact mem_modifyOrder.mpr h
  | cancelAll =>
    rw [← AList.lookup_isSome] at h ⊢
    change ((t.orders.mapVal _).lookup id).isSome = true
    rw [Pool.lookup_mapVal, Option.isSome_map]
    exact h

/-- The orders are kept under their ids, with what they have settled in range. -/
def WellKept (t : OrderTracker D) : Prop :=
  ∀ id o, t.orders.lookup id = some o → o.orderId = id ∧ |o.settledQuantity| ≤ Amount.maxValue

/-- Every tracked order still is, with what it has settled. -/
structure SettledKept (t t' : OrderTracker D) : Prop where
  settled : ∀ id o, t.orders.lookup id = some o →
    ∃ o', t'.orders.lookup id = some o' ∧ o'.settledQuantity = o.settledQuantity
  wellKept : t.WellKept → t'.WellKept

theorem WellKept.insert {t' : OrderTracker D} (h : t.WellKept) {o : TrackedOrder D}
    (horders : t'.orders = t.orders.insert id o) (hid : o.orderId = id)
    (hrange : |o.settledQuantity| ≤ Amount.maxValue) : t'.WellKept := by
  intro other o' ho'
  rw [horders] at ho'
  by_cases hother : other = id
  · rw [hother, AList.lookup_insert] at ho'
    obtain rfl := Option.some.inj ho'
    exact ⟨hid.trans hother.symm, hrange⟩
  · rw [AList.lookup_insert_ne hother] at ho'
    exact h other o' ho'

theorem WellKept.modifyOrder (h : t.WellKept) {f : TrackedOrder D → TrackedOrder D}
    (hid : ∀ o, (f o).orderId = o.orderId)
    (hrange : ∀ o, |o.settledQuantity| ≤ Amount.maxValue → |(f o).settledQuantity| ≤ Amount.maxValue) :
    (t.modifyOrder id f).WellKept := by
  intro other o' ho'
  rcases lookup_modifyOrder_cases ho' with ⟨rfl, o, ho, rfl⟩ | ⟨-, ho⟩
  · exact ⟨(hid o).trans (h other o ho).1, hrange o (h other o ho).2⟩
  · exact h other o' ho

theorem WellKept.trackOrder (h : t.WellKept) {market price quantity signature : String} {type : Int}
    {nonce : Nat} {signedData : List UInt8} :
    (t.trackOrder id market type price quantity nonce signature signedData).WellKept := by
  refine h.insert rfl rfl ?_
  dsimp only
  rw [abs_zero]
  exact Amount.maxValue_nonneg

namespace SettledKept

variable {t' t'' : OrderTracker D}

theorem of_orders (h : t'.orders = t.orders) : SettledKept t t' where
  settled id o ho := by
    rw [← h] at ho
    exact ⟨o, ho, rfl⟩
  wellKept hkept id o ho := by
    rw [h] at ho
    exact hkept id o ho

theorem trans (h : SettledKept t t') (h' : SettledKept t' t'') : SettledKept t t'' where
  settled id o ho := by
    obtain ⟨o', ho', hsettled⟩ := h.settled id o ho
    obtain ⟨o'', ho'', hsettled'⟩ := h'.settled id o' ho'
    exact ⟨o'', ho'', hsettled'.trans hsettled⟩
  wellKept hkept := h'.wellKept (h.wellKept hkept)

/-- An order is tracked under a new id. -/
theorem insert {o : TrackedOrder D} (h : t'.orders = t.orders.insert id o) (hnew : id ∉ t.orders)
    (hid : o.orderId = id) (hrange : |o.settledQuantity| ≤ Amount.maxValue) : SettledKept t t' where
  settled other old hold := by
    have hne : other ≠ id := by
      rintro rfl
      exact hnew (Pool.mem_iff_lookup.mpr ⟨old, hold⟩)
    rw [h, AList.lookup_insert_ne hne]
    exact ⟨old, hold, rfl⟩
  wellKept hkept := hkept.insert h hid hrange

theorem trackOrder (hnew : id ∉ t.orders) {market price quantity signature : String} {type : Int}
    {nonce : Nat} {signedData : List UInt8} :
    SettledKept t (t.trackOrder id market type price quantity nonce signature signedData) := by
  refine .insert rfl hnew rfl ?_
  dsimp only
  rw [abs_zero]
  exact Amount.maxValue_nonneg

theorem modifyOrder {f : TrackedOrder D → TrackedOrder D} (hid : ∀ o, (f o).orderId = o.orderId)
    (hf : ∀ o, (f o).settledQuantity = o.settledQuantity) : SettledKept t (t.modifyOrder id f) where
  settled other o ho := by
    rw [lookup_modifyOrder]
    by_cases hother : other = id
    · rw [if_pos hother, ← hother, ho]
      exact ⟨f o, rfl, hf o⟩
    · rw [if_neg hother]
      exact ⟨o, ho, rfl⟩
  wellKept hkept := hkept.modifyOrder hid fun o ho => (hf o).symm ▸ ho

end SettledKept

theorem settledKept_markFailed {q : String} : SettledKept t (t.markFailed q) := by
  unfold markFailed
  split
  · exact .of_orders rfl
  · rename_i entry hentry
    let gone : OrderTracker D := { t with settlementOrders := t.settlementOrders.erase q }
    have kept : SettledKept t gone := .of_orders rfl
    dsimp only
    split
    · exact kept
    · refine kept.trans (.modifyOrder ?_ ?_) <;> exact fun _ => rfl

theorem wellKept_markSettled {q : String} (h : t.WellKept) : (t.markSettled q).WellKept := by
  unfold markSettled
  split
  · exact h
  · rename_i entry hentry
    let gone : OrderTracker D := { t with settlementOrders := t.settlementOrders.erase q }
    have kept : gone.WellKept := h
    dsimp only
    split
    · exact kept
    · exact kept.modifyOrder (fun _ => rfl) fun _ _ => Amount.abs_saturatingAdd_le

theorem settledKept_adoptFailedSubmit {order : Order} {now : Instant} :
    SettledKept t (t.adoptFailedSubmit order now).2 := by
  unfold adoptFailedSubmit
  dsimp only
  split
  · exact .of_orders rfl
  · rename_i hnew
    split
    · exact .of_orders rfl
    · split
      · exact .of_orders rfl
      · have forgotten (submits : List (Instant × FailedSubmit)) :
            SettledKept t { t.pruneFailedSubmits now with failedSubmits := submits } := .of_orders rfl
        refine (forgotten _).trans (SettledKept.trackOrder ?_)
        exact hnew

theorem settledKept_verifyAndImportOrder [SignatureCrates] {order : Order} {p : SettlementProposal} :
    SettledKept t (t.verifyAndImportOrder order p).2 := by
  have imported : SettledKept t (t.importOrderFromServer order) := by
    unfold importOrderFromServer
    split
    · exact .of_orders rfl
    · rename_i hnew
      exact .insert rfl hnew rfl (Amount.parseOrZero_le _)
  unfold verifyAndImportOrder
  dsimp only
  split
  · exact .of_orders rfl
  · split
    · exact .of_orders rfl
    · split_ifs
      · exact .of_orders rfl
      · exact .of_orders rfl
      · exact .of_orders rfl
      · split <;> exact imported

theorem settledKept_reserveEntry {q : String} {entry : SettlementOrderEntry D} :
    SettledKept t (t.reserveEntry q entry) := by
  let latched : OrderTracker D :=
    { t with settlementOrders := t.settlementOrders.insert q { entry with reserved := true } }
  have kept : SettledKept t latched := .of_orders rfl
  refine kept.trans (.modifyOrder ?_ ?_) <;> exact fun _ => rfl

theorem settledKept_tryReservePending {q : String} : SettledKept t (t.tryReservePending q).2 := by
  unfold tryReservePending
  split
  · exact .of_orders rfl
  · split
    · exact .of_orders rfl
    · split
      · exact .of_orders rfl
      · exact settledKept_reserveEntry

/-- The event tracks an order anew. -/
def retracks (t : OrderTracker D) : OrderEvent → Prop
  | .track id .. => id ∈ t.orders
  | _ => False

theorem settledKept_applyOrders {e : OrderEvent} (h : ¬ t.retracks e) : SettledKept t (t.applyOrders e) := by
  cases e with
  | track => exact .trackOrder h
  | submitFailed => exact .of_orders rfl
  | placing => exact .of_orders rfl
  | placed market =>
    refine .of_orders ?_
    change (t.dropPlacement market).orders = t.orders
    unfold dropPlacement
    split
    · rfl
    · split <;> rfl
  | cancel other => exact .modifyOrder (fun _ => rfl) fun _ => rfl
  | cancelAll =>
    have cancelled (id : Nat) : t.cancelAll.orders.lookup id
        = (t.orders.lookup id).map fun o => { o with isActive := false } := Pool.lookup_mapVal
    refine ⟨fun id o ho => ?_, fun hkept id o' ho' => ?_⟩
    · exact ⟨{ o with isActive := false }, (cancelled id).trans (by rw [ho]; rfl), rfl⟩
    · obtain ⟨o, ho, rfl⟩ := Option.map_eq_some_iff.mp ((cancelled id).symm.trans ho')
      exact hkept id o ho

end OrderTracker

/-! ## Increases of settled quantities -/

/-- An increase of what an order has settled, and the proposal it is made for. -/
structure Increase (D : Type) where
  proposalId : String
  orderId : Nat
  quantity : D

namespace Increase

variable {D : Type}

/-- The increases that are made for the proposal. -/
def madeFor (made : List (Increase D)) (pid : String) : List (Nat × D) :=
  (made.filter fun i => decide (i.proposalId = pid)).map fun i => (i.orderId, i.quantity)

theorem madeFor_append (made made' : List (Increase D)) (pid : String) :
    madeFor (made ++ made') pid = madeFor made pid ++ madeFor made' pid := by
  unfold madeFor
  rw [List.filter_append, List.map_append]

variable [Amount D]

/-- What an order has settled after the increases. -/
def tally (made : List (Increase D)) (id : Nat) (settled : D) : D :=
  (made.filter fun i => decide (i.orderId = id)).foldl
    (fun settled i => Amount.saturatingAdd settled i.quantity) settled

theorem tally_append (made made' : List (Increase D)) (id : Nat) (settled : D) :
    tally (made ++ made') id settled = tally made' id (tally made id settled) := by
  unfold tally
  rw [List.filter_append, List.foldl_append]

end Increase

namespace SettlementExecutor

variable {D : Type} [ValuedAmount D] [SignatureCrates] {x y z : SettlementExecutor D}

/-- The task numbers given out are as they were, and every tracked order still is. -/
structure Keeps (x y : SettlementExecutor D) : Prop where
  nextTask : y.nextTask = x.nextTask
  orders : ∀ id ∈ x.tracker.orders, id ∈ y.tracker.orders

/-- The task numbers given out are as they were, every tracked order still is, and what the orders
have settled and what is noted for the proposals has grown by the same increases. -/
structure Tallies (x y : SettlementExecutor D) : Prop where
  nextTask : y.nextTask = x.nextTask
  made : ∃ made : List (Increase D),
    (∀ pid, (y.history pid).increases = (x.history pid).increases ++ Increase.madeFor made pid) ∧
      ∀ id o, x.tracker.orders.lookup id = some o → ∃ o', y.tracker.orders.lookup id = some o' ∧
        o'.settledQuantity = Increase.tally made id o.settledQuantity
  wellKept : x.tracker.WellKept → y.tracker.WellKept

/-- What `mark_settled` adds to the settled quantity of an order. -/
def closing (x : SettlementExecutor D) (pid : String) : List (Increase D) :=
  match x.tracker.settlementOrders.lookup pid with
  | none => []
  | some e =>
    if e.reserved = true ∧ e.orderId ∈ x.tracker.orders then [⟨pid, e.orderId, e.quantity⟩] else []

omit [ValuedAmount D] [SignatureCrates] in
theorem madeFor_closing_ne {pid q : String} (h : pid ≠ q) : Increase.madeFor (x.closing q) pid = [] := by
  unfold closing
  split
  · rfl
  · split
    · unfold Increase.madeFor
      rw [List.filter_cons_of_neg (by simpa using Ne.symm h)]
      rfl
    · rfl

omit [ValuedAmount D] [SignatureCrates] in
/-- `mark_settled` notes what it adds. -/
theorem increases_close {pid : String} : ((x.history pid).close (x.tracker.settlementOrders.lookup pid)
      fun id => id ∈ x.tracker.orders).increases
    = (x.history pid).increases ++ Increase.madeFor (x.closing pid) pid := by
  unfold closing ProposalHistory.close
  cases x.tracker.settlementOrders.lookup pid with
  | none => exact (List.append_nil _).symm
  | some e =>
    dsimp only
    cases hreserved : e.reserved with
    | false => exact (List.append_nil _).symm
    | true =>
      rw [if_neg (by decide)]
      by_cases htracked : e.orderId ∈ x.tracker.orders
      · simp [htracked, Increase.madeFor]
      · simp [htracked, Increase.madeFor]

omit [SignatureCrates] in
theorem settled_markSettled {pid : String} {id : Nat} {o : TrackedOrder D}
    (ho : x.tracker.orders.lookup id = some o) :
    ∃ o', (x.tracker.markSettled pid).orders.lookup id = some o' ∧
      o'.settledQuantity = Increase.tally (x.closing pid) id o.settledQuantity := by
  unfold closing OrderTracker.markSettled
  cases x.tracker.settlementOrders.lookup pid with
  | none => exact ⟨o, ho, rfl⟩
  | some e =>
    dsimp only
    cases hreserved : e.reserved with
    | false => exact ⟨o, ho, rfl⟩
    | true =>
      rw [if_neg (by decide), OrderTracker.lookup_modifyOrder]
      by_cases hid : id = e.orderId
      · have tracked : e.orderId ∈ x.tracker.orders := hid ▸ Pool.mem_iff_lookup.mpr ⟨o, ho⟩
        subst hid
        rw [if_pos rfl, if_pos ⟨rfl, tracked⟩]
        refine ⟨_, congrArg (Option.map _) ho, ?_⟩
        simp [Increase.tally]
      · rw [if_neg hid]
        refine ⟨o, ho, ?_⟩
        split
        · simp [Increase.tally, Ne.symm hid]
        · rfl

namespace Tallies

section Changes

variable {q : String}

omit [SignatureCrates]

/-- Nothing is settled. -/
theorem kept (hnext : y.nextTask = x.nextTask) (horders : OrderTracker.SettledKept x.tracker y.tracker)
    (hincreases : ∀ pid, (y.history pid).increases = (x.history pid).increases) : Tallies x y := by
  refine ⟨hnext, ⟨[], fun pid => ?_, horders.settled⟩, horders.wellKept⟩
  rw [hincreases pid]
  exact (List.append_nil _).symm

theorem refl : Tallies x x := .kept rfl (.of_orders rfl) fun _ => rfl

theorem trans (h : Tallies x y) (h' : Tallies y z) : Tallies x z := by
  obtain ⟨made, hincreases, horders⟩ := h.made
  obtain ⟨made', hincreases', horders'⟩ := h'.made
  refine ⟨h'.nextTask.trans h.nextTask, ⟨made ++ made', fun pid => ?_, fun id o ho => ?_⟩,
    fun hkept => h'.wellKept (h.wellKept hkept)⟩
  · rw [hincreases' pid, hincreases pid, Increase.madeFor_append, List.append_assoc]
  · obtain ⟨o', ho', hsettled⟩ := horders id o ho
    obtain ⟨o'', ho'', hsettled'⟩ := horders' id o' ho'
    exact ⟨o'', ho'', by rw [hsettled', hsettled, Increase.tally_append]⟩

theorem keeps (h : Tallies x y) : Keeps x y where
  nextTask := h.nextTask
  orders id hid := by
    obtain ⟨made, -, horders⟩ := h.made
    obtain ⟨o, ho⟩ := Pool.mem_iff_lookup.mp hid
    obtain ⟨o', ho', -⟩ := horders id o ho
    exact Pool.mem_iff_lookup.mpr ⟨o', ho'⟩

variable (h : Tallies x y)
include h

theorem note {f : ProposalHistory D → ProposalHistory D}
    (hf : ∀ h, (f h).increases = h.increases) : Tallies x (y.note q f) := by
  refine h.trans (.kept rfl (.of_orders rfl) fun pid => ?_)
  change (Function.update y.history q (f (y.history q)) pid).increases = _
  by_cases hpid : pid = q
  · rw [hpid, Function.update_self]
    exact hf _
  · rw [Function.update_of_ne hpid]

theorem reject : Tallies x (y.reject q) := ⟨h.1, h.2, h.3⟩

theorem complete : Tallies x (y.complete q) := ⟨h.1, h.2, h.3⟩

theorem deactivate : Tallies x (y.deactivate q) := ⟨h.1, h.2, h.3⟩

theorem endProgress : Tallies x (y.endProgress q) := ⟨h.1, h.2, h.3⟩

theorem clearFailed : Tallies x (y.clearFailed q) := ⟨h.1, h.2, h.3⟩

theorem setFailed {n : Nat} : Tallies x (y.setFailed q n) := ⟨h.1, h.2, h.3⟩

theorem releaseCommitment : Tallies x (y.releaseCommitment q) := ⟨h.1, h.2, h.3⟩

theorem setTask {tid : Nat} {t : SettlementTask} : Tallies x (y.setTask tid t) := ⟨h.1, h.2, h.3⟩

theorem eraseTask {tid : Nat} : Tallies x { y with tasks := y.tasks.erase tid } := ⟨h.1, h.2, h.3⟩

theorem setActive {state : SettlementState} :
    Tallies x { y with activeSettlements := y.activeSettlements.insert q state } := ⟨h.1, h.2, h.3⟩

theorem rejectProposal {sent : Bool} : Tallies x (y.rejectProposal q sent) := by
  unfold SettlementExecutor.rejectProposal
  split
  · exact h.reject.deactivate
  · exact h

theorem setStage {f : SettlementState → SettlementState} : Tallies x (y.setStage q f) := by
  unfold SettlementExecutor.setStage
  split
  · exact h
  · exact h.setActive

end Changes

section Tracked

variable {q : String}

omit [SignatureCrates]

theorem markSettled (h : Tallies x y) : Tallies x (y.markSettled q) := by
  refine h.trans ⟨rfl, ⟨y.closing q, fun pid => ?_, fun id o ho => ?_⟩, fun hkept => ?_⟩
  · change (Function.update y.history q _ pid).increases = _
    by_cases hpid : pid = q
    · rw [hpid, Function.update_self]
      exact increases_close
    · rw [Function.update_of_ne hpid, madeFor_closing_ne hpid, List.append_nil]
  · exact settled_markSettled ho
  · exact OrderTracker.wellKept_markSettled hkept

theorem markFailed (h : Tallies x y) : Tallies x (y.markFailed q) := by
  refine h.trans (.trans (y := y.note q fun h => { h with lost := h.lost || y.tracker.hasSettlementOrder q })
    (refl.note fun _ => rfl) ?_)
  exact .kept rfl OrderTracker.settledKept_markFailed fun _ => rfl

theorem adopt (h : Tallies x y) {p : SettlementProposal} {id : Nat} {through : Bool} :
    Tallies x (y.adopt p id through) := by
  let noted := y.note p.proposalId fun h =>
    { h with
      told := false
      adopted := if h.closed then h.adopted
        else if through then some (id, Amount.parseOrZero p.baseQuantity) else none }
  have kept : Tallies x noted := h.note fun _ => rfl
  exact kept.trans (.kept rfl (.of_orders orders_adopt) fun _ => rfl)

theorem takeState (h : Tallies x y) {final : SettlementState} : Tallies x (y.takeState q final) := by
  unfold SettlementExecutor.takeState
  split
  · exact h.markFailed.releaseCommitment
  · exact h.setActive

theorem applyFailure (h : Tallies x y) {count : Nat} {now : Int} :
    Tallies x (y.applyFailure q count now) := by
  unfold SettlementExecutor.applyFailure
  split
  · exact (h.note (by intro; rfl)).releaseCommitment.markFailed.reject.deactivate.clearFailed
  · exact h.setFailed

theorem applyResult (h : Tallies x y) {result : AdvanceResult} {now : Int} :
    Tallies x (y.applyResult q result now) := by
  unfold SettlementExecutor.applyResult
  split
  · exact h.setStage.clearFailed
  · exact h.setStage.clearFailed
  · exact h.releaseCommitment.reject.deactivate.clearFailed
  · exact (h.note (by intro; rfl)).releaseCommitment.complete.deactivate.clearFailed
  · exact h.setFailed
  · exact h.applyFailure
  · exact h.applyFailure
  · exact h

theorem collect (h : Tallies x y) {tid : Nat} {now : Int} : Tallies x (y.collect tid now) := by
  unfold SettlementExecutor.collect
  split
  · dsimp only
    split
    · exact (h.eraseTask.endProgress.takeState.note (by intro; rfl)).applyResult.clearFailed
    · exact (h.eraseTask.endProgress.takeState.note (by intro; rfl)).applyResult
  · exact h.eraseTask.endProgress
  · exact h

theorem endStep (h : Tallies x y) {tid : Nat} {t : SettlementTask} {result : AdvanceResult} :
    Tallies x (y.endStep tid t result) := by
  unfold SettlementExecutor.endStep
  split
  · exact (h.note (by intro; rfl)).setTask
  · split
    · exact (h.note (by intro; rfl)).setTask
    · exact h.setTask

theorem actStep (h : Tallies x y) {tid : Nat} {answer : Except String String} {now : Int} :
    Tallies x (y.actStep tid answer now) := by
  unfold SettlementExecutor.actStep
  split
  case h_2 => exact h
  dsimp only
  split
  · split
    · exact h.markFailed.setTask
    · split <;> exact h.endStep
  · exact h.endStep
  · split <;> exact h.endStep
  · split
    · exact h.endStep
    · split <;> exact h.endStep
  · exact h.endStep
  · split
    · exact h.endStep
    · split <;> exact h.endStep
  · exact h.endStep
  · exact h.endStep
  · split
    · exact (h.note (by intro; rfl)).markSettled.endStep
    · exact h.markFailed.endStep

theorem verifyRfqProposal (h : Tallies x y) (p : SettlementProposal) :
    Tallies x (y.verifyRfqProposal p).2 := by
  unfold SettlementExecutor.verifyRfqProposal
  split
  · exact ⟨h.1, h.2, h.3⟩
  · split
    · exact h
    · split
      · exact h
      · exact ⟨h.1, h.2, h.3⟩

end Tracked

theorem verifyOrderProposal (h : Tallies x y) (p : SettlementProposal) (f : ProposalFeed D) :
    Tallies x (y.verifyOrderProposal p f).2 := by
  have verified (id : Nat) :
      y.tracker.SettledKept (verifyUserOrder y.tracker p y.config.partyId id f).2 := by
    unfold verifyUserOrder
    split
    · exact .of_orders rfl
    · split
      · exact .of_orders rfl
      · dsimp only
        split
        · split <;> exact OrderTracker.settledKept_adoptFailedSubmit
        · exact OrderTracker.settledKept_adoptFailedSubmit.trans
            OrderTracker.settledKept_verifyAndImportOrder
  unfold SettlementExecutor.verifyOrderProposal
  split
  · exact h
  · exact h
  · exact h
  · dsimp only
    split <;> exact h.trans (.kept rfl (verified _) fun _ => rfl)

theorem checkTerms (h : Tallies x y) {p : SettlementProposal} {f : ProposalFeed D} :
    Tallies x (y.checkTerms p f) := by
  unfold SettlementExecutor.checkTerms
  split
  · have kept := h.verifyRfqProposal p
    split <;> rename_i heq <;> rw [heq] at kept
    · exact kept.rejectProposal
    · exact kept.adopt
  · have kept := h.verifyOrderProposal p f
    split <;> rename_i heq <;> rw [heq] at kept
    · exact kept.adopt
    · exact kept.rejectProposal
    · exact kept

theorem vet (h : Tallies x y) {p : SettlementProposal} {f : ProposalFeed D} :
    Tallies x (y.vet p f) := by
  unfold SettlementExecutor.vet
  dsimp only
  split_ifs
  · exact h.rejectProposal
  · exact h.rejectProposal
  · split
    · exact h
    · exact h.rejectProposal
    · exact h.checkTerms

omit [SignatureCrates] in
theorem abortV1Settlement (h : Tallies x y) {p : SettlementProposal} {f : ProposalFeed D} :
    Tallies x (y.abortV1Settlement p f) := by
  unfold SettlementExecutor.abortV1Settlement
  split
  · exact h
  · split
    · exact h.reject
    · dsimp only
      split
      · exact (h.note (by intro; rfl)).markFailed.reject
      · exact h.note (by intro; rfl)
      · exact h.note (by intro; rfl)

theorem handleProposalCreated (h : Tallies x y) {p : SettlementProposal} {f : ProposalFeed D} :
    Tallies x (y.handleProposalCreated p f) := by
  unfold SettlementExecutor.handleProposalCreated
  dsimp only
  split_ifs
  · exact h
  · exact (h.note (by intro; rfl)).complete
  · exact h
  · exact h.markFailed.releaseCommitment.rejectProposal
  · exact h.abortV1Settlement
  · unfold resume
    split
    · exact h.markFailed.reject.note (by intro; rfl)
    · exact (h.note (by intro; rfl)).setActive
  · exact h.adopt
  · exact h.vet

end Tallies

/-- Every event but the start of a task, an order that is tracked anew and the restart. -/
theorem tallies_apply (e : ExecutorEvent D) (hrestart : e.isRestart = false)
    (hspawn : ∀ pid fresh, e ≠ .spawn pid fresh)
    (horders : ∀ o, e = .orders o → ¬ x.tracker.retracks o) : Tallies x (x.apply e) := by
  have h : Tallies x x := .refl
  cases e with
  | proposalCreated p f => exact h.handleProposalCreated
  | settled p now =>
    refine Tallies.clearFailed (.endProgress (.deactivate (.complete (.releaseCommitment ?_))))
    exact (h.note (by intro; rfl)).markSettled.note (by intro; rfl)
  | ended q => exact h.markFailed.releaseCommitment.reject.deactivate.endProgress.clearFailed
  | contractFound q kind cid =>
    change Tallies x (x.contractFound q kind cid)
    unfold contractFound
    split
    · exact h
    · split
      · exact h
      · exact h.setStage.clearFailed
  | readvance q =>
    change Tallies x (x.readvance q)
    unfold readvance
    split
    · exact h.clearFailed
    · exact h
  | spawn q fresh => exact absurd rfl (hspawn q fresh)
  | beginStep tid =>
    change Tallies x (x.beginStep tid)
    unfold beginStep
    split
    · exact h.setTask
    · exact h
  | answerStep tid answer now =>
    change Tallies x (x.answerStep tid answer now)
    unfold answerStep
    split
    · dsimp only
      split
      · exact h.endStep
      · split
        · exact h.endStep
        · split <;> exact h.setTask
    · exact h
  | commitStep tid feeCc fixed4 =>
    change Tallies x (x.commitStep tid feeCc fixed4)
    unfold commitStep
    split
    · dsimp only
      split
      · exact h.setTask
      · split
        · exact h.setTask
        · split
          · exact h.endStep
          · exact .kept rfl (.of_orders rfl) fun _ => rfl
    · exact h
  | latchStep tid =>
    change Tallies x (x.latchStep tid)
    unfold latchStep
    split
    · rename_i q state step ht
      have kept : x.tracker.SettledKept (x.tracker.tryReservePending q).2 :=
        OrderTracker.settledKept_tryReservePending
      dsimp only
      split <;> rename_i heq
      · exact h.endStep
      · exact h.setTask
      · rw [heq] at kept
        have noted : Tallies x (x.note q fun h => { h with reserved := true }) :=
          h.note fun _ => rfl
        split <;> exact noted.trans (.kept rfl kept fun _ => rfl)
    · exact h
  | recordStep tid =>
    change Tallies x (x.recordStep tid)
    unfold recordStep
    split
    · exact (h.note (by intro; rfl)).setTask
    · exact h
  | actStep tid answer now => exact h.actStep
  | refuseStep tid =>
    change Tallies x (x.refuseStep tid)
    unfold refuseStep
    split
    · exact h.setTask
    · exact h
  | allocateReturns tid answer =>
    change Tallies x (x.allocateReturns tid answer)
    unfold allocateReturns
    split
    · dsimp only
      split <;> exact h.setTask
    · exact h
  | dropTask tid =>
    change Tallies x (x.dropTask tid)
    unfold dropTask
    split
    · exact h
    · exact h
    · exact h.setTask
  | collect tid now => exact h.collect
  | runRelease q => exact .kept rfl (.of_orders rfl) fun _ => rfl
  | allocationCommits q =>
    change Tallies x (x.note q fun h => { h with committed := true })
    exact h.note (by intro; rfl)
  | rejectUnconfirmed q sent =>
    change Tallies x (x.rejectUnconfirmed q sent)
    unfold rejectUnconfirmed
    split
    · exact h
    · split
      · dsimp only
        split
        · exact h.releaseCommitment.markFailed.rejectProposal
        · exact h.releaseCommitment.markFailed.deactivate
      · exact h
  | orders o => exact .kept rfl (OrderTracker.settledKept_applyOrders (horders o rfl)) fun _ => rfl
  | restart => cases hrestart
  | _ => exact .kept rfl (.of_orders rfl) fun _ => rfl

/-- Every event but the start of a task and the restart keeps the task numbers and the
tracked orders. -/
theorem keeps_apply (e : ExecutorEvent D) (hrestart : e.isRestart = false)
    (hspawn : ∀ pid fresh, e ≠ .spawn pid fresh) : Keeps x (x.apply e) := by
  by_cases horders : ∃ o, e = .orders o
  · obtain ⟨o, rfl⟩ := horders
    exact ⟨rfl, fun _ hid => OrderTracker.mem_applyOrders hid⟩
  · exact (tallies_apply e hrestart hspawn fun o he => absurd ⟨o, he⟩ horders).keeps

omit [ValuedAmount D] [SignatureCrates] in
/-- A task is started only under the next number. -/
theorem nextTask_spawnTask (q : String) (fresh : Bool) :
    x.spawnTask q fresh = x ∨ (x.spawnTask q fresh).nextTask = x.nextTask + 1 := by
  unfold spawnTask
  split
  · exact .inl rfl
  · split
    · exact .inl rfl
    · refine .inr ?_
      dsimp only
      split <;> rfl

end SettlementExecutor

end BookAgent.AgentLogic
