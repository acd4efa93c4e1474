import Mathlib.Tactic.Abel
import BookAgent.Lib.Run
import BookAgent.AgentLogic.OrderTracker

/-!
# Order capacity is conserved

On every order of the agent, what is pending is what settlements in flight have
reserved on it, what is settled is what settlements brought home, and the two stay
within the order's quantity. It fails where capacity is reserved on an order that is
not tracked yet, or a settled proposal is recorded anew.
-/

namespace BookAgent.AgentLogic

open BookAgent.Lib

variable {D : Type} [Amount D]

namespace OrderTracker

/-- What an entry has reserved on an order. -/
def reservedOn (orderId : Nat) (_ : String) (e : SettlementOrderEntry D) : D :=
  if e.reserved = true ∧ e.orderId = orderId then e.quantity else 0

/-- What the settlements in flight have reserved on an order. -/
def reservedTotal (t : OrderTracker D) (orderId : Nat) : D :=
  t.settlementOrders.total (reservedOn orderId)

/-! ## What the operations change -/

variable {t : OrderTracker D} {id : Nat} {pid : String}

theorem reservedOn_of_unreserved {e : SettlementOrderEntry D} (h : e.reserved = false) :
    reservedOn id pid e = 0 := by
  unfold reservedOn
  rw [if_neg]
  rintro ⟨hres, -⟩
  rw [h] at hres
  cases hres

/-- Dropping an entry takes back what it had reserved. -/
theorem reservedTotal_erase (id : Nat) {e : SettlementOrderEntry D}
    (h : t.settlementOrders.lookup pid = some e) :
    Pool.total (reservedOn id) (AList.erase pid t.settlementOrders)
      = t.reservedTotal id - reservedOn id pid e := by
  unfold reservedTotal
  rw [← Pool.total_erase h]
  abel

/-- Latching an entry adds its quantity to what is reserved on its order. -/
theorem reservedTotal_reserve (id : Nat) {e : SettlementOrderEntry D}
    (h : t.settlementOrders.lookup pid = some e) (hres : e.reserved = false) :
    Pool.total (reservedOn id) (AList.insert pid { e with reserved := true } t.settlementOrders)
      = t.reservedTotal id + if e.orderId = id then e.quantity else 0 := by
  rw [Pool.total_insert, reservedTotal_erase id h, reservedOn_of_unreserved hres, sub_zero, add_comm]
  unfold reservedOn
  simp only [true_and]

/-- Recording an adoption reserves nothing. -/
theorem reservedTotal_record (t : OrderTracker D) (pid : String) (orderId : Nat) (quantity : D)
    (id : Nat) :
    (t.recordSettlementOrder pid orderId quantity).reservedTotal id = t.reservedTotal id := by
  unfold recordSettlementOrder reservedTotal
  split
  · rfl
  · rename_i h
    rw [Pool.total_insert_new (AList.lookup_eq_none.mpr h), reservedOn_of_unreserved rfl, zero_add]

/-- What an accepted reservation says of its order. -/
theorem remaining_of_checkReservation {e : SettlementOrderEntry D} {o : TrackedOrder D}
    (h : t.checkReservation e = .ok ()) (hid : e.orderId ≠ 0)
    (ho : t.orders.lookup e.orderId = some o) :
    e.quantity ≤ o.quantity - o.settledQuantity - o.pendingQuantity := by
  unfold checkReservation at h
  rw [if_neg hid, ho] at h
  dsimp only at h
  cases hrem : remainingCapacity o with
  | none =>
    rw [hrem] at h
    cases h
  | some remaining =>
    rw [hrem] at h
    dsimp only at h
    split at h
    · cases h
    · rename_i hlt
      obtain ⟨rest, hrest, hremaining⟩ := Option.bind_eq_some_iff.mp hrem
      rw [← Amount.checkedSub_eq_some hrest, ← Amount.checkedSub_eq_some hremaining]
      exact not_lt.mp hlt

end OrderTracker

/-! ## Runs -/

/-- The tracker, and for each proposal that was settled while reserved the order and
the quantity it settled. -/
structure TrackerRun (D : Type) where
  tracker : OrderTracker D
  counted : Pool String (Nat × D)

inductive TrackerEvent (D : Type)
  | trackOrder (orderId : Nat) (marketId : String) (orderType : Int) (price quantity : String)
      (nonce : Nat) (signature : String) (signedData : List UInt8)
  | noteSubmitFailed (submit : FailedSubmit) (now : Instant)
  | adoptFailedSubmit (order : Order) (now : Instant)
  | verifyAndImportOrder (order : Order) (proposal : SettlementProposal)
  | recordSettlementOrder (proposalId : String) (orderId : Nat) (quantity : D)
  | tryReservePending (proposalId : String)
  | markSettled (proposalId : String)
  | markFailed (proposalId : String)
  | cancelOrder (orderId : Nat)
  | cancelAll
  /-- The state is exported and imported into a fresh tracker. -/
  | restart (startTimeMs : Nat) (privateKey : Except String (List UInt8))

namespace TrackerRun

def start (startTimeMs : Nat) (privateKey : Except String (List UInt8)) : TrackerRun D :=
  ⟨.new startTimeMs privateKey, ∅⟩

/-- A proposal settled while reserved is counted, once. -/
def count (r : TrackerRun D) (proposalId : String) : Pool String (Nat × D) :=
  match r.tracker.settlementOrders.lookup proposalId with
  | none => r.counted
  | some e =>
    if e.reserved = true ∧ proposalId ∉ r.counted then
      r.counted.insert proposalId (e.orderId, e.quantity)
    else r.counted

section Apply

variable [SignatureCrates]

def restarted (t : OrderTracker D) (startTimeMs : Nat) (privateKey : Except String (List UInt8)) :
    OrderTracker D :=
  (OrderTracker.new startTimeMs privateKey).importState t.exportState.2.1 t.exportState.2.2

def apply (r : TrackerRun D) : TrackerEvent D → TrackerRun D
  | .trackOrder id market type price quantity nonce signature signedData =>
    { r with tracker :=
        r.tracker.trackOrder id market type price quantity nonce signature signedData }
  | .noteSubmitFailed submit now => { r with tracker := r.tracker.noteSubmitFailed submit now }
  | .adoptFailedSubmit order now => { r with tracker := (r.tracker.adoptFailedSubmit order now).2 }
  | .verifyAndImportOrder order proposal =>
    { r with tracker := (r.tracker.verifyAndImportOrder order proposal).2 }
  | .recordSettlementOrder pid id quantity =>
    { r with tracker := r.tracker.recordSettlementOrder pid id quantity }
  | .tryReservePending pid => { r with tracker := (r.tracker.tryReservePending pid).2 }
  | .markSettled pid => ⟨r.tracker.markSettled pid, r.count pid⟩
  | .markFailed pid => { r with tracker := r.tracker.markFailed pid }
  | .cancelOrder id => { r with tracker := r.tracker.cancelOrder id }
  | .cancelAll => { r with tracker := r.tracker.cancelAll }
  | .restart startTimeMs key => { r with tracker := restarted r.tracker startTimeMs key }

end Apply

/-- Ids are tracked once, and quantities are in range and not negative. -/
def Allowed (r : TrackerRun D) : TrackerEvent D → Prop
  | .trackOrder id _ _ _ quantity _ _ _ =>
    id ∉ r.tracker.orders ∧ 0 ≤ (Amount.parseOrZero quantity : D)
  | .noteSubmitFailed submit _ => 0 ≤ (Amount.parseOrZero submit.quantity : D)
  | .recordSettlementOrder _ _ quantity => 0 ≤ quantity ∧ quantity ≤ Amount.maxValue
  | _ => True

/-- What settled proposals brought home on an order. -/
def countedTotal (r : TrackerRun D) (orderId : Nat) : D :=
  r.counted.total fun _ c => if c.1 = orderId then c.2 else 0

/-- An order starts to be tracked when nothing is reserved or settled under its id. -/
def Untouched (r : TrackerRun D) (orderId : Nat) : Prop :=
  r.tracker.reservedTotal orderId = 0 ∧ r.countedTotal orderId = 0

/-- Orders are tracked before anything is reserved on them, an order with id zero is
not reserved beyond its capacity, and a proposal is settled once. -/
def Careful (r : TrackerRun D) : TrackerEvent D → Prop
  | .trackOrder id _ _ _ _ _ _ _ => r.Untouched id
  | .adoptFailedSubmit order now =>
    (r.tracker.adoptFailedSubmit order now).1 = true → r.Untouched order.orderId
  | .tryReservePending pid => ∀ e, r.tracker.settlementOrders.lookup pid = some e →
      e.reserved = false → e.orderId = 0 → ∀ o, r.tracker.orders.lookup 0 = some o →
      e.quantity ≤ o.quantity - o.settledQuantity - o.pendingQuantity
  | .markSettled pid => ∀ e, r.tracker.settlementOrders.lookup pid = some e →
      e.reserved = true → pid ∉ r.counted
  | _ => True

/-- Pending and settled are what the records say, within the order's quantity. -/
structure Conserved (r : TrackerRun D) (orderId : Nat) (o : TrackedOrder D) : Prop where
  pending : o.pendingQuantity = r.tracker.reservedTotal orderId
  settled : o.settledQuantity = r.countedTotal orderId
  capacity : o.settledQuantity + o.pendingQuantity ≤ o.quantity

/-! ## The invariant -/

/-- Orders are kept under their ids, amounts are in range, and the accounts of the
agent's orders are conserved. -/
structure Invariant (r : TrackerRun D) : Prop where
  keyed : ∀ id o, r.tracker.orders.lookup id = some o → o.orderId = id
  entry : ∀ pid e, r.tracker.settlementOrders.lookup pid = some e →
    0 ≤ e.quantity ∧ e.quantity ≤ Amount.maxValue
  submit : ∀ s ∈ r.tracker.failedSubmits, 0 ≤ (Amount.parseOrZero s.2.quantity : D)
  counted : ∀ pid c, r.counted.lookup pid = some c → 0 ≤ c.2
  conserved : ∀ id o, r.tracker.orders.lookup id = some o → o.placedBy = "agent" →
    r.Conserved id o
  inRange : ∀ id o, r.tracker.orders.lookup id = some o → o.placedBy = "agent" →
    o.quantity ≤ Amount.maxValue

/-- The order `o'` is `o` as far as its account goes. -/
structure SameAccount (o o' : TrackedOrder D) : Prop where
  orderId : o'.orderId = o.orderId
  placedBy : o'.placedBy = o.placedBy
  quantity : o'.quantity = o.quantity
  settled : o'.settledQuantity = o.settledQuantity
  pending : o'.pendingQuantity = o.pendingQuantity

omit [Amount D] in
theorem sameAccount_refl (o : TrackedOrder D) : SameAccount o o := ⟨rfl, rfl, rfl, rfl, rfl⟩

/-- A newly tracked order: under its id, and with an untouched account if it is the
agent's. -/
structure FreshAccount (r : TrackerRun D) (id : Nat) (o : TrackedOrder D) : Prop where
  orderId : o.orderId = id
  settled : o.placedBy = "agent" → o.settledQuantity = 0
  pending : o.placedBy = "agent" → o.pendingQuantity = 0
  nonneg : o.placedBy = "agent" → 0 ≤ o.quantity
  inRange : o.placedBy = "agent" → o.quantity ≤ Amount.maxValue
  untouched : o.placedBy = "agent" → r.Untouched id

namespace Invariant

variable {r : TrackerRun D}

theorem reservedOn_nonneg (h : r.Invariant) (id : Nat) :
    ∀ pid e, r.tracker.settlementOrders.lookup pid = some e →
      0 ≤ OrderTracker.reservedOn id pid e := by
  intro pid e he
  unfold OrderTracker.reservedOn
  split
  · exact (h.entry pid e he).1
  · exact le_rfl

theorem reservedTotal_nonneg (h : r.Invariant) (id : Nat) : 0 ≤ r.tracker.reservedTotal id :=
  Pool.total_nonneg (h.reservedOn_nonneg id)

theorem countedTotal_nonneg (h : r.Invariant) (id : Nat) : 0 ≤ r.countedTotal id := by
  refine Pool.total_nonneg ?_
  intro pid c hc
  split
  · exact h.counted pid c hc
  · exact le_rfl

/-- The amounts of an agent's order lie between zero and its quantity. -/
theorem amounts (h : r.Invariant) {id : Nat} {o : TrackedOrder D}
    (ho : r.tracker.orders.lookup id = some o) (hagent : o.placedBy = "agent") :
    0 ≤ o.settledQuantity ∧ 0 ≤ o.pendingQuantity ∧
      o.settledQuantity ≤ o.quantity ∧ o.pendingQuantity ≤ o.quantity ∧
      o.quantity ≤ Amount.maxValue := by
  have conserved := h.conserved id o ho hagent
  have hsettled : 0 ≤ o.settledQuantity := conserved.settled ▸ h.countedTotal_nonneg id
  have hpending : 0 ≤ o.pendingQuantity := conserved.pending ▸ h.reservedTotal_nonneg id
  refine ⟨hsettled, hpending, ?_, ?_, h.inRange id o ho hagent⟩
  · exact (le_add_of_nonneg_right hpending).trans conserved.capacity
  · exact (le_add_of_nonneg_left hsettled).trans conserved.capacity

/-- A step that leaves the records alone, and each order alone but for those it newly
tracks. -/
theorem frame (h : r.Invariant) {t : OrderTracker D}
    (hentries : ∀ pid, t.settlementOrders.lookup pid = r.tracker.settlementOrders.lookup pid)
    (hsubmits : ∀ s ∈ t.failedSubmits, 0 ≤ (Amount.parseOrZero s.2.quantity : D))
    (horders : ∀ id o', t.orders.lookup id = some o' →
      (∃ o, r.tracker.orders.lookup id = some o ∧ SameAccount o o') ∨ FreshAccount r id o') :
    Invariant { r with tracker := t } := by
  have reserved : ∀ id, t.reservedTotal id = r.tracker.reservedTotal id := fun _ =>
    Pool.total_eq_of_lookup hentries
  refine ⟨?_, ?_, hsubmits, h.counted, ?_, ?_⟩
  · intro id o' ho'
    rcases horders id o' ho' with ⟨o, ho, same⟩ | fresh
    · exact same.orderId.trans (h.keyed id o ho)
    · exact fresh.orderId
  · intro pid e he
    exact h.entry pid e ((hentries pid).symm.trans he)
  · intro id o' ho' hagent
    rcases horders id o' ho' with ⟨o, ho, same⟩ | fresh
    · have conserved := h.conserved id o ho (same.placedBy ▸ hagent)
      refine ⟨?_, same.settled.trans conserved.settled, ?_⟩
      · exact (same.pending.trans conserved.pending).trans (reserved id).symm
      · rw [same.settled, same.pending, same.quantity]
        exact conserved.capacity
    · obtain ⟨hreserved, hcounted⟩ := fresh.untouched hagent
      refine ⟨?_, (fresh.settled hagent).trans hcounted.symm, ?_⟩
      · exact (fresh.pending hagent).trans ((reserved id).trans hreserved).symm
      · rw [fresh.settled hagent, fresh.pending hagent, add_zero]
        exact fresh.nonneg hagent
  · intro id o' ho' hagent
    rcases horders id o' ho' with ⟨o, ho, same⟩ | fresh
    · rw [same.quantity]
      exact h.inRange id o ho (same.placedBy ▸ hagent)
    · exact fresh.inRange hagent

/-! ### Tracking and cancelling -/

theorem trackOrder (h : r.Invariant) {id : Nat} {market : String} {type : Int}
    {price quantity : String} {nonce : Nat} {signature : String} {signedData : List UInt8}
    (hquantity : 0 ≤ (Amount.parseOrZero quantity : D)) (huntouched : r.Untouched id) :
    Invariant { r with tracker :=
      r.tracker.trackOrder id market type price quantity nonce signature signedData } := by
  refine h.frame (fun _ => rfl) h.submit ?_
  intro other o' ho'
  by_cases hid : other = id
  · subst hid
    rw [OrderTracker.trackOrder, AList.lookup_insert] at ho'
    obtain rfl := Option.some.inj ho'
    exact .inr ⟨rfl, fun _ => rfl, fun _ => rfl, fun _ => hquantity,
      fun _ => (abs_le.mp (Amount.parseOrZero_le quantity)).2, fun _ => huntouched⟩
  · rw [OrderTracker.trackOrder, AList.lookup_insert_ne hid] at ho'
    exact .inl ⟨o', ho', sameAccount_refl o'⟩

/-- Forgetting failed submits. -/
theorem withSubmits (h : r.Invariant) {submits : List (Instant × FailedSubmit)}
    (hsub : ∀ s ∈ submits, s ∈ r.tracker.failedSubmits) :
    Invariant { r with tracker := { r.tracker with failedSubmits := submits } } :=
  h.frame (fun _ => rfl) (fun s hs => h.submit s (hsub s hs))
    fun _ o' ho' => .inl ⟨o', ho', sameAccount_refl o'⟩

theorem pruneFailedSubmits (h : r.Invariant) (now : Instant) :
    Invariant { r with tracker := r.tracker.pruneFailedSubmits now } :=
  h.withSubmits fun _ hs => (List.mem_filter.mp hs).1

theorem noteSubmitFailed (h : r.Invariant) {submit : FailedSubmit} {now : Instant}
    (hquantity : 0 ≤ (Amount.parseOrZero submit.quantity : D)) :
    Invariant { r with tracker := r.tracker.noteSubmitFailed submit now } := by
  refine h.frame (fun _ => rfl) ?_ fun _ o' ho' => .inl ⟨o', ho', sameAccount_refl o'⟩
  intro s hs
  rcases List.mem_append.mp hs with hold | hnew
  · exact h.submit s (List.mem_filter.mp (List.mem_of_mem_drop hold)).1
  · obtain rfl := List.mem_singleton.mp hnew
    exact hquantity

theorem adoptFailedSubmit (h : r.Invariant) {order : Order} {now : Instant}
    (huntouched : (r.tracker.adoptFailedSubmit order now).1 = true → r.Untouched order.orderId) :
    Invariant { r with tracker := (r.tracker.adoptFailedSubmit order now).2 } := by
  have pruned := h.pruneFailedSubmits now
  unfold OrderTracker.adoptFailedSubmit at huntouched ⊢
  dsimp only at huntouched ⊢
  split
  · exact pruned
  · rename_i hnew
    rw [if_neg hnew] at huntouched
    split
    · exact pruned
    · rename_i pos hpos
      rw [hpos] at huntouched
      dsimp only at huntouched
      split
      · exact pruned
      · rename_i at_ s hs
        rw [hs] at huntouched
        refine trackOrder (r := { r with tracker := _ }) (pruned.withSubmits ?_) ?_ ?_
        · exact fun _ => List.mem_of_mem_eraseIdx
        · exact pruned.submit _ (List.mem_of_getElem? hs)
        · exact huntouched rfl

theorem cancelOrder (h : r.Invariant) (id : Nat) :
    Invariant { r with tracker := r.tracker.cancelOrder id } := by
  unfold OrderTracker.cancelOrder
  refine h.frame (fun _ => by rw [OrderTracker.settlementOrders_modifyOrder]) ?_ ?_
  · rw [OrderTracker.failedSubmits_modifyOrder]
    exact h.submit
  · intro other o' ho'
    rcases OrderTracker.lookup_modifyOrder_cases ho' with ⟨rfl, o, ho, rfl⟩ | ⟨-, ho⟩
    · exact .inl ⟨o, ho, rfl, rfl, rfl, rfl, rfl⟩
    · exact .inl ⟨o', ho, sameAccount_refl o'⟩

theorem cancelAll (h : r.Invariant) : Invariant { r with tracker := r.tracker.cancelAll } := by
  refine h.frame (fun _ => rfl) h.submit ?_
  intro id o' ho'
  rw [OrderTracker.cancelAll, Pool.lookup_mapVal, Option.map_eq_some_iff] at ho'
  obtain ⟨o, ho, rfl⟩ := ho'
  exact .inl ⟨o, ho, rfl, rfl, rfl, rfl, rfl⟩

theorem verifyAndImportOrder [SignatureCrates] (h : r.Invariant) (order : Order)
    (proposal : SettlementProposal) :
    Invariant { r with tracker := (r.tracker.verifyAndImportOrder order proposal).2 } := by
  have imported : Invariant { r with tracker := r.tracker.importOrderFromServer order } := by
    unfold OrderTracker.importOrderFromServer
    split
    · exact h
    · refine h.frame (fun _ => rfl) h.submit ?_
      intro id o' ho'
      by_cases hid : id = order.orderId
      · subst hid
        rw [AList.lookup_insert] at ho'
        obtain rfl := Option.some.inj ho'
        have user : "user" ≠ "agent" := by decide
        exact .inr ⟨rfl, (absurd · user), (absurd · user), (absurd · user), (absurd · user),
          (absurd · user)⟩
      · rw [AList.lookup_insert_ne hid] at ho'
        exact .inl ⟨o', ho', sameAccount_refl o'⟩
  unfold OrderTracker.verifyAndImportOrder
  dsimp only
  split
  · exact h
  · split
    · exact h
    · split
      · exact h
      · split
        · exact h
        · split
          · exact h
          · split <;> exact imported

/-! ### Settlements -/

/-- A step that changes the records but no order. -/
theorem records_step (h : r.Invariant) {entries : Pool String (SettlementOrderEntry D)}
    (hentry : ∀ pid e, entries.lookup pid = some e → 0 ≤ e.quantity ∧ e.quantity ≤ Amount.maxValue)
    (hreserved : ∀ id, entries.total (OrderTracker.reservedOn id) = r.tracker.reservedTotal id) :
    Invariant { r with tracker := { r.tracker with settlementOrders := entries } } := by
  refine ⟨h.keyed, hentry, h.submit, h.counted, ?_, h.inRange⟩
  intro id o ho hagent
  have conserved := h.conserved id o ho hagent
  exact ⟨conserved.pending.trans (hreserved id).symm, conserved.settled, conserved.capacity⟩

theorem entry_insert (h : r.Invariant) {pid : String} {e : SettlementOrderEntry D}
    (he : 0 ≤ e.quantity ∧ e.quantity ≤ Amount.maxValue) :
    ∀ pid' e', (AList.insert pid e r.tracker.settlementOrders).lookup pid' = some e' →
      0 ≤ e'.quantity ∧ e'.quantity ≤ Amount.maxValue := by
  intro pid' e' he'
  by_cases hpid : pid' = pid
  · subst hpid
    rw [AList.lookup_insert] at he'
    exact Option.some.inj he' ▸ he
  · rw [AList.lookup_insert_ne hpid] at he'
    exact h.entry pid' e' he'

theorem entry_erase (h : r.Invariant) {pid : String} :
    ∀ pid' e', (AList.erase pid r.tracker.settlementOrders).lookup pid' = some e' →
      0 ≤ e'.quantity ∧ e'.quantity ≤ Amount.maxValue := by
  intro pid' e' he'
  by_cases hpid : pid' = pid
  · subst hpid
    rw [AList.lookup_erase] at he'
    cases he'
  · rw [AList.lookup_erase_ne hpid] at he'
    exact h.entry pid' e' he'

theorem recordSettlementOrder (h : r.Invariant) {pid : String} {id : Nat} {quantity : D}
    (hnonneg : 0 ≤ quantity) (hmax : quantity ≤ Amount.maxValue) :
    Invariant { r with tracker := r.tracker.recordSettlementOrder pid id quantity } := by
  have reserved := OrderTracker.reservedTotal_record r.tracker pid id quantity
  unfold OrderTracker.recordSettlementOrder at reserved ⊢
  split
  · exact h
  · rename_i hnew
    refine h.records_step (h.entry_insert ⟨hnonneg, hmax⟩) fun other => ?_
    have hother := reserved other
    rw [if_neg hnew] at hother
    exact hother

/-- A step that changes one order's account along with the entry of one proposal. -/
theorem settle_step (h : r.Invariant) {id : Nat} {f : TrackedOrder D → TrackedOrder D}
    {entries : Pool String (SettlementOrderEntry D)} {counted : Pool String (Nat × D)}
    (hentry : ∀ pid e, entries.lookup pid = some e → 0 ≤ e.quantity ∧ e.quantity ≤ Amount.maxValue)
    (hcounted : ∀ pid c, counted.lookup pid = some c → 0 ≤ c.2)
    (hid : ∀ o, (f o).orderId = o.orderId) (hplaced : ∀ o, (f o).placedBy = o.placedBy)
    (hquantity : ∀ o, (f o).quantity = o.quantity)
    (hother : ∀ other o, other ≠ id → r.Conserved other o →
      Conserved ⟨{ r.tracker with settlementOrders := entries }, counted⟩ other o)
    (hsame : ∀ o, r.tracker.orders.lookup id = some o → o.placedBy = "agent" → r.Conserved id o →
      Conserved ⟨{ r.tracker with settlementOrders := entries }, counted⟩ id (f o)) :
    Invariant ⟨OrderTracker.modifyOrder { r.tracker with settlementOrders := entries } id f,
      counted⟩ := by
  have reserved : ∀ other,
      (OrderTracker.modifyOrder { r.tracker with settlementOrders := entries } id f).reservedTotal
        other = OrderTracker.reservedTotal { r.tracker with settlementOrders := entries } other := by
    intro other
    unfold OrderTracker.reservedTotal
    rw [OrderTracker.settlementOrders_modifyOrder]
  refine ⟨?_, ?_, ?_, hcounted, ?_, ?_⟩
  · intro other o ho
    rcases OrderTracker.lookup_modifyOrder_cases ho with ⟨rfl, old, hold, rfl⟩ | ⟨-, hold⟩
    · exact (hid old).trans (h.keyed other old hold)
    · exact h.keyed other o hold
  · dsimp only
    rw [OrderTracker.settlementOrders_modifyOrder]
    exact hentry
  · dsimp only
    rw [OrderTracker.failedSubmits_modifyOrder]
    exact h.submit
  · intro other o ho hagent
    have transfer : ∀ o, Conserved ⟨{ r.tracker with settlementOrders := entries }, counted⟩ other o →
        Conserved ⟨OrderTracker.modifyOrder { r.tracker with settlementOrders := entries } id f,
          counted⟩ other o := fun o conserved =>
      ⟨conserved.pending.trans (reserved other).symm, conserved.settled, conserved.capacity⟩
    rcases OrderTracker.lookup_modifyOrder_cases ho with ⟨rfl, old, hold, rfl⟩ | ⟨hne, hold⟩
    · have hagent' : old.placedBy = "agent" := (hplaced old).symm.trans hagent
      exact transfer _ (hsame old hold hagent' (h.conserved other old hold hagent'))
    · exact transfer _ (hother other o hne (h.conserved other o hold hagent))
  · intro other o ho hagent
    rcases OrderTracker.lookup_modifyOrder_cases ho with ⟨rfl, old, hold, rfl⟩ | ⟨-, hold⟩
    · rw [hquantity]
      exact h.inRange other old hold ((hplaced old).symm.trans hagent)
    · exact h.inRange other o hold hagent

theorem tryReservePending (h : r.Invariant) {pid : String}
    (hzero : ∀ e, r.tracker.settlementOrders.lookup pid = some e → e.reserved = false →
      e.orderId = 0 → ∀ o, r.tracker.orders.lookup 0 = some o →
      e.quantity ≤ o.quantity - o.settledQuantity - o.pendingQuantity) :
    Invariant { r with tracker := (r.tracker.tryReservePending pid).2 } := by
  unfold OrderTracker.tryReservePending
  cases hlookup : r.tracker.settlementOrders.lookup pid with
  | none => exact h
  | some e =>
    dsimp only
    cases hres : e.reserved with
    | true => exact h
    | false =>
      rw [if_neg Bool.false_ne_true]
      cases hcheck : r.tracker.checkReservation e with
      | error _ => exact h
      | ok _ =>
        have reserve := fun id => OrderTracker.reservedTotal_reserve id hlookup hres
        have bounds := h.entry pid e hlookup
        refine h.settle_step (h.entry_insert bounds) h.counted (fun _ => rfl) (fun _ => rfl)
          (fun _ => rfl) ?_ ?_
        · intro other o hne conserved
          refine ⟨conserved.pending.trans ?_, conserved.settled, conserved.capacity⟩
          have total := reserve other
          rw [if_neg (Ne.symm hne), add_zero] at total
          exact total.symm
        · intro o ho hagent conserved
          have room : e.quantity ≤ o.quantity - o.settledQuantity - o.pendingQuantity := by
            by_cases hid : e.orderId = 0
            · exact hzero e hlookup hres hid o (hid ▸ ho)
            · exact OrderTracker.remaining_of_checkReservation hcheck hid ho
          obtain ⟨hsettled, hpending, -, -, hmax⟩ := h.amounts ho hagent
          have fits : o.settledQuantity + (o.pendingQuantity + e.quantity) ≤ o.quantity := by
            have := add_le_add_right room (o.settledQuantity + o.pendingQuantity)
            rw [sub_sub, add_sub_cancel, add_assoc] at this
            exact this
          have sum : Amount.saturatingAdd o.pendingQuantity e.quantity
              = o.pendingQuantity + e.quantity :=
            Amount.saturatingAdd_eq (add_nonneg hpending bounds.1)
              (((le_add_of_nonneg_left hsettled).trans fits).trans hmax)
          refine ⟨?_, conserved.settled, ?_⟩
          · have total := reserve e.orderId
            rw [if_pos rfl] at total
            dsimp only
            rw [sum, conserved.pending]
            exact total.symm
          · dsimp only
            rw [sum]
            exact fits

/-- What is left reserved once an entry is dropped. -/
theorem reserved_drop (h : r.Invariant) {pid : String} {e : SettlementOrderEntry D}
    (hlookup : r.tracker.settlementOrders.lookup pid = some e) (hres : e.reserved = true)
    (id : Nat) :
    Pool.total (OrderTracker.reservedOn id) (AList.erase pid r.tracker.settlementOrders)
        = r.tracker.reservedTotal id - (if e.orderId = id then e.quantity else 0) ∧
      0 ≤ r.tracker.reservedTotal id - if e.orderId = id then e.quantity else 0 := by
  have drop := OrderTracker.reservedTotal_erase id hlookup
  have amount : OrderTracker.reservedOn id pid e = if e.orderId = id then e.quantity else 0 := by
    unfold OrderTracker.reservedOn
    simp only [hres, true_and]
  rw [amount] at drop
  refine ⟨drop, ?_⟩
  rw [← drop]
  refine Pool.total_nonneg fun pid' e' he' => ?_
  unfold OrderTracker.reservedOn
  split
  · exact (h.entry_erase pid' e' he').1
  · exact le_rfl

/-- Releasing a reserved entry takes its quantity off what is pending. -/
theorem releasePending_eq (h : r.Invariant) {pid : String} {e : SettlementOrderEntry D}
    {o : TrackedOrder D} (hlookup : r.tracker.settlementOrders.lookup pid = some e)
    (hres : e.reserved = true) (ho : r.tracker.orders.lookup e.orderId = some o)
    (hagent : o.placedBy = "agent") :
    OrderTracker.releasePending o e.quantity = o.pendingQuantity - e.quantity ∧
      0 ≤ o.pendingQuantity - e.quantity := by
  obtain ⟨-, left⟩ := h.reserved_drop hlookup hres e.orderId
  rw [if_pos rfl, ← (h.conserved _ o ho hagent).pending] at left
  obtain ⟨-, hpending, -, hquantity, hmax⟩ := h.amounts ho hagent
  refine ⟨?_, left⟩
  unfold OrderTracker.releasePending
  rw [Amount.saturatingSub_eq left]
  · exact max_eq_left left
  · exact (sub_le_self _ (h.entry pid e hlookup).1).trans (hquantity.trans hmax)

theorem markFailed (h : r.Invariant) (pid : String) :
    Invariant { r with tracker := r.tracker.markFailed pid } := by
  unfold OrderTracker.markFailed
  cases hlookup : r.tracker.settlementOrders.lookup pid with
  | none => exact h
  | some e =>
    dsimp only
    cases hres : e.reserved with
    | false =>
      rw [if_pos rfl]
      refine h.records_step h.entry_erase fun id => ?_
      rw [OrderTracker.reservedTotal_erase _ hlookup, OrderTracker.reservedOn_of_unreserved hres,
        sub_zero]
    | true =>
      rw [if_neg (by decide)]
      have drop := h.reserved_drop hlookup hres
      refine h.settle_step h.entry_erase h.counted (fun _ => rfl) (fun _ => rfl) (fun _ => rfl) ?_ ?_
      · intro other o hne conserved
        refine ⟨conserved.pending.trans ?_, conserved.settled, conserved.capacity⟩
        obtain ⟨total, -⟩ := drop other
        rw [if_neg (Ne.symm hne), sub_zero] at total
        exact total.symm
      · intro o ho hagent conserved
        obtain ⟨released, -⟩ := h.releasePending_eq hlookup hres ho hagent
        obtain ⟨total, -⟩ := drop e.orderId
        rw [if_pos rfl] at total
        refine ⟨?_, conserved.settled, ?_⟩
        · dsimp only
          rw [released, conserved.pending]
          exact total.symm
        · dsimp only
          rw [released]
          exact (add_le_add_right (sub_le_self _ (h.entry pid e hlookup).1) _).trans
            conserved.capacity

/-- A settlement counted for the first time adds its quantity to its order. -/
theorem countedTotal_insert {counted : Pool String (Nat × D)} {pid : String} (hnew : pid ∉ counted)
    (c : Nat × D) (id : Nat) :
    Pool.total (fun _ x => if x.1 = id then x.2 else 0) (AList.insert pid c counted)
      = (counted.total fun _ x => if x.1 = id then x.2 else 0) + if c.1 = id then c.2 else 0 := by
  rw [Pool.total_insert_new (AList.lookup_eq_none.mpr hnew), add_comm]

theorem markSettled (h : r.Invariant) {pid : String}
    (honce : ∀ e, r.tracker.settlementOrders.lookup pid = some e → e.reserved = true →
      pid ∉ r.counted) :
    Invariant ⟨r.tracker.markSettled pid, r.count pid⟩ := by
  unfold OrderTracker.markSettled count
  cases hlookup : r.tracker.settlementOrders.lookup pid with
  | none => exact h
  | some e =>
    dsimp only
    cases hres : e.reserved with
    | false =>
      rw [if_pos rfl, if_neg fun hcount => Bool.false_ne_true hcount.1]
      refine h.records_step h.entry_erase fun id => ?_
      rw [OrderTracker.reservedTotal_erase _ hlookup, OrderTracker.reservedOn_of_unreserved hres,
        sub_zero]
    | true =>
      have hnew := honce e hlookup hres
      rw [if_neg (by decide), if_pos ⟨rfl, hnew⟩]
      have bounds := h.entry pid e hlookup
      have drop := h.reserved_drop hlookup hres
      refine h.settle_step h.entry_erase ?_ (fun _ => rfl) (fun _ => rfl) (fun _ => rfl) ?_ ?_
      · intro pid' c hc
        by_cases hpid : pid' = pid
        · subst hpid
          rw [AList.lookup_insert] at hc
          obtain rfl := Option.some.inj hc
          exact bounds.1
        · rw [AList.lookup_insert_ne hpid] at hc
          exact h.counted pid' c hc
      · intro other o hne conserved
        refine ⟨conserved.pending.trans ?_, conserved.settled.trans ?_, conserved.capacity⟩
        · obtain ⟨total, -⟩ := drop other
          rw [if_neg (Ne.symm hne), sub_zero] at total
          exact total.symm
        · unfold countedTotal
          dsimp only
          rw [countedTotal_insert hnew, if_neg (Ne.symm hne), add_zero]
      · intro o ho hagent conserved
        obtain ⟨released, left⟩ := h.releasePending_eq hlookup hres ho hagent
        obtain ⟨hsettled, -, -, -, hmax⟩ := h.amounts ho hagent
        have fits : o.settledQuantity + e.quantity + (o.pendingQuantity - e.quantity)
            ≤ o.quantity := by
          rw [add_assoc, add_sub_cancel]
          exact conserved.capacity
        have sum : Amount.saturatingAdd o.settledQuantity e.quantity
            = o.settledQuantity + e.quantity :=
          Amount.saturatingAdd_eq (add_nonneg hsettled bounds.1)
            (((le_add_of_nonneg_right left).trans fits).trans hmax)
        obtain ⟨total, -⟩ := drop e.orderId
        rw [if_pos rfl] at total
        refine ⟨?_, ?_, ?_⟩
        · dsimp only
          rw [released, conserved.pending]
          exact total.symm
        · unfold countedTotal
          dsimp only
          rw [sum, countedTotal_insert hnew, if_pos rfl, conserved.settled]
          rfl
        · dsimp only
          rw [sum, released]
          exact fits

/-! ### Restart -/

variable [SignatureCrates]

omit [SignatureCrates] in
theorem abs_quantity_le (h : r.Invariant) {pid : String} {e : SettlementOrderEntry D}
    (he : r.tracker.settlementOrders.lookup pid = some e) : |e.quantity| ≤ Amount.maxValue :=
  Amount.abs_le_of_between (h.entry pid e he).1 le_rfl (h.entry pid e he).2

theorem restart (h : r.Invariant) (startTimeMs : Nat) (key : Except String (List UInt8)) :
    Invariant { r with tracker := restarted r.tracker startTimeMs key } := by
  have orders : ∀ id, (restarted r.tracker startTimeMs key).orders.lookup id
      = (r.tracker.orders.lookup id).map fun o =>
        OrderTracker.restoreOrder (OrderTracker.saveOrder o) := by
    intro id
    have saved : (r.tracker.orders.values.map OrderTracker.saveOrder).map
          (fun s => (s.orderId, OrderTracker.restoreOrder s))
        = r.tracker.orders.toPairs.map fun e =>
          (e.1, (OrderTracker.restoreOrder (OrderTracker.saveOrder e.2) : TrackedOrder D)) := by
      unfold Pool.values Pool.toPairs
      rw [List.map_map, List.map_map, List.map_map]
      refine List.map_congr_left ?_
      rintro ⟨id', o⟩ hmem
      have hid : o.orderId = id' := h.keyed id' o (AList.mem_lookup_iff.mpr hmem)
      exact congrArg (·, _) hid
    unfold restarted OrderTracker.importState OrderTracker.exportState
    dsimp only
    rw [saved]
    exact Pool.lookup_insertAll_toPairs (p := r.tracker.orders)
      (f := fun _ o => OrderTracker.restoreOrder (OrderTracker.saveOrder o))
  have entries : ∀ pid, (restarted r.tracker startTimeMs key).settlementOrders.lookup pid
      = r.tracker.settlementOrders.lookup pid := by
    intro pid
    have printed : (restarted r.tracker startTimeMs key).settlementOrders.lookup pid
        = (r.tracker.settlementOrders.lookup pid).map fun e =>
          { e with quantity := Amount.parseOrZero (Amount.print e.quantity) } := by
      unfold restarted OrderTracker.importState OrderTracker.exportState
      dsimp only
      rw [List.map_map]
      exact Pool.lookup_insertAll_toPairs (p := r.tracker.settlementOrders)
        (f := fun _ e =>
          ({ e with quantity := Amount.parseOrZero (Amount.print e.quantity) } :
            SettlementOrderEntry D))
    rw [printed]
    cases hlookup : r.tracker.settlementOrders.lookup pid with
    | none => rfl
    | some e =>
      rw [Option.map_some, Amount.parseOrZero_print (h.abs_quantity_le hlookup)]
  refine h.frame entries (fun _ hs => nomatch hs) ?_
  intro id o' ho'
  rw [orders id, Option.map_eq_some_iff] at ho'
  obtain ⟨o, ho, rfl⟩ := ho'
  by_cases hagent : o.placedBy = "agent"
  · obtain ⟨hsettled, hpending, hsettledLe, hpendingLe, hmax⟩ := h.amounts ho hagent
    refine .inl ⟨o, ho, rfl, rfl, ?_, ?_, ?_⟩
    · exact Amount.parseOrZero_print
        (Amount.abs_le_of_between (hsettled.trans hsettledLe) le_rfl hmax)
    · exact Amount.parseOrZero_print (Amount.abs_le_of_between hsettled hsettledLe hmax)
    · exact Amount.parseOrZero_print (Amount.abs_le_of_between hpending hpendingLe hmax)
  · exact .inr ⟨h.keyed id o ho, (absurd · hagent), (absurd · hagent), (absurd · hagent),
      (absurd · hagent), (absurd · hagent)⟩

/-- Every careful event keeps the invariant. -/
theorem apply (h : r.Invariant) (e : TrackerEvent D) (hallowed : r.Allowed e)
    (hcareful : r.Careful e) : (r.apply e).Invariant := by
  cases e with
  | trackOrder => exact h.trackOrder hallowed.2 hcareful
  | noteSubmitFailed => exact h.noteSubmitFailed hallowed
  | adoptFailedSubmit => exact h.adoptFailedSubmit hcareful
  | verifyAndImportOrder order proposal => exact h.verifyAndImportOrder order proposal
  | recordSettlementOrder => exact h.recordSettlementOrder hallowed.1 hallowed.2
  | tryReservePending => exact h.tryReservePending hcareful
  | markSettled => exact h.markSettled hcareful
  | markFailed pid => exact h.markFailed pid
  | cancelOrder id => exact h.cancelOrder id
  | cancelAll => exact h.cancelAll
  | restart startTimeMs key => exact h.restart startTimeMs key

end Invariant

theorem invariant_start (startTimeMs : Nat) (key : Except String (List UInt8)) :
    (start startTimeMs key : TrackerRun D).Invariant := by
  refine ⟨?_, ?_, ?_, ?_, ?_, ?_⟩
  · intro id o ho
    cases ho
  · intro pid e he
    cases he
  · intro s hs
    cases hs
  · intro pid c hc
    cases hc
  · intro id o ho
    cases ho
  · intro id o ho
    cases ho

/-! ## Capacity is conserved -/

/-- The runs of a tracker with the given start time and key, all steps careful. -/
abbrev CarefulRun [SignatureCrates] (startTimeMs : Nat) (key : Except String (List UInt8)) :
    TrackerRun D → Prop :=
  Reachable (fun r e => Allowed r e ∧ Careful r e) apply (start startTimeMs key)

/-- In every careful run the account of every order of the agent is conserved. -/
theorem capacity_conserved [SignatureCrates] {startTimeMs : Nat}
    {key : Except String (List UInt8)} {r : TrackerRun D} (run : CarefulRun startTimeMs key r) :
    ∀ id o, r.tracker.orders.lookup id = some o → o.placedBy = "agent" → r.Conserved id o :=
  (run.invariant Invariant (invariant_start startTimeMs key)
    fun _ e h ⟨hallowed, hcareful⟩ => h.apply e hallowed hcareful).conserved

/-- Bytes as characters, and no signature that verifies. -/
abbrev unsignedCrates : SignatureCrates where
  base64Encode bytes := String.ofList (bytes.map fun b => Char.ofNat b.toNat)
  base64Decode s := some (s.toList.map fun c => c.toNat.toUInt8)
  ed25519Verify _ _ _ := false

section Runs

local instance : SignatureCrates := unsignedCrates

/-- Proposal `p` settles 4 on order 7 of 10. -/
def settledRun : TrackerRun Int :=
  [.trackOrder 7 "m" 1 "1" "10" 5 "" [], .recordSettlementOrder "p" 7 4,
    .tryReservePending "p", .markSettled "p"].foldl apply (start 0 (.ok []))

theorem capacity_conserved_settled :
    ∃ o, settledRun.tracker.orders.lookup 7 = some o ∧ o.settledQuantity = 4 ∧
      settledRun.Conserved 7 o := by
  have tracked : CarefulRun 0 (.ok [])
      ((start 0 (.ok []) : TrackerRun Int).apply (.trackOrder 7 "m" 1 "1" "10" 5 "" [])) :=
    .step .start ⟨⟨by decide, by decide +kernel⟩, rfl, rfl⟩
  have recorded := tracked.step (e := TrackerEvent.recordSettlementOrder "p" 7 4)
    ⟨⟨by decide, by decide⟩, trivial⟩
  have reserved := recorded.step (e := TrackerEvent.tryReservePending "p") ⟨trivial, by
    intro e he _ hzero
    have found : some (⟨7, 4, false⟩ : SettlementOrderEntry Int) = some e := he
    obtain rfl := Option.some.inj found
    cases hzero⟩
  have settled : CarefulRun 0 (.ok []) settledRun :=
    reserved.step (e := TrackerEvent.markSettled "p") ⟨trivial, fun _ _ _ => by decide⟩
  have quantity : (settledRun.tracker.orders.lookup 7).map (·.settledQuantity) = some 4 := rfl
  have placed : (settledRun.tracker.orders.lookup 7).map (·.placedBy) = some "agent" := rfl
  obtain ⟨o, ho, hsettled⟩ := Option.map_eq_some_iff.mp quantity
  rw [ho] at placed
  exact ⟨o, ho, hsettled, capacity_conserved settled 7 o ho (Option.some.inj placed)⟩

/-- Proposal `p` reserves 100 on order 7 before the order, of 10, is tracked. -/
def reservedEarly : TrackerRun Int :=
  [.recordSettlementOrder "p" 7 100, .tryReservePending "p",
    .trackOrder 7 "m" 1 "1" "10" 5 "" []].foldl apply (start 0 (.ok []))

theorem reserved_early_not_conserved :
    Reachable Allowed apply (start 0 (.ok [])) reservedEarly ∧
      ∃ o, reservedEarly.tracker.orders.lookup 7 = some o ∧ o.placedBy = "agent" ∧
        reservedEarly.tracker.reservedTotal 7 = 100 ∧ o.pendingQuantity = 0 ∧
        ¬ reservedEarly.Conserved 7 o := by
  have recorded : Reachable Allowed apply (start 0 (.ok []))
      ((start 0 (.ok []) : TrackerRun Int).apply (.recordSettlementOrder "p" 7 100)) :=
    .step .start ⟨by decide, by decide⟩
  have reserved := recorded.step (e := TrackerEvent.tryReservePending "p") trivial
  have total : reservedEarly.tracker.reservedTotal 7 = 100 := rfl
  have quantity : (reservedEarly.tracker.orders.lookup 7).map (·.pendingQuantity) = some 0 := rfl
  have placed : (reservedEarly.tracker.orders.lookup 7).map (·.placedBy) = some "agent" := rfl
  obtain ⟨o, ho, hpending⟩ := Option.map_eq_some_iff.mp quantity
  rw [ho] at placed
  refine ⟨?_, o, ho, Option.some.inj placed, total, hpending, ?_⟩
  · exact reserved.step (e := TrackerEvent.trackOrder 7 "m" 1 "1" "10" 5 "" [])
      ⟨by decide, by decide +kernel⟩
  · intro conserved
    have hundred := conserved.pending
    rw [hpending, total] at hundred
    exact absurd hundred (by decide)

end Runs

end TrackerRun

end BookAgent.AgentLogic
