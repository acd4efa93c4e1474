import BookAgent.Lib.Amount
import BookAgent.Lib.PoolTotal
import BookAgent.AgentLogic.Proto

/-!
# The order tracker

`agent-logic/src/order_tracker.rs`: the agent's orders, what was settled and what is
pending on each, and the adopted settlements that consume them. Adopting a
settlement records it; its quantity is reserved on the order later, and the record
is dropped when the settlement ends.
-/

namespace BookAgent.AgentLogic

open BookAgent.Lib

/-- `std::time::Instant`, in nanoseconds since some origin. -/
abbrev Instant := Nat

def seconds (n : Nat) : Instant := n * 1000000000

/-- Base64 and Ed25519. -/
class SignatureCrates where
  base64Encode : List UInt8 → String
  base64Decode : String → Option (List UInt8)
  /-- Verification of a 64-byte signature under the public key of a private key. -/
  ed25519Verify : List UInt8 → List UInt8 → List UInt8 → Bool

def verifyOrderSignature [SignatureCrates] (privateKey signedData : List UInt8)
    (signatureB64 : String) : Bool :=
  match SignatureCrates.base64Decode signatureB64 with
  | none => false
  | some bytes =>
    decide (bytes.length = 64) && SignatureCrates.ed25519Verify privateKey signedData bytes

/-! ## Orders and records -/

structure TrackedOrder (D : Type) where
  orderId : Nat
  marketId : String
  orderType : Int
  price : D
  quantity : D
  settledQuantity : D
  pendingQuantity : D
  nonce : Nat
  signature : String
  signedData : List UInt8
  /-- "agent" or "user". -/
  placedBy : String
  isActive : Bool

/-- An adopted settlement: the order it maps to, how much it will consume, and
whether that capacity has been reserved. -/
structure SettlementOrderEntry (D : Type) where
  orderId : Nat
  quantity : D
  reserved : Bool

/-- Signed payload of a submit that returned an error; the server may still have
booked it. -/
structure FailedSubmit where
  marketId : String
  orderType : Int
  price : String
  quantity : String
  nonce : Nat
  signature : String
  signedData : List UInt8

/-- The order of the server was booked by this submit. -/
def FailedSubmit.booked (s : FailedSubmit) (order : Order) : Bool :=
  decide (s.nonce = order.nonce) && decide (s.marketId = order.marketId) &&
    decide (order.signature = some s.signature) && decide (s.signedData = order.signedData)

structure OrderTracker (D : Type) where
  startTimeMs : Nat
  /-- What opening the sealed key yields. -/
  privateKey : Except String (List UInt8)
  orders : Pool Nat (TrackedOrder D)
  /-- By proposal id. -/
  settlementOrders : Pool String (SettlementOrderEntry D)
  /-- Placements submitted but not yet tracked, per market. -/
  placing : Pool String Nat
  submitFailedAt : Pool String Instant
  /-- Oldest first. -/
  failedSubmits : List (Instant × FailedSubmit)

/-- Why a settlement is not accepted. -/
inductive Refusal (D : Type)
  | noOrderMatch
  | keyUnavailable (orderId : Nat) (error : String)
  | invalidSignature (orderId : Nat)
  | staleNonce (orderId nonce startTimeMs : Nat)
  | noSignature (orderId : Nat)
  | notSignedByOurKey (orderId : Nat)
  | staleOrder (orderId nonce startTimeMs : Nat)
  | negativeQuantity (orderId : Nat)
  | invalidRequest (orderId : Nat) (requested : String)
  | overflow (orderId : Nat)
  | insufficientCapacity (orderId : Nat) (remaining requested : D)

/-- The text of a refusal; `debug` is `{:?}` of a string. -/
def Refusal.text {D : Type} [Amount D] (debug : String → String) : Refusal D → String
  | .noOrderMatch => "No order_match data in proposal"
  | .keyUnavailable id e => "Order " ++ toString id ++ ": signing key unavailable: " ++ e
  | .invalidSignature id => "Order " ++ toString id ++ " has invalid signature"
  | .staleNonce id nonce start =>
    "Order " ++ toString id ++ " nonce " ++ toString nonce ++ " <= start_time " ++ toString start
  | .noSignature id => "Order " ++ toString id ++ " has no signature"
  | .notSignedByOurKey id =>
    "Order " ++ toString id ++ " signature verification failed (not signed by our key)"
  | .staleOrder id nonce start =>
    "Order " ++ toString id ++ " nonce " ++ toString nonce ++ " <= start_time " ++
      toString start ++ " (stale order)"
  | .negativeQuantity id => "Order " ++ toString id ++ " has a negative quantity"
  | .invalidRequest id requested =>
    "Order " ++ toString id ++ " invalid requested quantity " ++ debug requested
  | .overflow id => "Order " ++ toString id ++ " capacity arithmetic overflow"
  | .insufficientCapacity id remaining requested =>
    "Order " ++ toString id ++ " insufficient capacity: remaining=" ++ Amount.print remaining ++
      ", requested=" ++ Amount.print requested

inductive VerifyResult (D : Type)
  | accepted (orderId : Nat)
  | rejected (reason : Refusal D)
  | needServerLookup (orderId : Nat)
  | placementInFlight (orderId : Nat)

/-- Why capacity could not be reserved. -/
inductive ReserveError (D : Type)
  | notAdopted
  | overflow (orderId : Nat)
  | insufficientCapacity (orderId : Nat) (remaining requested : D)

def ReserveError.text {D : Type} [Amount D] : ReserveError D → String
  | .notAdopted => "settlement not adopted (no local settlement order record)"
  | .overflow id => "order " ++ toString id ++ " capacity arithmetic overflow at reservation"
  | .insufficientCapacity id remaining requested =>
    "order " ++ toString id ++ " insufficient capacity at reservation: remaining=" ++
      Amount.print remaining ++ ", requested=" ++ Amount.print requested

/-- How long a submit that failed at the transport keeps its market's untracked
matches held. -/
def submitFailedHold : Instant := seconds 60

/-- How long a failed submit stays adoptable. -/
def failedSubmitAdopt : Instant := seconds 3600

/-- Most failed submits kept for adoption. -/
def failedSubmitMax : Nat := 256

variable {D : Type} [Amount D]

/-! ## Capacity -/

/-- Quantity still free on an order; none when the amounts are out of range. -/
def remainingCapacity (order : TrackedOrder D) : Option D :=
  (Amount.checkedSub order.quantity order.settledQuantity).bind fun rest =>
    Amount.checkedSub rest order.pendingQuantity

/-- Accepted when `requested` is a positive quantity within the remaining capacity. -/
def checkCapacity (order : TrackedOrder D) (orderId : Nat) (requested : String) : VerifyResult D :=
  let baseQuantity : D := Amount.parseOrZero requested
  if baseQuantity ≤ 0 then .rejected (.invalidRequest orderId requested)
  else match remainingCapacity order with
    | none => .rejected (.overflow orderId)
    | some remaining =>
      if remaining < baseQuantity then
        .rejected (.insufficientCapacity orderId remaining baseQuantity)
      else .accepted orderId

namespace OrderTracker

def new (startTimeMs : Nat) (privateKey : Except String (List UInt8)) : OrderTracker D where
  startTimeMs := startTimeMs
  privateKey := privateKey
  orders := ∅
  settlementOrders := ∅
  placing := ∅
  submitFailedAt := ∅
  failedSubmits := []

/-! ## Placements and failed submits -/

def beginPlacement (t : OrderTracker D) (marketId : String) : OrderTracker D :=
  { t with placing := t.placing.insert marketId ((t.placing.lookup marketId).getD 0 + 1) }

/-- Dropping the guard of a placement. -/
def dropPlacement (t : OrderTracker D) (marketId : String) : OrderTracker D :=
  match t.placing.lookup marketId with
  | none => t
  | some count =>
    if count - 1 = 0 then { t with placing := t.placing.erase marketId }
    else { t with placing := t.placing.insert marketId (count - 1) }

def placementInFlight (t : OrderTracker D) (marketId : String) : Bool :=
  decide (0 < (t.placing.lookup marketId).getD 0)

def pruneFailedSubmits (t : OrderTracker D) (now : Instant) : OrderTracker D :=
  { t with failedSubmits := t.failedSubmits.filter fun s => now - s.1 < failedSubmitAdopt }

/-- Keep the payload of a submit that returned an error at `now`. -/
def noteSubmitFailed (t : OrderTracker D) (submit : FailedSubmit) (now : Instant) : OrderTracker D :=
  let fresh := t.submitFailedAt.retain fun _ at_ => now - at_ < submitFailedHold
  let t := { t with submitFailedAt := fresh.insert submit.marketId now }
  let t := t.pruneFailedSubmits now
  -- the oldest go first
  let kept := t.failedSubmits.drop (t.failedSubmits.length - (failedSubmitMax - 1))
  { t with failedSubmits := kept ++ [(now, submit)] }

def submitFailedRecently (t : OrderTracker D) (marketId : String) (now : Instant) : Bool :=
  match t.submitFailedAt.lookup marketId with
  | none => false
  | some at_ => now - at_ < submitFailedHold

/-! ## Tracking -/

/-- Track an order placed by the agent. -/
def trackOrder (t : OrderTracker D) (orderId : Nat) (marketId : String) (orderType : Int)
    (price quantity : String) (nonce : Nat) (signature : String) (signedData : List UInt8) :
    OrderTracker D :=
  let order : TrackedOrder D :=
    { orderId, marketId, orderType
      price := Amount.parseOrZero price
      quantity := Amount.parseOrZero quantity
      settledQuantity := 0
      pendingQuantity := 0
      nonce, signature, signedData
      placedBy := "agent"
      isActive := true }
  { t with orders := t.orders.insert orderId order }

/-- Track a server order booked by one of our failed submits, like any agent order.
True if `order` matched a kept submit. -/
def adoptFailedSubmit (t : OrderTracker D) (order : Order) (now : Instant) :
    Bool × OrderTracker D :=
  let t := t.pruneFailedSubmits now
  if order.orderId ∈ t.orders then (false, t)
  else match t.failedSubmits.findIdx? fun s => s.2.booked order with
    | none => (false, t)
    | some pos => match t.failedSubmits[pos]? with
      | none => (false, t)
      | some (_, s) =>
        let t := { t with failedSubmits := t.failedSubmits.eraseIdx pos }
        (true, t.trackOrder order.orderId s.marketId s.orderType s.price s.quantity s.nonce
          s.signature s.signedData)

/-- Track a verified user order. -/
def importOrderFromServer (t : OrderTracker D) (order : Order) : OrderTracker D :=
  if order.orderId ∈ t.orders then t
  else
    let tracked : TrackedOrder D :=
      { orderId := order.orderId
        marketId := order.marketId
        orderType := order.orderType
        price := Amount.parseOrZero order.price
        quantity := Amount.parseOrZero order.quantity
        settledQuantity := Amount.parseOrZero order.filledQuantity
        pendingQuantity := Amount.parseOrZero order.pendingQuantity
        nonce := order.nonce
        signature := order.signature.getD ""
        signedData := order.signedData
        placedBy := "user"
        isActive := true }
    { t with orders := t.orders.insert order.orderId tracked }

/-! ## Verification -/

section Verify

variable [SignatureCrates]

def verifyTrackedOrder (t : OrderTracker D) (tracked : TrackedOrder D)
    (proposal : SettlementProposal) (orderId : Nat) : VerifyResult D :=
  -- a cancelled order is accepted: the match happened before the cancellation
  match t.privateKey with
  | .error e => .rejected (.keyUnavailable orderId e)
  | .ok key =>
    if verifyOrderSignature key tracked.signedData tracked.signature = false then
      .rejected (.invalidSignature orderId)
    else if tracked.nonce ≤ t.startTimeMs then
      .rejected (.staleNonce orderId tracked.nonce t.startTimeMs)
    else checkCapacity tracked orderId proposal.baseQuantity

/-- Verify a proposal against the tracked orders. -/
def verifySettlement (t : OrderTracker D) (proposal : SettlementProposal) (ourParty : String)
    (now : Instant) : VerifyResult D :=
  match proposal.orderMatch with
  | none => .rejected .noOrderMatch
  | some om =>
    let orderId := if proposal.buyer = ourParty then om.bidOrderId else om.offerOrderId
    match t.orders.lookup orderId with
    | some tracked => t.verifyTrackedOrder tracked proposal orderId
    | none =>
      -- a fresh agent order can match before it is tracked, or after a failed submit
      if t.placementInFlight proposal.marketId || t.submitFailedRecently proposal.marketId now then
        .placementInFlight orderId
      else .needServerLookup orderId

/-- A negative amount in an order of the server. -/
def hasNegativeAmount (D : Type) [Amount D] (order : Order) : Bool :=
  [order.quantity, order.filledQuantity, order.pendingQuantity].any fun raw =>
    match (Amount.fromStr raw : Option D) with
    | none => false
    | some v => decide (v < 0)

/-- Verify a server-fetched order and import it if valid. -/
def verifyAndImportOrder (t : OrderTracker D) (order : Order) (proposal : SettlementProposal) :
    VerifyResult D × OrderTracker D :=
  let orderId := order.orderId
  match order.signature.filter (· ≠ "") with
  | none => (.rejected (.noSignature orderId), t)
  | some signature => match t.privateKey with
    | .error e => (.rejected (.keyUnavailable orderId e), t)
    | .ok key =>
      if verifyOrderSignature key order.signedData signature = false then
        (.rejected (.notSignedByOurKey orderId), t)
      else if order.nonce ≤ t.startTimeMs then
        (.rejected (.staleOrder orderId order.nonce t.startTimeMs), t)
      else if hasNegativeAmount D order then (.rejected (.negativeQuantity orderId), t)
      else
        let t := t.importOrderFromServer order
        match t.orders.lookup orderId with
        | some tracked => (checkCapacity tracked orderId proposal.baseQuantity, t)
        | none => (.accepted orderId, t)

end Verify

/-! ## Settlements -/

/-- Record the adoption of a settlement; an existing record is left untouched. -/
def recordSettlementOrder (t : OrderTracker D) (proposalId : String) (orderId : Nat)
    (quantity : D) : OrderTracker D :=
  if proposalId ∈ t.settlementOrders then t
  else { t with settlementOrders :=
      t.settlementOrders.insert proposalId ⟨orderId, quantity, false⟩ }

/-- The capacity an unreserved entry may take, checked when its order is tracked. -/
def checkReservation (t : OrderTracker D) (entry : SettlementOrderEntry D) :
    Except (ReserveError D) Unit :=
  if entry.orderId = 0 then .ok ()
  else match t.orders.lookup entry.orderId with
    | none => .ok ()
    | some order => match remainingCapacity order with
      | none => .error (.overflow entry.orderId)
      | some remaining =>
        if remaining < entry.quantity then
          .error (.insufficientCapacity entry.orderId remaining entry.quantity)
        else .ok ()

/-- Change an order if it is tracked. -/
def modifyOrder (t : OrderTracker D) (orderId : Nat) (f : TrackedOrder D → TrackedOrder D) :
    OrderTracker D :=
  match t.orders.lookup orderId with
  | none => t
  | some order => { t with orders := t.orders.insert orderId (f order) }

section ModifyOrder

variable {t : OrderTracker D} {id other : Nat} {f : TrackedOrder D → TrackedOrder D}

omit [Amount D] in
theorem lookup_modifyOrder :
    (t.modifyOrder id f).orders.lookup other
      = if other = id then (t.orders.lookup id).map f else t.orders.lookup other := by
  unfold modifyOrder
  cases hid : t.orders.lookup id with
  | none =>
    by_cases h : other = id
    · rw [if_pos h, h]
      exact hid
    · rw [if_neg h]
  | some order =>
    by_cases h : other = id
    · rw [if_pos h, h, AList.lookup_insert]
      rfl
    · rw [if_neg h, AList.lookup_insert_ne h]

omit [Amount D] in
theorem settlementOrders_modifyOrder :
    (t.modifyOrder id f).settlementOrders = t.settlementOrders := by
  unfold modifyOrder
  split <;> rfl

omit [Amount D] in
theorem failedSubmits_modifyOrder :
    (t.modifyOrder id f).failedSubmits = t.failedSubmits := by
  unfold modifyOrder
  split <;> rfl

omit [Amount D] in
/-- An order found after a modification is an order found before, modified or not. -/
theorem lookup_modifyOrder_cases {o : TrackedOrder D}
    (h : (t.modifyOrder id f).orders.lookup other = some o) :
    (other = id ∧ ∃ old, t.orders.lookup id = some old ∧ o = f old) ∨
      (other ≠ id ∧ t.orders.lookup other = some o) := by
  rw [lookup_modifyOrder] at h
  by_cases hid : other = id
  · rw [if_pos hid, Option.map_eq_some_iff] at h
    obtain ⟨old, hold, rfl⟩ := h
    exact .inl ⟨hid, old, hold, rfl⟩
  · rw [if_neg hid] at h
    exact .inr ⟨hid, h⟩

end ModifyOrder

/-- Latch the entry and add its quantity to what is pending on its order. -/
def reserveEntry (t : OrderTracker D) (proposalId : String) (entry : SettlementOrderEntry D) :
    OrderTracker D :=
  let t := { t with settlementOrders :=
    t.settlementOrders.insert proposalId { entry with reserved := true } }
  t.modifyOrder entry.orderId fun order =>
    { order with pendingQuantity := Amount.saturatingAdd order.pendingQuantity entry.quantity }

/-- Reserve the capacity of an adopted settlement; `true` if newly reserved. -/
def tryReservePending (t : OrderTracker D) (proposalId : String) :
    Except (ReserveError D) Bool × OrderTracker D :=
  match t.settlementOrders.lookup proposalId with
  | none => (.error .notAdopted, t)
  | some entry =>
    if entry.reserved then (.ok false, t)
    else match t.checkReservation entry with
      | .error e => (.error e, t)
      | .ok () => (.ok true, t.reserveEntry proposalId entry)

/-- `pending − quantity`, not below zero. -/
def releasePending (order : TrackedOrder D) (quantity : D) : D :=
  max (Amount.saturatingSub order.pendingQuantity quantity) 0

/-- The settlement completed: its quantity moves from pending to settled. -/
def markSettled (t : OrderTracker D) (proposalId : String) : OrderTracker D :=
  match t.settlementOrders.lookup proposalId with
  | none => t
  | some entry =>
    let t := { t with settlementOrders := t.settlementOrders.erase proposalId }
    if entry.reserved = false then t
    else t.modifyOrder entry.orderId fun order =>
      { order with
        pendingQuantity := releasePending order entry.quantity
        settledQuantity := Amount.saturatingAdd order.settledQuantity entry.quantity }

/-- The settlement failed: what it had reserved is released. -/
def markFailed (t : OrderTracker D) (proposalId : String) : OrderTracker D :=
  match t.settlementOrders.lookup proposalId with
  | none => t
  | some entry =>
    let t := { t with settlementOrders := t.settlementOrders.erase proposalId }
    if entry.reserved = false then t
    else t.modifyOrder entry.orderId fun order =>
      { order with pendingQuantity := releasePending order entry.quantity }

def hasSettlementOrder (t : OrderTracker D) (proposalId : String) : Bool :=
  decide (proposalId ∈ t.settlementOrders)

/-! ## Cancelling -/

def cancelOrder (t : OrderTracker D) (orderId : Nat) : OrderTracker D :=
  t.modifyOrder orderId fun order => { order with isActive := false }

def cancelAll (t : OrderTracker D) : OrderTracker D :=
  { t with orders := t.orders.mapVal fun _ order => { order with isActive := false } }

end OrderTracker

/-! ## Saved state -/

structure SavedTrackedOrder where
  orderId : Nat
  marketId : String
  orderType : Int
  price : String
  quantity : String
  settledQuantity : String
  pendingQuantity : String
  nonce : Nat
  signature : String
  /-- Base64. -/
  signedData : String
  placedBy : String
  isActive : Bool

structure SavedSettlementOrder where
  proposalId : String
  orderId : Nat
  quantity : String
  reserved : Bool

namespace OrderTracker

variable [SignatureCrates]

def saveOrder (o : TrackedOrder D) : SavedTrackedOrder where
  orderId := o.orderId
  marketId := o.marketId
  orderType := o.orderType
  price := Amount.print o.price
  quantity := Amount.print o.quantity
  settledQuantity := Amount.print o.settledQuantity
  pendingQuantity := Amount.print o.pendingQuantity
  nonce := o.nonce
  signature := o.signature
  signedData := SignatureCrates.base64Encode o.signedData
  placedBy := o.placedBy
  isActive := o.isActive

def restoreOrder (s : SavedTrackedOrder) : TrackedOrder D where
  orderId := s.orderId
  marketId := s.marketId
  orderType := s.orderType
  price := Amount.parseOrZero s.price
  quantity := Amount.parseOrZero s.quantity
  settledQuantity := Amount.parseOrZero s.settledQuantity
  pendingQuantity := Amount.parseOrZero s.pendingQuantity
  nonce := s.nonce
  signature := s.signature
  signedData := (SignatureCrates.base64Decode s.signedData).getD []
  placedBy := s.placedBy
  isActive := s.isActive

def exportState (t : OrderTracker D) : Nat × List SavedTrackedOrder × List SavedSettlementOrder :=
  (t.startTimeMs, t.orders.values.map saveOrder,
    t.settlementOrders.toPairs.map fun e =>
      ⟨e.1, e.2.orderId, Amount.print e.2.quantity, e.2.reserved⟩)

def importState (t : OrderTracker D) (orders : List SavedTrackedOrder)
    (settlementOrders : List SavedSettlementOrder) : OrderTracker D :=
  { t with
    orders := t.orders.insertAll (orders.map fun s => (s.orderId, restoreOrder s))
    settlementOrders := t.settlementOrders.insertAll (settlementOrders.map fun s =>
      (s.proposalId, ⟨s.orderId, Amount.parseOrZero s.quantity, s.reserved⟩)) }

end OrderTracker

end BookAgent.AgentLogic
