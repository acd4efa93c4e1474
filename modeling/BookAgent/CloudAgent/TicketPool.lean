import BookAgent.CloudAgent.HoldingsCache

/-!
# The settlement ticket pool

Tickets of the ledger (`ticket_pool.rs`), keyed by ticket id: free, assigned to a quote
until an instant, or spent. Each operation runs under the pool's lock.
-/

namespace BookAgent.CloudAgent

open BookAgent.Lib

inductive TicketStatus
  | free
  | assigned (quoteId : String) (expiresAt : Instant)
  | spent
  deriving DecidableEq

structure TicketEntry where
  ticketId : String
  contractId : String
  templateId : Option String
  /-- `none` while the blob is pending. -/
  createdEventBlob : Option String
  payloadJson : Option String
  status : TicketStatus

/-- Every field an envelope needs is there. -/
def TicketEntry.isDisclosable (e : TicketEntry) : Bool :=
  e.templateId.isSome && e.createdEventBlob.isSome && e.payloadJson.isSome

/-- What the ledger says of a ticket. -/
structure TicketAcsInfo where
  ticketId : String
  contractId : String
  templateId : Option String
  createdEventBlob : Option String
  payloadJson : Option String

structure SavedTicket where
  ticketId : String
  contractId : String
  /-- "free", "assigned" or "spent" -/
  status : String
  quoteId : Option String
  /-- Wall-clock expiry of an assignment, in epoch milliseconds. -/
  expiresAtMs : Option Nat
  deriving DecidableEq

abbrev TicketPool := Pool String TicketEntry

/-- `u64::MAX` -/
def u64Max : Nat := 2 ^ 64 - 1

/-- A span in whole milliseconds (`Duration::as_millis`). -/
def asMillis (span : Nat) : Nat := span / 1000000

def millis (n : Nat) : Nat := n * 1000000

namespace TicketPool

/-- A ticket that can be assigned. -/
def assignable (e : TicketEntry) : Bool := decide (e.status = .free) && e.isDisclosable

/-- Assign a free, disclosable ticket: the map's order picks it, here the preferred one
where it will do. -/
def assign (pool : TicketPool) (quoteId : String) (expiresAt : Instant) (prefer : String) :
    Option ((String × TicketEntry) × TicketPool) :=
  let candidates := pool.toPairs.filter fun e => assignable e.2
  match (candidates.find? fun e => decide (e.1 = prefer)).orElse fun _ => candidates.head? with
  | none => none
  | some (tid, entry) =>
    let entry := { entry with status := .assigned quoteId expiresAt }
    some ((entry.ticketId, entry), pool.insert tid entry)

/-- Change the status of every entry that `which` accepts. -/
def setStatus (pool : TicketPool) (which : TicketEntry → Bool) (status : TicketStatus) : TicketPool :=
  pool.mapVal fun _ e => if which e then { e with status } else e

def isAssignedTo (quoteId : String) (e : TicketEntry) : Bool :=
  match e.status with
  | .assigned q _ => decide (q = quoteId)
  | _ => false

/-- Return the quote's ticket to the free ones. -/
def unassign (pool : TicketPool) (quoteId : String) : TicketPool :=
  pool.setStatus (isAssignedTo quoteId) .free

/-- A ticket was archived on the ledger. -/
def onArchived (pool : TicketPool) (contractId : String) : TicketPool :=
  pool.setStatus (fun e => decide (e.contractId = contractId)) .spent

/-- The quote's ticket was used by an observed settle. -/
def markSpent (pool : TicketPool) (quoteId : String) : TicketPool :=
  pool.setStatus (isAssignedTo quoteId) .spent

def freeCount (pool : TicketPool) : Nat := (pool.values.filter assignable).length

def hasExpired (now : Instant) (e : TicketEntry) : Bool :=
  match e.status with
  | .assigned _ expiresAt => decide (now ≥ expiresAt)
  | _ => false

/-- Return expired assignments to the free tickets. -/
def expireAssignments (pool : TicketPool) (now : Instant) : TicketPool :=
  pool.setStatus (hasExpired now) .free

/-- A ticket of the ledger: an unknown one is adopted as free, a known one keeps its
status and takes the fields it lacks. -/
def reconcileOne (pool : TicketPool) (t : TicketAcsInfo) : TicketPool :=
  match pool.lookup t.ticketId with
  | some e => pool.insert t.ticketId
      { e with
        contractId := t.contractId
        templateId := t.templateId.orElse fun _ => e.templateId
        createdEventBlob := t.createdEventBlob.orElse fun _ => e.createdEventBlob
        payloadJson := t.payloadJson.orElse fun _ => e.payloadJson }
  | none => pool.insert t.ticketId
      ⟨t.ticketId, t.contractId, t.templateId, t.createdEventBlob, t.payloadJson, .free⟩

/-- Tickets that left the ledger are dropped. -/
def reconcileFromAcs (pool : TicketPool) (onLedger : List TicketAcsInfo) : TicketPool :=
  onLedger.foldl reconcileOne
    (pool.retain fun tid _ => decide (tid ∈ onLedger.map TicketAcsInfo.ticketId))

/-! ## Persistence -/

/-- An entry as it is saved at `now`, `nowMs` on the wall clock. -/
def save (now : Instant) (nowMs : Nat) (e : TicketEntry) : SavedTicket :=
  match e.status with
  | .free => ⟨e.ticketId, e.contractId, "free", none, none⟩
  | .assigned quoteId expiresAt =>
    let remainingMs := min (asMillis (expiresAt - now)) u64Max
    ⟨e.ticketId, e.contractId, "assigned", some quoteId, some (min (nowMs + remainingMs) u64Max)⟩
  | .spent => ⟨e.ticketId, e.contractId, "spent", none, none⟩

def snapshot (pool : TicketPool) (now : Instant) (nowMs : Nat) : List SavedTicket :=
  pool.values.map (save now nowMs)

/-- The status a saved ticket comes back with; what is left of an assignment is capped. -/
def restoredStatus (maxTtl : Nat) (now : Instant) (nowMs : Nat) (t : SavedTicket) : TicketStatus :=
  if t.status = "assigned" then
    match t.quoteId, t.expiresAtMs with
    | some quoteId, some expiresAtMs =>
      if expiresAtMs > nowMs then
        .assigned quoteId (now + min (millis (expiresAtMs - nowMs)) maxTtl)
      else .free
    | _, _ => .free
  else if t.status = "spent" then .spent
  else .free

/-- Blobs are not saved: a restored ticket waits for the next reconciliation. -/
def restore (pool : TicketPool) (saved : List SavedTicket) (maxTtl : Nat) (now : Instant)
    (nowMs : Nat) : TicketPool :=
  pool.insertAll (saved.map fun t =>
    (t.ticketId,
      ⟨t.ticketId, t.contractId, none, none, none, restoredStatus maxTtl now nowMs t⟩))

/-! ## Which tickets a quote holds -/

variable {pool : TicketPool} {quoteId tid : String} {expiresAt : Instant} {e : TicketEntry}

/-- The quote holds a ticket until `expiresAt`. -/
def Holds (pool : TicketPool) (quoteId : String) (expiresAt : Instant) : Prop :=
  ∃ tid e, pool.lookup tid = some e ∧ e.status = .assigned quoteId expiresAt

/-- A status change that assigns nothing leaves a quote only tickets it held before. -/
theorem holds_setStatus {which : TicketEntry → Bool} {status : TicketStatus}
    (hstatus : ∀ q t, status ≠ .assigned q t)
    (h : (pool.setStatus which status).Holds quoteId expiresAt) :
    ∃ tid e, pool.lookup tid = some e ∧ e.status = .assigned quoteId expiresAt ∧ which e = false := by
  obtain ⟨tid, e, hlookup, hassigned⟩ := h
  rw [setStatus, Pool.lookup_mapVal, Option.map_eq_some_iff] at hlookup
  obtain ⟨e', he', rfl⟩ := hlookup
  by_cases hwhich : which e' = true
  · rw [if_pos hwhich] at hassigned
    exact absurd hassigned (hstatus _ _)
  · rw [if_neg hwhich] at hassigned
    exact ⟨tid, e', he', hassigned, Bool.eq_false_iff.mpr hwhich⟩

theorem holds_of_setStatus {which : TicketEntry → Bool} {status : TicketStatus}
    (hstatus : ∀ q t, status ≠ .assigned q t)
    (h : (pool.setStatus which status).Holds quoteId expiresAt) : pool.Holds quoteId expiresAt := by
  obtain ⟨tid, e, hlookup, hassigned, -⟩ := holds_setStatus hstatus h
  exact ⟨tid, e, hlookup, hassigned⟩

theorem not_holds_unassign : ¬ (pool.unassign quoteId).Holds quoteId expiresAt := by
  intro h
  obtain ⟨tid, e, -, hassigned, hwhich⟩ := holds_setStatus (by rintro q t ⟨⟩) h
  rw [isAssignedTo, hassigned] at hwhich
  exact absurd rfl (of_decide_eq_false hwhich)

/-- What is left after expiry runs past `now`. -/
theorem lt_of_holds_expireAssignments {now : Instant}
    (h : (pool.expireAssignments now).Holds quoteId expiresAt) : now < expiresAt := by
  obtain ⟨tid, e, -, hassigned, hwhich⟩ := holds_setStatus (by rintro q t ⟨⟩) h
  rw [hasExpired, hassigned] at hwhich
  exact not_le.mp (of_decide_eq_false hwhich)

/-- An assignment gives the quote a ticket until the instant asked for, and nobody else. -/
theorem holds_assign {q : String} {until_ : Instant} {prefer : String}
    {assigned : (String × TicketEntry) × TicketPool}
    (h : pool.assign q until_ prefer = some assigned) (hholds : assigned.2.Holds quoteId expiresAt) :
    (quoteId = q ∧ expiresAt = until_) ∨ pool.Holds quoteId expiresAt := by
  unfold assign at h
  dsimp only at h
  split at h
  · cases h
  · rename_i tid entry hpick
    obtain rfl := Option.some.inj h
    obtain ⟨tid', e, hlookup, hassigned⟩ := hholds
    by_cases htid : tid' = tid
    · subst htid
      rw [AList.lookup_insert] at hlookup
      obtain rfl := Option.some.inj hlookup
      cases hassigned
      exact .inl ⟨rfl, rfl⟩
    · rw [AList.lookup_insert_ne htid] at hlookup
      exact .inr ⟨tid', e, hlookup, hassigned⟩

theorem holds_reconcileOne {t : TicketAcsInfo} (h : (pool.reconcileOne t).Holds quoteId expiresAt) :
    pool.Holds quoteId expiresAt := by
  obtain ⟨tid, e, hlookup, hassigned⟩ := h
  unfold reconcileOne at hlookup
  cases hold : pool.lookup t.ticketId with
  | none =>
    rw [hold] at hlookup
    dsimp only at hlookup
    by_cases htid : tid = t.ticketId
    · subst htid
      rw [AList.lookup_insert] at hlookup
      obtain rfl := Option.some.inj hlookup
      cases hassigned
    · rw [AList.lookup_insert_ne htid] at hlookup
      exact ⟨tid, e, hlookup, hassigned⟩
  | some old =>
    rw [hold] at hlookup
    dsimp only at hlookup
    by_cases htid : tid = t.ticketId
    · subst htid
      rw [AList.lookup_insert] at hlookup
      obtain rfl := Option.some.inj hlookup
      exact ⟨_, old, hold, hassigned⟩
    · rw [AList.lookup_insert_ne htid] at hlookup
      exact ⟨tid, e, hlookup, hassigned⟩

/-- A reconciliation assigns no ticket. -/
theorem holds_reconcileFromAcs {onLedger : List TicketAcsInfo}
    (h : (pool.reconcileFromAcs onLedger).Holds quoteId expiresAt) : pool.Holds quoteId expiresAt := by
  have folded : ∀ (ts : List TicketAcsInfo) (p : TicketPool),
      (ts.foldl reconcileOne p).Holds quoteId expiresAt → p.Holds quoteId expiresAt := by
    intro ts
    induction ts with
    | nil => exact fun _ hp => hp
    | cons t ts ih => exact fun p hp => holds_reconcileOne (ih _ hp)
  obtain ⟨tid, e, hlookup, hassigned⟩ := folded _ _ h
  exact ⟨tid, e, (Pool.lookup_retain_eq_some.mp hlookup).1, hassigned⟩

end TicketPool

end BookAgent.CloudAgent
