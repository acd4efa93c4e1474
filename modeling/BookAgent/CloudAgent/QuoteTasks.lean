import BookAgent.Lib.Run
import BookAgent.CloudAgent.RfqV2

/-!
# Quotes under concurrent handlers

Any number of handlers of one process run as tasks that interleave at their awaits, over
the shared state of the quotes. Other code feeds balances, holdings and tickets, reserves
holdings of its own, and sees holdings consumed on the ledger.
-/

namespace BookAgent.CloudAgent

open BookAgent.Lib BookAgent.AgentLogic

variable {D K E : Type} [Field K] [LinearOrder K]

inductive Task (D : Type)
  | register (t : RegisterTask)
  | confirm (t : ConfirmTask D)
  | settle (t : SettleTask)
  | sweep (t : SweepTask)

/-- The order in which a map gives the tracker's pendings. -/
abbrev NetOrder (K : Type) :=
  List (String × NetPosition.PendingNet K) → List (String × NetPosition.PendingNet K)

inductive QuoteEvent (D K E : Type)
  | register (id : Nat) (call : RegisterCall)
  | confirm (id : Nat) (req : RfqConfirmRequest) (startMicros : Int) (a : ConfirmAnswers D K E)
  | settle (id : Nat) (quoteId : String) (now : Instant)
  | sweep (id : Nat) (now : Instant) (visit : List Release → List Release) (order : NetOrder K)
      (a : RfqV2State.SweepAnswers)
  /-- A task goes on. -/
  | resume (id : Nat) (a : ConfirmAnswers D K E) (order : NetOrder K) (b : RfqV2State.SweepAnswers)
  /-- The watcher sees a holding consumed on the ledger. -/
  | consumed (contractId reason : String) (now : Instant)
  | balances (updates : List (String × ℚ))
  | holdings (created : List (CachedHolding D))
  | refresh (holdings : List (CachedHolding D)) (snapshotStart : Instant)
  | cleanup (now : Instant)
  | reconcile (onLedger : List TicketAcsInfo)
  /-- A payment or a split job reserves holdings, or releases ids. -/
  | reserve (contractIds : List String) (kind : ReservationKind) (now : Instant)
  | release (contractIds : List String)

/-- The shared state and the running tasks, with the quote ids that were registered, the
quotes that settled, and the consumed holdings with the quotes they were reserved for. -/
structure Quotes (D K E : Type) where
  state : RfqV2State D K E
  tasks : Pool Nat (Task D)
  clock : Instant
  registered : List String
  settled : List String
  observed : List (String × String)

namespace Quotes

variable (cfg : RfqV2Config K)

omit [Field K] [LinearOrder K] in
/-- Where a stretch leaves the task: in its next await, or returned. -/
def after {T R : Type} (w : Quotes D K E) (id : Nat) (kind : T → Task D) (r : Stretch D K E T R) :
    Quotes D K E :=
  { w with
    state := r.1
    tasks := match r.2 with
      | .await task => w.tasks.insert id (kind task)
      | .done _ => w.tasks.erase id }

/-- The quote whose live reservation a consumed holding was under. -/
def v2ReservationQuote (c : HoldingsCache D) (cid : String) (now : Instant) : Option String :=
  (c.reserved.lookup cid).bind fun entry =>
    if entry.isExpired now then none
    else match entry.kind with
      | .v2Quote quoteId _ => some quoteId
      | _ => none

/-- Whether the quote is confirmed, hence settles when its holdings are seen consumed. -/
def isConfirmed (s : RfqV2State D K E) (quoteId : String) : Bool :=
  match s.pending.lookup quoteId with
  | some (.confirmed _) => true
  | _ => false

def apply (w : Quotes D K E) : QuoteEvent D K E → Quotes D K E
  | .register id call =>
    { w with registered := call.quoteId :: w.registered }.after id .register
      (w.state.registerIndicative cfg call)
  | .confirm id req startMicros a =>
    { w with clock := a.now }.after id .confirm (w.state.handleConfirm cfg req startMicros a)
  | .settle id quoteId now =>
    { w with
      clock := now
      settled := if isConfirmed w.state quoteId then quoteId :: w.settled else w.settled }.after id
        .settle (w.state.handleSettleObserved quoteId now)
  | .sweep id now visit order a => w.after id .sweep (w.state.sweep cfg now visit order a)
  | .resume id a order b =>
    match w.tasks.lookup id with
    | none => w
    | some (.register t) =>
      { w with clock := a.now }.after id .register (w.state.resumeRegister cfg a.now t)
    | some (.confirm t) =>
      { w with clock := a.now }.after id .confirm (w.state.resumeConfirm cfg a t)
    | some (.settle t) => w.after id .settle (w.state.resumeSettle t)
    | some (.sweep t) => w.after id .sweep (w.state.resumeSweep cfg order b t)
  | .consumed cid reason now =>
    { w with
      state := { w.state with cache := w.state.cache.markConsumed [cid] reason now }
      observed := ((v2ReservationQuote w.state.cache cid now).map (·, cid)).toList ++ w.observed }
  | .balances updates =>
    { w with state := { w.state with
        liquidityManager := w.state.liquidityManager.updateTokenBalances updates } }
  | .holdings created =>
    { w with state := { w.state with cache := w.state.cache.addCreated created } }
  | .refresh holdings snapshotStart =>
    { w with state := { w.state with
        cache := w.state.cache.refreshFromAcsSnapshot holdings snapshotStart } }
  | .cleanup now =>
    { w with state := { w.state with cache := w.state.cache.cleanupExpiredReservations now } }
  | .reconcile onLedger =>
    { w with state := { w.state with
        ticketPool := w.state.ticketPool.map fun pool => pool.reconcileFromAcs onLedger } }
  | .reserve cids kind now =>
    { w with state := { w.state with cache := (w.state.cache.reserveWithKind cids kind now).2 } }
  | .release cids =>
    { w with state := { w.state with cache := w.state.cache.releaseReservations cids } }

omit [Field K] [LinearOrder K] in
/-- A task starts under a fresh id; an indicative quote has a fresh quote id; the monotonic
clock does not run back; a settle is observed when a holding reserved for the quote was
consumed; and only confirms reserve for quotes. -/
def Allowed (w : Quotes D K E) : QuoteEvent D K E → Prop
  | .register id call => id ∉ w.tasks ∧ call.quoteId ∉ w.registered
  | .confirm id _ _ a => id ∉ w.tasks ∧ w.clock ≤ a.now
  | .settle id quoteId now =>
    id ∉ w.tasks ∧ w.clock ≤ now ∧ ∃ cid, (quoteId, cid) ∈ w.observed
  | .sweep id _ visit order _ =>
    id ∉ w.tasks ∧ (∀ l, (visit l).Perm l) ∧ ∀ l, (order l).Perm l
  | .resume _ a order _ => w.clock ≤ a.now ∧ ∀ l, (order l).Perm l
  | .reserve _ kind _ => ∀ q t, kind ≠ .v2Quote q t
  | _ => True

end Quotes

end BookAgent.CloudAgent
