import BookAgent.CloudAgent.AtomicSwap
import BookAgent.CloudAgent.QuoteTasks
import BookAgent.CloudAgent.SpentHoldings
import BookAgent.CloudAgent.TicketRuns

/-!
# The updates watcher

`updates_worker.rs`: a task that polls the ledger's updates from a cursor on and applies them
to the holdings cache and the ticket pool. The task can panic at any event and is restarted;
where it picks up is recorded outside of it. Each iteration of a loop is a step of its own, so
that a panic or another task can come between any two.
-/

namespace BookAgent.CloudAgent.UpdatesWorker

open BookAgent.Lib BookAgent.AtomicQuote

/-! ## Updates -/

inductive TemplateKind
  | amulet
  | holding
  | ticket
  | venue
  | other
  deriving DecidableEq

def classify (templateId : String) : TemplateKind :=
  if containsText templateId "Splice.Amulet:Amulet" && !containsText templateId "Locked" then
    .amulet
  else if containsText templateId "Utility.Registry.Holding.V0.Holding:Holding" then .holding
  else if containsText templateId "AtomicDVP:SettlementTicket" then .ticket
  else if containsText templateId "AtomicDVP:AtomicDVP" then .venue
  else .other

structure LedgerCreatedEvent where
  contractId : String
  templateId : String
  /-- As JSON. -/
  createArguments : Option Json

structure LedgerExercisedEvent where
  contractId : String
  templateId : String
  consuming : Bool

structure LedgerArchivedEvent where
  contractId : String
  templateId : String

inductive LedgerEvent
  | created (created : LedgerCreatedEvent)
  | exercised (exercised : LedgerExercisedEvent)
  | archived (archived : LedgerArchivedEvent)
  | unset

structure LedgerTransaction where
  updateId : String
  offset : Int
  synchronizerId : String
  events : List LedgerEvent

inductive GetUpdatesResponse
  | transaction (tx : LedgerTransaction)
  | offsetCheckpoint (offset : Int)
  | unset

/-- What one GetUpdates poll returned. -/
inductive Fetch
  | batch (updates : List GetUpdatesResponse) (complete : Bool)
  | failed
  | timedOut

/-! ## Where a restarted watcher picks up -/

/-- Restarts allowed at one unchanged cursor before the batch after it is skipped. -/
def resumeRetries : Nat := 2

structure Resume where
  cursor : Option Int
  /-- Restarts at `cursor` since it last advanced. -/
  retriesAtCursor : Nat
  deriving DecidableEq

namespace Resume

def default : Resume := ⟨none, 0⟩

/-- The cursor a new run starts from; `none` seeds it at the ledger end. -/
def seed (r : Resume) : Option Int × Resume :=
  match r.cursor with
  | some c =>
    if r.retriesAtCursor < resumeRetries then
      (some c, { r with retriesAtCursor := min (r.retriesAtCursor + 1) (2 ^ 32 - 1) })
    else (none, default)
  | none => (none, r)

/-- Record the cursor a run has reached; moving on resets the retry count. -/
def record (r : Resume) (cursor : Int) : Resume where
  cursor := some cursor
  retriesAtCursor := if r.cursor = some cursor then r.retriesAtCursor else 0

end Resume

/-! ## One event -/

/-- Sent to the quotes' state when a holding reserved for a quote was consumed. -/
structure SettleObserved where
  quoteId : String
  updateId : String
  deriving DecidableEq

/-- The caches, with the settles reported so far. -/
structure Shared (D : Type) where
  cache : HoldingsCache D
  ticketPool : Option TicketPool
  settles : List SettleObserved

/-- What `process_transaction` keeps from one event to the next. -/
structure Observed where
  venueChanged : Bool
  quotes : List String

section Events

variable {D : Type} [EnvelopeCrates D]

/-- `str::parse::<Decimal>`, where it succeeds. -/
def parseDecimal (v : Option Json) : Option D :=
  (v.bind Json.asStr).bind fun s => (EnvelopeCrates.fromStr s).toOption

/-- The instrument and the amount of a created Amulet or unlocked Holding. -/
def instrumentAndAmount (templateId : String) (json : Json) : Option (String × D) :=
  match classify templateId with
  | .amulet => do
    let amount ← parseDecimal (json.pointer ["amount", "initialAmount"])
    return (ccInstrument, amount)
  | .holding =>
    match json.pointer ["lock"] with
    | none | some .null => do
      let amount ← parseDecimal (json.get "amount")
      let admin ← (json.pointer ["instrument", "source"]).bind Json.asStr
      let id ← (json.pointer ["instrument", "id"]).bind Json.asStr
      return (instrumentKey admin id, amount)
    | _ => none
  | _ => none

/-- The arguments of a contract that the party owns. -/
def ownedArguments (partyId : String) (created : LedgerCreatedEvent) : Option Json :=
  created.createArguments.filter fun json =>
    decide ((json.get "owner").bind Json.asStr = some partyId)

/-- A created Amulet or Holding as a blob-pending cache entry. -/
def parseCreatedHolding (created : LedgerCreatedEvent) (partyId synchronizerId : String)
    (now : Instant) : Option (CachedHolding D) := do
  let json ← ownedArguments partyId created
  let (instrument, amount) ← instrumentAndAmount created.templateId json
  return { contractId := created.contractId
           templateId := created.templateId
           instrument
           amount
           createdEventBlob := none
           synchronizerId
           discoveredAt := now }

variable (partyId : String) (tx : LedgerTransaction) (now : Instant)

omit [EnvelopeCrates D] in
/-- Report the settle of the quote, once for a transaction. -/
def observeSettle (v2Quote : Option String) (s : Shared D) (o : Observed) : Shared D × Observed :=
  match v2Quote with
  | some quoteId =>
    if quoteId ∈ o.quotes then (s, o)
    else ({ s with settles := s.settles ++ [⟨quoteId, tx.updateId⟩] },
      { o with quotes := quoteId :: o.quotes })
  | none => (s, o)

omit [EnvelopeCrates D] in
def handleConsumed (contractId templateId : String) (s : Shared D) (o : Observed) :
    Shared D × Observed :=
  match classify templateId with
  | .amulet | .holding =>
    -- the reservation is read before it is dropped
    let v2Quote := Quotes.v2ReservationQuote s.cache contractId now
    let s := { s with cache := s.cache.markConsumed [contractId] tx.updateId now }
    observeSettle tx v2Quote s o
  | .ticket => ({ s with ticketPool := s.ticketPool.map (·.onArchived contractId) }, o)
  | .venue => (s, { o with venueChanged := true })
  | .other => (s, o)

/-- One iteration of the loop of `process_transaction`. -/
def processEvent (s : Shared D) (o : Observed) : LedgerEvent → Shared D × Observed
  | .created created =>
    match classify created.templateId with
    | .venue => (s, { o with venueChanged := true })
    | .amulet | .holding =>
      match parseCreatedHolding created partyId tx.synchronizerId now with
      | some h => ({ s with cache := s.cache.addCreated [h] }, o)
      | none => (s, o)
    | .ticket | .other => (s, o)
  | .archived archived =>
    handleConsumed tx now archived.contractId archived.templateId s o
  | .exercised exercised =>
    if exercised.consuming then
      handleConsumed tx now exercised.contractId exercised.templateId s o
    else (s, o)
  | .unset => (s, o)

end Events

/-! ## The task -/

/-- A batch that is being applied: `apply_fetch` with, where it is inside one,
`process_transaction`. -/
structure Batch where
  /-- The transaction in hand, its events that are left, and what the earlier ones left. -/
  current : Option (LedgerTransaction × List LedgerEvent × Observed)
  rest : List GetUpdatesResponse
  complete : Bool
  maxOffset : Int
  venueChanged : Bool

/-- A run of the task. -/
structure TaskRun where
  connected : Bool
  cursor : Option Int
  batch : Option Batch

/-- What happened, for the statements about runs. -/
inductive Mark
  | seeded (offset : Int)
  | begun (tx : LedgerTransaction)
  | handled (tx : LedgerTransaction) (event : LedgerEvent)

/-- The task and what it shares; `run` is `none` before the start and after a panic. The log
has the newest mark first, and `recent` the events handled since the last ACS refresh. -/
structure Watcher (D : Type) where
  resume : Resume
  run : Option TaskRun
  shared : Shared D
  log : List Mark
  recent : List (LedgerTransaction × LedgerEvent)

inductive WatcherEvent (D : Type)
  /-- The supervisor starts the task, or restarts it. -/
  | start
  | panic
  | createClient (created : Bool)
  | getLedgerEnd (answer : Option Int)
  | getUpdates (fetched : Fetch)
  /-- The next iteration on a batch, or its end; the flag says that a venue refresh after it
  got no result in time. -/
  | next (now : Instant) (refreshElapsed : Bool)
  /-- Another task changes the holdings or the tickets. -/
  | holdings (event : CacheEvent D)
  | tickets (step : TicketStep)

namespace Watcher

variable {D : Type}

def fresh (shared : Shared D) : Watcher D := ⟨.default, none, shared, [], []⟩

/-- The watcher once its run has gone on to `r`. -/
def goOn (w : Watcher D) (r : TaskRun) : Watcher D := { w with run := some r }

def start (w : Watcher D) : Watcher D :=
  match w.run with
  | some _ => w
  | none => { w with resume := w.resume.seed.2, run := some ⟨false, w.resume.seed.1, none⟩ }

def createClient (w : Watcher D) (r : TaskRun) (created : Bool) : Watcher D :=
  match r.batch with
  | some _ => w
  | none => w.goOn { r with connected := r.connected || created }

def getLedgerEnd (w : Watcher D) (r : TaskRun) (answer : Option Int) : Watcher D :=
  match r.connected, r.cursor, answer with
  | true, none, some offset =>
    { w with
      resume := w.resume.record offset
      run := some { r with cursor := some offset }
      log := .seeded offset :: w.log }
  | true, none, none => w.goOn { r with connected := false }
  | _, _, _ => w

def getUpdates (w : Watcher D) (r : TaskRun) (fetched : Fetch) : Watcher D :=
  match r.connected, r.cursor, r.batch with
  | true, some cur, none =>
    match fetched with
    | .batch updates complete =>
      w.goOn { r with batch := some ⟨none, updates, complete, cur, false⟩ }
    | .failed | .timedOut =>
      { w with resume := w.resume.record cur, run := some ⟨false, some cur, none⟩ }
  | _, _, _ => w

/-- One iteration of the loop over the updates or of that over a transaction's events. At the
end of the batch its last offset is recorded. -/
def next [EnvelopeCrates D] (partyId : String) (w : Watcher D) (r : TaskRun) (b : Batch)
    (now : Instant) (refreshElapsed : Bool) : Watcher D :=
  match b.current, b.rest with
  | some (tx, event :: events, o), _ =>
    let done := processEvent partyId tx now w.shared o event
    { w with
      run := some { r with batch := some { b with current := some (tx, events, done.2) } }
      shared := done.1
      log := .handled tx event :: w.log
      recent := (tx, event) :: w.recent }
  | some (_, [], o), _ =>
    w.goOn { r with
      batch := some { b with current := none, venueChanged := b.venueChanged || o.venueChanged } }
  | none, .transaction tx :: rest =>
    { w with
      run := some { r with
        batch := some { b with
          current := some (tx, tx.events, ⟨false, []⟩)
          rest
          maxOffset := max b.maxOffset tx.offset } }
      log := .begun tx :: w.log }
  | none, .offsetCheckpoint offset :: rest =>
    w.goOn { r with batch := some { b with rest, maxOffset := max b.maxOffset offset } }
  | none, .unset :: rest => w.goOn { r with batch := some { b with rest } }
  | none, [] =>
    let reconnect := !b.complete || (b.venueChanged && refreshElapsed)
    { w with
      resume := w.resume.record b.maxOffset
      run := some ⟨r.connected && !reconnect, some b.maxOffset, none⟩ }

/-- The pool after a step of another task. -/
def ticketsAfter (s : Shared D) (step : TicketStep) : Option TicketPool :=
  s.ticketPool.map fun pool => (⟨pool, none, step.clocks.now, 0⟩ : TicketDesk).poolAfter step

def apply [EnvelopeCrates D] (partyId : String) (w : Watcher D) (e : WatcherEvent D) : Watcher D :=
  match e, w.run with
  | .start, _ => w.start
  | .panic, _ => { w with run := none }
  | .createClient created, some r => w.createClient r created
  | .getLedgerEnd answer, some r => w.getLedgerEnd r answer
  | .getUpdates fetched, some r => w.getUpdates r fetched
  | .next now refreshElapsed, some r =>
    match r.batch with
    | some b => next partyId w r b now refreshElapsed
    | none => w
  | .holdings event, _ =>
    { w with
      shared := { w.shared with cache := w.shared.cache.apply event }
      recent := match event with
        | .refresh _ _ => []
        | _ => w.recent }
  | .tickets step, _ =>
    { w with
      shared := { w.shared with ticketPool := ticketsAfter w.shared step }
      recent := match step.op with
        | .reconcile _ _ => []
        | _ => w.recent }
  | _, none => w

end Watcher

end BookAgent.CloudAgent.UpdatesWorker
