import BookAgent.AtomicQuote.Envelope
import BookAgent.CloudAgent.LedgerClient
import BookAgent.CloudAgent.PriceRfq
import BookAgent.Lib.EnvLines
import BookAgent.Lib.StableSort

/-!
# The collector of expired proposals

`dvp_gc_worker.rs`: the party's proposals are scanned, those past their window are queued, oldest
first, and archived one by one behind a gate. The worker is a state machine; the scans, the readings
of the gate and the ends of the submissions come with the events.
-/

namespace BookAgent.CloudAgent

open BookAgent.Lib BookAgent.AgentLogic BookAgent.AtomicQuote

/-! ## Settings -/

/-- `str::trim` -/
def trimChars (cs : List Char) : List Char := trimBlank isWhiteSpace cs

/-- `u64` from text; a plus sign is read over. -/
def parseU64 (cs : List Char) : Option Nat :=
  let digits := match cs with
    | '+' :: rest => rest
    | _ => cs
  (plainNat digits).filter fun n => decide (n < 2 ^ 64)

structure SecsSetting where
  name : String
  default : Nat
  min : Nat

namespace SecsSetting

/-- Unset or blank gives the default; anything else must be a whole number of at least `min`. -/
def parse (s : SecsSetting) (raw : Option String) : Except String Nat :=
  match (raw.map fun r => trimChars r.toList).filter fun cs => cs ≠ [] with
  | none => .ok s.default
  | some cs =>
    match parseU64 cs with
    | none => .error (s.name ++ "=" ++ reprStr (String.ofList cs) ++ " is not a whole number of seconds")
    | some secs =>
      if secs < s.min then
        .error (s.name ++ "=" ++ toString secs ++ " must be at least " ++ toString s.min)
      else .ok secs

/-- A value that the startup check would refuse gives the default. -/
def envValue (s : SecsSetting) (raw : Option String) : Nat := (s.parse raw).toOption.getD s.default

end SecsSetting

def delaySetting : SecsSetting := ⟨"DVP_GC_DELAY_SECS", 2, 1⟩

def refreshSetting : SecsSetting := ⟨"DVP_GC_REFRESH_SECS", 3600, 1⟩

def safetyMarginSetting : SecsSetting := ⟨"DVP_GC_SAFETY_MARGIN_SECS", 3600, 0⟩

def maxPauseSetting : SecsSetting := ⟨"DVP_GC_MAX_PAUSE_SECS", 900, 60⟩

structure GcConfig where
  partyId : String
  delaySecs : Nat
  refreshSecs : Nat
  safetyMarginSecs : Nat
  maxPauseSecs : Nat
  minCoefficient : ExactFloat
  rejectEnabled : Bool

namespace GcConfig

/-- The timers of the environment. -/
def fromEnv (partyId : String) (get : String → Option String) (minCoefficient : ExactFloat)
    (rejectEnabled : Bool) : GcConfig where
  partyId
  delaySecs := delaySetting.envValue (get delaySetting.name)
  refreshSecs := max (refreshSetting.envValue (get refreshSetting.name)) 1
  safetyMarginSecs := safetyMarginSetting.envValue (get safetyMarginSetting.name)
  maxPauseSecs := max (maxPauseSetting.envValue (get maxPauseSetting.name)) 60
  minCoefficient
  rejectEnabled

/-- The pause between two submissions. -/
def delay (cfg : GcConfig) : Nat := seconds (max cfg.delaySecs 1)

def refresh (cfg : GcConfig) : Nat := seconds cfg.refreshSecs

def maxPause (cfg : GcConfig) : Nat := seconds cfg.maxPauseSecs

end GcConfig

/-! ## Classification -/

inductive GcAction
  | cancel
  | reject
  deriving DecidableEq

structure GcItem where
  cid : String
  action : GcAction
  settleBeforeMicros : Int
  deriving DecidableEq

/-- A number in the range of `i64`, or the nearest one. -/
def clampI64 (n : Int) : Int := max (-i64Max - 1) (min n i64Max)

/-- `i64` from text. -/
def parseI64 (cs : List Char) : Option Int :=
  let read := match cs with
    | '+' :: rest => (plainNat rest).map fun n : Nat => (n : Int)
    | '-' :: rest => (plainNat rest).map fun n : Nat => -(n : Int)
    | _ => (plainNat cs).map fun n : Nat => (n : Int)
  read.filter fun n => decide (clampI64 n = n)

/-- `f as i64` -/
def floatAsI64 : ExactFloat → Int
  | .finite q => clampI64 (if 0 ≤ q then ⌊q⌋ else ⌈q⌉)
  | .inf negative => if negative then -i64Max - 1 else i64Max
  | .nan => 0

/-- Microseconds as an integer, a float or a text. -/
def microsValue : Json → Option Int
  | .number text => (parseI64 text.toList).or ((ExactFloat.parse text).map floatAsI64)
  | .string s => parseI64 (trimChars s.toList)
  | _ => none

def marginMicros (secs : Nat) : Int := clampI64 (clampI64 secs * 1000000)

/-- How the proposal may be archived; one that cannot be read is left alone. -/
def classifyProposal (args : Json) (partyId : String) (nowMicros marginMicros : Int)
    (rejectEnabled : Bool) : Option (GcAction × Int) := do
  let settleBefore ← microsValue (← args.pointer ["terms", "settleBefore"])
  if clampI64 (nowMicros - marginMicros) ≤ settleBefore then none
  else
    let proposer ← (← args.get "proposer").asStr
    if proposer = partyId then return (.cancel, settleBefore)
    let counterparty ← (← args.get "counterparty").asStr
    if counterparty = partyId ∧ rejectEnabled then return (.reject, settleBefore) else none

/-- An active contract, with its arguments if it has any. -/
structure GcContract where
  contractId : String
  createArguments : Option Json

def gcItem (cfg : GcConfig) (nowMicros : Int) (c : GcContract) : Option GcItem := do
  let (action, settleBefore) ← classifyProposal (← c.createArguments) cfg.partyId nowMicros
    (marginMicros cfg.safetyMarginSecs) cfg.rejectEnabled
  return ⟨c.contractId, action, settleBefore⟩

/-- The queue of a scan, oldest first. -/
def scanQueue (cfg : GcConfig) (nowMicros : Int) (contracts : List GcContract) : List GcItem :=
  (contracts.filterMap (gcItem cfg nowMicros)).insertionSort fun a b =>
    a.settleBeforeMicros ≤ b.settleBeforeMicros

/-! ## The gate -/

inductive GateBlock
  | backpressure (secs : Nat)
  | coefficient (coeff : ExactFloat)

/-- Backpressure outranks the coefficient. -/
def gateBlock (cfg : GcConfig) (coeff : ExactFloat) (pauseSecs : Option Nat) : Option GateBlock :=
  match pauseSecs with
  | some secs => some (.backpressure secs)
  | none => if coeff.lt cfg.minCoefficient then some (.coefficient coeff) else none

/-! ## Submissions -/

def alreadyGoneTexts : List String :=
  ["CONTRACT_NOT_FOUND", "CONTRACT_NOT_ACTIVE", "INACTIVE_CONTRACTS", "LOCKED_CONTRACTS",
    "UNKNOWN_CONTRACT_SYNCHRONIZERS"]

def isAlreadyGone (msg : String) : Bool := alreadyGoneTexts.any fun needle => containsText msg needle

/-- How one archival counts. -/
inductive GcEnd
  | archived
  | gone
  | backpressured
  | failed
  deriving DecidableEq

def gcEnd : Except String Unit → GcEnd
  | .ok () => .archived
  | .error msg =>
    if isAlreadyGone msg then .gone
    else if containsText msg "SEQUENCER_BACKPRESSURE" then .backpressured
    else .failed

def maxConsecutiveFailures : Nat := 20

/-- A cycle: its scan, and how far its queue has been drained. -/
structure GcCycle where
  nowMicros : Int
  contracts : List GcContract
  /-- What was submitted, with what the cycle's log counts, and what is left. -/
  tried : List GcItem
  rest : List GcItem
  done : Nat
  skippedGone : Nat
  backpressured : Nat
  consecutiveFailures : Nat
  gateTimedOut : Bool

/-- Queue items neither archived nor already gone. -/
def remaining (queued done gone : Nat) : Nat := queued - done - gone

namespace GcCycle

def start (cfg : GcConfig) (nowMicros : Int) (contracts : List GcContract) : GcCycle where
  nowMicros
  contracts
  tried := []
  rest := scanQueue cfg nowMicros contracts
  done := 0
  skippedGone := 0
  backpressured := 0
  consecutiveFailures := 0
  gateTimedOut := false

/-- The counters after an archival. -/
def count (c : GcCycle) : GcEnd → GcCycle
  | .archived => { c with done := c.done + 1, consecutiveFailures := 0 }
  | .gone => { c with skippedGone := c.skippedGone + 1 }
  | .backpressured => { c with backpressured := c.backpressured + 1 }
  | .failed => { c with consecutiveFailures := c.consecutiveFailures + 1 }

/-- The report says how many remain of the queue. -/
def reportRemaining (c : GcCycle) : Nat :=
  remaining (c.tried.length + c.rest.length) c.done c.skippedGone

end GcCycle

/-! ## The worker -/

/-- A submission, with the readings the gate was passed with. -/
structure GcSubmit where
  startedAt : Instant
  item : GcItem
  coefficient : ExactFloat
  pauseSecs : Option Nat
  nowMicros : Int
  contracts : List GcContract

inductive GcPhase
  /-- Asleep before the top of the loop. -/
  | idle (wake : Instant)
  /-- Before the gate of the next item. -/
  | draining
  /-- The gate is shut since `started`; it is polled again at `poll`. -/
  | waiting (started poll : Instant)
  | submitting
  /-- Asleep after a submission. -/
  | pausing (wake : Instant)
  | stopped
  deriving DecidableEq

structure GcWorld where
  now : Instant
  shuttingDown : Bool
  phase : GcPhase
  cycle : GcCycle
  /-- The latest first. -/
  submits : List GcSubmit
  /-- How the archivals of the cycle ended, the latest first. -/
  ends : List GcEnd

inductive GcEvent
  | tick (span : Nat)
  | shutdown
  /-- The top of the loop: no client, no scan, or the scan's contracts and the time of day. -/
  | noClient
  | scanFailed
  | scanned (nowMicros : Int) (contracts : List GcContract)
  /-- The gate is read. -/
  | gate (coeff : ExactFloat) (pauseSecs : Option Nat)
  | archived (result : Except String Unit)
  | wake

namespace GcWorld

variable (cfg : GcConfig) (w : GcWorld)

/-- The end of the drain. -/
def finish : GcWorld :=
  { w with phase := .idle (w.now + if w.cycle.gateTimedOut then cfg.delay else cfg.refresh) }

/-- The next item is submitted. -/
def submit (coeff : ExactFloat) (pauseSecs : Option Nat) : GcWorld :=
  match w.cycle.rest with
  | [] => w.finish cfg
  | item :: rest =>
    { w with
      phase := .submitting
      cycle := { w.cycle with tried := w.cycle.tried ++ [item], rest }
      submits := ⟨w.now, item, coeff, pauseSecs, w.cycle.nowMicros, w.cycle.contracts⟩ :: w.submits }

/-- `await_gate`, when it is called and at each poll. -/
def gate (coeff : ExactFloat) (pauseSecs : Option Nat) : GcWorld :=
  match w.phase with
  | .draining =>
    if w.cycle.rest = [] then w.finish cfg
    else if w.shuttingDown then { w with phase := .stopped }
    else if (gateBlock cfg coeff pauseSecs).isNone then w.submit cfg coeff pauseSecs
    else { w with phase := .waiting w.now (w.now + cfg.delay) }
  | .waiting started _ =>
    if w.shuttingDown then { w with phase := .stopped }
    else if (gateBlock cfg coeff pauseSecs).isNone then w.submit cfg coeff pauseSecs
    else if cfg.maxPause ≤ w.now - started then
      ({ w with cycle := { w.cycle with gateTimedOut := true } } : GcWorld).finish cfg
    else { w with phase := .waiting started (w.now + cfg.delay) }
  | _ => w

/-- The submission returned; 20 failures in a row abandon the cycle. -/
def archive (result : Except String Unit) : GcWorld :=
  let cycle := w.cycle.count (gcEnd result)
  let w' := { w with cycle, ends := gcEnd result :: w.ends }
  if gcEnd result = .failed ∧ maxConsecutiveFailures ≤ cycle.consecutiveFailures then w'.finish cfg
  else { w' with phase := .pausing (w.now + cfg.delay) }

def apply : GcEvent → GcWorld
  | .tick span => { w with now := w.now + span }
  | .shutdown => { w with shuttingDown := true }
  | .noClient => { w with phase := if w.shuttingDown then .stopped else .idle (w.now + cfg.delay) }
  | .scanFailed => { w with phase := if w.shuttingDown then .stopped else .idle (w.now + cfg.refresh) }
  | .scanned nowMicros contracts =>
    if w.shuttingDown then { w with phase := .stopped }
    else { w with phase := .draining, cycle := .start cfg nowMicros contracts, ends := [] }
  | .gate coeff pauseSecs => w.gate cfg coeff pauseSecs
  | .archived result => w.archive cfg result
  | .wake => { w with phase := if w.shuttingDown then .stopped else .draining }

/-- The worker sleeps until it is time, or a shutdown wakes it. -/
def Allowed : GcEvent → Prop
  | .tick _ => True
  | .shutdown => True
  | .noClient => ∃ wake, w.phase = .idle wake ∧ (wake ≤ w.now ∨ w.shuttingDown = true)
  | .scanFailed => ∃ wake, w.phase = .idle wake ∧ (wake ≤ w.now ∨ w.shuttingDown = true)
  | .scanned _ _ => ∃ wake, w.phase = .idle wake ∧ (wake ≤ w.now ∨ w.shuttingDown = true)
  | .gate _ _ => w.phase = .draining ∨
      ∃ started poll, w.phase = .waiting started poll ∧ (poll ≤ w.now ∨ w.shuttingDown = true)
  | .archived _ => w.phase = .submitting
  | .wake => ∃ wake, w.phase = .pausing wake ∧ (wake ≤ w.now ∨ w.shuttingDown = true)

def fresh (now : Instant) : GcWorld where
  now
  shuttingDown := false
  phase := .idle now
  cycle := ⟨0, [], [], [], 0, 0, 0, 0, false⟩
  submits := []
  ends := []

end GcWorld

end BookAgent.CloudAgent
