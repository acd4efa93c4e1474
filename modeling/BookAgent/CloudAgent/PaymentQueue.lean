import Mathlib.Logic.Function.Basic
import BookAgent.Lib.TakeBest
import BookAgent.CloudAgent.AtomicSwap
import BookAgent.CloudAgent.Submitters

/-!
# The payment queue

The scheduler of `payment_queue.rs`. It takes payments from a channel into a heap and goes
through the heap in passes: a payment is screened, funded with amulets of the shared cache
and handed to a worker of its pool, or deferred to the next pass. It runs from one await to
the next, among its callers, its workers and every other user of the cache.
-/

namespace BookAgent.CloudAgent

open BookAgent.Lib

/-! ## Payments -/

/-- Allocate before PayFee. -/
inductive PaymentPriority
  | high
  | normal
  deriving DecidableEq

/-- `priority as u8`; the lower number is the higher priority. -/
def PaymentPriority.toNat : PaymentPriority → Nat
  | high => 0
  | normal => 1

inductive PaymentRequest (D : Type)
  | payFee (proposalId feeType : String)
  /-- `allocationCc` is `some` for CC, `none` for CIP-56. -/
  | allocate (proposalId dvpCid : String) (allocationCc : Option D)
  deriving DecidableEq

/-- Separate pools prevent starvation. -/
inductive WorkerPool
  | allocation
  | fee
  deriving DecidableEq

namespace PaymentRequest

variable {D : Type}

def isAllocate : PaymentRequest D → Bool
  | allocate .. => true
  | payFee .. => false

/-- An allocation of CC. -/
def isAllocation : PaymentRequest D → Bool
  | allocate _ _ (some _) => true
  | _ => false

def priority : PaymentRequest D → PaymentPriority
  | allocate .. => .high
  | payFee .. => .normal

def pool : PaymentRequest D → WorkerPool
  | allocate .. => .allocation
  | payFee .. => .fee

end PaymentRequest

structure QueuedPayment (D : Type) where
  priority : PaymentPriority
  sequence : Nat
  request : PaymentRequest D
  deriving DecidableEq

/-- Higher priority first, then lower sequence (FIFO). -/
def QueuedPayment.outranks {D : Type} (a b : QueuedPayment D) : Bool :=
  decide (a.priority.toNat < b.priority.toNat) ||
    decide (a.priority = b.priority) && decide (a.sequence < b.sequence)

/-! ## Selection -/

section Selection

variable {D : Type} [Decimal D]

def maxAmuletInputs : Nat := 100

/-- CC holding fees decay an amulet between selection and execution. -/
def withFeeMargin (amount : D) : Option D := Decimal.checkedMul amount (Decimal.new 102 2)

/-- The CC to select for a payment; `none` when it, or its fee margin, is out of range. -/
def paymentTarget (request : PaymentRequest D) : Option D := do
  let target ← match request with
    | .payFee .. => some Decimal.zero
    | .allocate _ _ (some cc) => Decimal.checkedAdd cc Decimal.one
    | .allocate _ _ none => some Decimal.zero
  let _ ← withFeeMargin target
  return target

/-- From the largest on, until the target is met or no more inputs fit. -/
def largestFirst (target : D) : List (D × Nat) → List Nat → D → List Nat
  | [], _, _ => []
  | (amount, i) :: rest, selected, total =>
    if selected.length ≥ maxAmuletInputs then []
    else
      match Decimal.checkedAdd total amount with
      | none => selected ++ [i]
      | some next =>
        if Decimal.le target next then selected ++ [i]
        else largestFirst target rest (selected ++ [i]) next

/-- One covering amulet if there is one, else largest first; none when the target is out of reach. -/
def selectAmuletIndices (ascending : List D) (target : D) : List Nat :=
  if Decimal.le target Decimal.zero then []
  else
    match ascending.findIdx? (Decimal.le target) with
    | some i => [i]
    | none => largestFirst target ascending.zipIdx.reverse [] Decimal.zero

def selectAmuletsForAllocation (selectable : List (CachedHolding D)) (estimatedCc : D) :
    List (CachedHolding D) :=
  if Decimal.le estimatedCc Decimal.zero then []
  else
    match withFeeMargin estimatedCc with
    | none => []
    | some target =>
      (selectAmuletIndices (selectable.map CachedHolding.amount) target).filterMap (selectable[·]?)

/-- Sum of the items, or `none` on overflow. -/
def decSum (items : List D) : Option D :=
  items.foldlM Decimal.checkedAdd Decimal.zero

/-- A sum beyond the decimal range covers the need. -/
def selectionShort (selected : List (CachedHolding D)) (need : D) : Bool :=
  match decSum (selected.map CachedHolding.amount) with
  | some total => Decimal.lt total need
  | none => false

end Selection

/-! ## The scheduler's state -/

/-- The amulets that the scheduler reserved for a payment, possibly none. -/
structure AmuletReservation where
  cids : List String
  reservedAt : Instant
  deriving DecidableEq

def paymentId (number : Nat) : String := s!"payment-{number}"

/-- The entry that the reservation is under in the cache. -/
def AmuletReservation.entry (r : AmuletReservation) (number : Nat) : ReservedEntry :=
  ⟨.v1Payment (paymentId number), r.reservedAt⟩

/-- A payment that left the heap in this pass, between two awaits. -/
inductive InHand (D : Type)
  | screened (p : QueuedPayment D) (estimatedCc : D)
  /-- Nothing was selected without the splitter reserve. -/
  | retrying (p : QueuedPayment D) (estimatedCc : D)
  | selected (p : QueuedPayment D) (cids : List String)
  | reserved (p : QueuedPayment D) (number : Nat)
  /-- There was no permit; its reservation is released before it is deferred. -/
  | poolFull (p : QueuedPayment D) (number : Nat)

namespace InHand

variable {D : Type}

def payment : InHand D → QueuedPayment D
  | screened p _ | retrying p _ | selected p _ | reserved p _ | poolFull p _ => p

/-- The number of its reservation, once there is one. -/
def number : InHand D → Option Nat
  | reserved _ number | poolFull _ number => some number
  | _ => none

def isFull : InHand D → Bool
  | poolFull .. => true
  | _ => false

end InHand

/-- What a pass made of a payment. -/
inductive Handling
  | dropped
  | answered
  | unfunded
  | unreserved
  | poolFull
  | dispatched
  deriving DecidableEq

inductive PassEntry (D : Type)
  | handled (p : QueuedPayment D) (how : Handling)
  | workerEnded (pool : WorkerPool)
  deriving DecidableEq

/-- A dispatched payment. -/
structure PaymentWorker (D : Type) where
  payment : QueuedPayment D
  number : Nat
  running : Bool
  deriving DecidableEq

structure PaymentWorld (D : Type) where
  nextSequence : Nat
  /-- Payments that have their sequence and are not sent yet. -/
  numbered : List (QueuedPayment D)
  /-- Every payment sent so far. -/
  submitted : List (QueuedPayment D)
  channel : List (QueuedPayment D)
  /-- The sequences of the payments whose callers stopped waiting. -/
  gaveUp : List Nat
  heap : List (QueuedPayment D)
  deferred : List (QueuedPayment D)
  hand : Option (InHand D)
  passing : Bool
  /-- The heap that the latest pass began with. -/
  passHeap : List (QueuedPayment D)
  /-- What happened in the latest pass, newest first. -/
  passLog : List (PassEntry D)
  workers : List (PaymentWorker D)
  answered : List (QueuedPayment D)
  dropped : List (QueuedPayment D)
  nextPayment : Nat
  /-- By payment number, the reservations that nobody has let go of yet. -/
  reservations : Pool Nat AmuletReservation
  /-- The permits left in each pool. -/
  free : WorkerPool → Nat
  cache : SplitCache D

inductive PaymentEvent (D : Type)
  /-- A caller takes a sequence for its payment. -/
  | number (request : PaymentRequest D)
  | send (i : Nat)
  | giveUp (sequence : Nat)
  /-- The scheduler, idle or backing off, receives one payment. -/
  | receive
  /-- It drains the channel; a pass begins if there is a connection for the workers. -/
  | begin (connected : Bool)
  /-- The pass goes on to its next await. -/
  | step (now : Instant)
  | submitEnds (i : Nat)
      (result : Except SubmitError (ExecuteTransactionResponse × List (CreatedContract D)))
      (now : Instant)
  /-- The guard of a worker that failed early or panicked. -/
  | guardReleases (i : Nat) (now : Instant)
  /-- A worker has finished, or panicked. -/
  | workerEnds (i : Nat)
  /-- Another user of the cache. -/
  | cache (e : CacheEvent D)

namespace PaymentWorld

variable {D : Type} (w : PaymentWorld D)

/-! ## Callers -/

/-- Sent in any order; the channel keeps the order of the sends. -/
def send (i : Nat) : PaymentWorld D :=
  match w.numbered[i]? with
  | some p =>
    { w with
      numbered := w.numbered.eraseIdx i
      submitted := w.submitted ++ [p]
      channel := w.channel ++ [p] }
  | none => w

def number (request : PaymentRequest D) : PaymentWorld D :=
  { w with
    nextSequence := w.nextSequence + 1
    numbered := w.numbered ++ [⟨request.priority, w.nextSequence, request⟩] }

/-! ## The scheduler -/

def receive : PaymentWorld D :=
  match w.channel with
  | [] => w
  | p :: rest => { w with channel := rest, heap := w.heap ++ [p] }

def begin (connected : Bool) : PaymentWorld D :=
  let drained := { w with channel := [], heap := w.heap ++ w.channel }
  if connected then
    { drained with passing := true, passHeap := drained.heap, passLog := [] }
  else drained

def log (p : QueuedPayment D) (how : Handling) : PaymentWorld D :=
  { w with passLog := .handled p how :: w.passLog }

def defer (p : QueuedPayment D) : PaymentWorld D :=
  { w with hand := none, deferred := w.deferred ++ [p] }

variable [Decimal D]

/-- The best payment, once screened: an allocation nobody waits for is dropped, an amount out of
range is answered. -/
def pop : PaymentWorld D :=
  match takeBest QueuedPayment.outranks w.heap with
  | none => { w with passing := false, heap := w.deferred, deferred := [] }
  | some (p, rest) =>
    let w := { w with heap := rest }
    if decide (p.sequence ∈ w.gaveUp) && p.request.isAllocate then
      { w with dropped := w.dropped ++ [p] }.log p .dropped
    else
      match paymentTarget p.request with
      | none => { w with answered := w.answered ++ [p] }.log p .answered
      | some target => { w with hand := some (.screened p target) }

/-- Defer what could not be funded. -/
def choose (p : QueuedPayment D) (estimatedCc : D) (selected : List (CachedHolding D)) :
    PaymentWorld D :=
  let insufficient :=
    p.request.isAllocation && !selected.isEmpty && selectionShort selected estimatedCc
  if (selected.isEmpty || insufficient) && Decimal.lt Decimal.zero estimatedCc then
    (w.defer p).log p .unfunded
  else { w with hand := some (.selected p (selected.map CachedHolding.contractId)) }

/-- Among the selectable amulets, without the splitter reserve or with it. -/
def selectAt (excludeSplitterReserve : Bool) (estimatedCc : D) (now : Instant) :
    List (CachedHolding D) :=
  selectAmuletsForAllocation (w.cache.holdings.getSelectable ccInstrument excludeSplitterReserve now)
    estimatedCc

omit [Decimal D] in
/-- Reserve the amulets, if there are any. -/
def reserve (p : QueuedPayment D) (cids : List String) (now : Instant) : PaymentWorld D :=
  let number := w.nextPayment
  let w := { w with nextPayment := number + 1 }
  match if cids.isEmpty then (true, w.cache.holdings)
    else w.cache.holdings.ccReserve cids (paymentId number) now with
  | (false, _) => (w.defer p).log p .unreserved
  | (true, holdings) =>
    { w with
      hand := some (.reserved p number)
      reservations := w.reservations.insert number ⟨cids, now⟩
      cache := { w.cache with holdings } }

omit [Decimal D] in
/-- A worker of the payment's own pool, if there is a permit left. -/
def acquire (p : QueuedPayment D) (number : Nat) : PaymentWorld D :=
  if w.free p.request.pool = 0 then { w with hand := some (.poolFull p number) }.log p .poolFull
  else
    { w with
      hand := none
      free := Function.update w.free p.request.pool (w.free p.request.pool - 1)
      workers := w.workers ++ [PaymentWorker.mk p number true] }.log p .dispatched

/-- Let go of the reservation; `ended` says how its amulets are left. -/
def letGo (number : Nat) (ended : SplitCache D → List String → SplitCache D) : PaymentWorld D :=
  match w.reservations.lookup number with
  | some r =>
    { w with
      reservations := w.reservations.erase number
      cache := ended w.cache r.cids }
  | none => w

def step (now : Instant) : PaymentWorld D :=
  match w.hand with
  | none => w.pop
  | some (.screened p target) =>
    let selected := if p.request.isAllocation then w.selectAt true target now else []
    if p.request.isAllocation && selected.isEmpty then
      { w with hand := some (.retrying p target) }
    else w.choose p target selected
  | some (.retrying p target) => w.choose p target (w.selectAt false target now)
  | some (.selected p cids) => w.reserve p cids now
  | some (.reserved p number) => w.acquire p number
  | some (.poolFull p number) =>
    (w.letGo number fun c cids =>
      { c with holdings := c.holdings.releaseReservations cids }).defer p

/-! ## Workers -/

omit [Decimal D] in
/-- The answer is sent and the permit returned. -/
def workerEnds (i : Nat) : PaymentWorld D :=
  match w.workers[i]? with
  | some worker =>
    { w with
      workers := w.workers.set i { worker with running := false }
      free := Function.update w.free worker.payment.request.pool
        (w.free worker.payment.request.pool + 1)
      passLog := .workerEnded worker.payment.request.pool :: w.passLog }
  | none => w

/-- How a submit that has returned ends in the cache. -/
def submitEnd
    (result : Except SubmitError (ExecuteTransactionResponse × List (CreatedContract D))) :
    SubmitterEnd D :=
  .submitted (match result with
    | .ok (response, created) => .ok response created
    | .error e => .error e)

/-- The worker at `i` lets go of its amulets. -/
def workerLetsGo (i : Nat) (e : SubmitterEnd D) (now : Instant) : PaymentWorld D :=
  match w.workers[i]? with
  | some worker => w.letGo worker.number fun c cids => executeAllocate c cids e now
  | none => w

/-! ## Runs -/

def apply : PaymentEvent D → PaymentWorld D
  | .number request => w.number request
  | .send i => w.send i
  | .giveUp sequence => { w with gaveUp := sequence :: w.gaveUp }
  | .receive => w.receive
  | .begin connected => w.begin connected
  | .step now => w.step now
  | .submitEnds i result now => w.workerLetsGo i (submitEnd result) now
  | .guardReleases i now => w.workerLetsGo i .early now
  | .workerEnds i => w.workerEnds i
  | .cache e => { w with cache := { w.cache with holdings := w.cache.holdings.apply e } }

omit [Decimal D] in
/-- A worker submits and ends while it runs, only an allocation submits, and nobody else reserves
under a payment's id. -/
def Allows : PaymentEvent D → Prop
  | .receive => w.passing = false
  | .begin _ => w.passing = false ∧ w.heap ≠ []
  | .step _ => w.passing = true
  | .submitEnds i _ _ =>
    ∃ worker, w.workers[i]? = some worker ∧ worker.running = true ∧
      worker.payment.request.isAllocate = true
  | .workerEnds i => ∃ worker, w.workers[i]? = some worker ∧ worker.running = true
  | .cache (.reserve _ kind _) => ∀ number, kind ≠ .v1Payment (paymentId number)
  | _ => True

omit [Decimal D] in
/-- `PaymentQueue::new`: nothing is queued, and every permit is left. -/
def start (cache : SplitCache D) (limits : WorkerPool → Nat) : PaymentWorld D where
  nextSequence := 0
  numbered := []
  submitted := []
  channel := []
  gaveUp := []
  heap := []
  deferred := []
  hand := none
  passing := false
  passHeap := []
  passLog := []
  workers := []
  answered := []
  dropped := []
  nextPayment := 2 ^ 63 - 1
  reservations := ∅
  free := limits
  cache

end PaymentWorld

end BookAgent.CloudAgent
