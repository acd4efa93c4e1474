import BookAgent.CloudAgent.SpentHoldings
import BookAgent.CloudAgent.SplitWorker
import BookAgent.CloudAgent.SubmitTransaction

/-!
# Submitters

What the workers that submit a transaction of their own do to its inputs when it ends: an
allocation (`payment_queue.rs`), a merge (`merge_worker.rs`), a ladder split
(`split_worker.rs`) and a multicall settle (`accept_settle.rs`). Each reserves its inputs in
the shared cache, where other tasks go on, and reads the error that it gets in its own way.
-/

namespace BookAgent.CloudAgent

open BookAgent.Lib

/-! ## How a submit ends -/

/-- An `anyhow::Error`: its own text, and those of its causes. -/
structure SubmitError where
  message : String
  causes : List String

namespace SubmitError

/-- `{e:#}` -/
def chain (e : SubmitError) : String := ": ".intercalate (e.message :: e.causes)

def isAmbiguous (e : SubmitError) : Bool := isAmbiguousExecuteError e.chain

/-- The error's own text names inactive contracts. -/
def isInactive (e : SubmitError) : Bool := containsText e.message "INACTIVE_CONTRACTS"

/-- Whether a failed multicall execute may still have committed. -/
def outcomeUnknown (e : SubmitError) : Bool :=
  e.isAmbiguous || containsText e.chain "DUPLICATE_COMMAND"

end SubmitError

/-- A contract that a transaction created, with the amount its text reads as. -/
structure CreatedContract (D : Type) where
  contractId : String
  templateId : String
  amount : Option D

inductive SubmitEnd (D : Type)
  | ok (response : ExecuteTransactionResponse) (created : List (CreatedContract D))
  | error (e : SubmitError)
  | panic

/-- A submitter ends before its submit, or with it. -/
inductive SubmitterEnd (D : Type)
  | early
  | submitted (e : SubmitEnd D)

section Submitters

variable {D : Type} [Decimal D]

/-! ## Cache updates -/

def templateAmulet : String := "#splice-amulet:Splice.Amulet:Amulet"

/-- Amulets from change or a split. -/
def newAmulets (created : List (CreatedContract D)) (now : Instant) : List (CachedHolding D) :=
  created.filterMap fun c =>
    if containsText c.templateId "Amulet" && !containsText c.templateId "Rules" then
      (c.amount.filter fun amount => !Decimal.le amount Decimal.zero).map fun amount =>
        { contractId := c.contractId
          templateId := templateAmulet
          instrument := "CC"
          amount
          createdEventBlob := none
          synchronizerId := ""
          discoveredAt := now }
    else none

/-- After a successful transaction. -/
def processTxResult (c : HoldingsCache D) (inputCids : List String)
    (response : ExecuteTransactionResponse) (created : List (CreatedContract D)) (now : Instant) :
    HoldingsCache D :=
  let marked := if inputCids.isEmpty then c else c.markConsumed inputCids response.updateId now
  let amulets := newAmulets created now
  if amulets.isEmpty then marked else marked.addCreated amulets

def handleInactiveContracts (c : HoldingsCache D) (inputCids : List String) (now : Instant) :
    HoldingsCache D :=
  if inputCids.isEmpty then c else c.markConsumed inputCids "inactive" now

/-! ## The four submitters -/

/-- `execute_allocate`; its guard releases the inputs until the submit has ended. -/
def executeAllocate (c : SplitCache D) (cids : List String) (e : SubmitterEnd D) (now : Instant) :
    SplitCache D :=
  match e with
  | .early | .submitted .panic => { c with holdings := c.holdings.releaseReservations cids }
  | .submitted (.ok response created) =>
    { c with holdings := processTxResult c.holdings cids response created now }
  | .submitted (.error e) =>
    if e.isInactive then { c with holdings := handleInactiveContracts c.holdings cids now }
    else { c with holdings := c.holdings.releaseReservations cids }

/-- `check_and_merge_instrument`, with a guard of the same kind. -/
def checkAndMergeInstrument (key : String) (total : D) (c : SplitCache D) (cids : List String)
    (e : SubmitterEnd D) (now : Instant) : SplitCache D :=
  match e with
  | .early | .submitted .panic => { c with holdings := c.holdings.releaseReservations cids }
  | .submitted (.ok response _) =>
    { c with holdings := c.holdings.markConsumed cids response.updateId now }.recordPendingSplit
      key [(total, 1)] now
  | .submitted (.error e) =>
    if e.isInactive then { c with holdings := c.holdings.markConsumed cids "inactive" now }
    else { c with holdings := c.holdings.releaseReservations cids }

/-- The end of `ensure_denominations`; it has no guard. -/
def ensureDenominations (key : String) (splits : List (D × Nat)) (c : SplitCache D)
    (cids : List String) (e : SubmitterEnd D) (now : Instant) : SplitCache D :=
  match e with
  | .submitted (.ok response _) =>
    { c with holdings := c.holdings.markConsumed cids response.updateId now }.recordPendingSplit
      key splits now
  | .early | .submitted (.error _) => { c with holdings := c.holdings.releaseReservations cids }
  | .submitted .panic => c

/-- Consumed on commit, kept reserved while the outcome is unknown, released otherwise. -/
def recordExecute (c : HoldingsCache D) (cids : List String)
    (result : Except SubmitError (ExecuteTransactionResponse × List (CreatedContract D)))
    (now : Instant) : HoldingsCache D :=
  match result with
  | .ok (response, created) =>
    if response.success then (processTxResult c cids response created now).releaseReservations cids
    else c.releaseReservations cids
  | .error e => if e.outcomeUnknown then c else c.releaseReservations cids

/-- `execute_watched`; a panic ends the task before it records anything. -/
def executeWatched (c : SplitCache D) (cids : List String) (e : SubmitterEnd D) (now : Instant) :
    SplitCache D :=
  match e with
  | .early => { c with holdings := c.holdings.releaseReservations cids }
  | .submitted (.ok response created) =>
    { c with holdings := recordExecute c.holdings cids (.ok (response, created)) now }
  | .submitted (.error e) => { c with holdings := recordExecute c.holdings cids (.error e) now }
  | .submitted .panic => c

inductive Submitter (D : Type)
  | allocate
  | merge (key : String) (total : D)
  | split (key : String) (splits : List (D × Nat))
  | settle

/-- What the submitter leaves in the cache. -/
def Submitter.ended (s : Submitter D) (c : SplitCache D) (cids : List String) (e : SubmitterEnd D)
    (now : Instant) : SplitCache D :=
  match s with
  | allocate => executeAllocate c cids e now
  | merge key total => checkAndMergeInstrument key total c cids e now
  | split key splits => ensureDenominations key splits c cids e now
  | settle => executeWatched c cids e now

omit [Decimal D] in
/-- A call of the split worker ends in the same way, step by step. -/
theorem ensureDenominations_of_submitEnds {key : String} {w : SplitWorld D} {i : Nat}
    {cids : List String} {splits : List (D × Nat)} (now : Instant)
    (hstage : w.calls[i]? = some (.submitting cids splits)) :
    (∀ (text : String) (e : SubmitError), (w.submitEnds i (.error text) now).cache =
      ensureDenominations key splits w.cache cids (.submitted (.error e)) now) ∧
    ∀ (response : ExecuteTransactionResponse) (created : List (CreatedContract D)),
      (w.submitEnds i (.ok response.updateId) now).cache.recordPendingSplit key splits now =
        ensureDenominations key splits w.cache cids (.submitted (.ok response created)) now := by
  unfold SplitWorld.submitEnds
  rw [hstage]
  exact ⟨fun _ _ => rfl, fun _ _ => rfl⟩

/-! ## What is known of the transaction -/

inductive TxFate
  | committed
  | unknown
  | notCommitted
  deriving DecidableEq

/-- What the end of a submit says by itself. -/
def SubmitterEnd.fate : SubmitterEnd D → TxFate
  | .early => .notCommitted
  | .submitted (.ok _ _) => .committed
  | .submitted (.error e) => if e.isAmbiguous then .unknown else .notCommitted
  | .submitted .panic => .unknown

/-- What the submitter acts on: a guard counts a panic as not committed, an allocation or a merge
takes inactive inputs as spent, and a settle keeps a duplicate command open. An ambiguous error is
told apart by the settle alone; what the others make of it is left open. -/
def Submitter.fate (s : Submitter D) (e : SubmitterEnd D) : Option TxFate :=
  match e with
  | .early => some .notCommitted
  | .submitted (.ok _ _) => some .committed
  | .submitted (.error e) =>
    match s with
    | settle => some (if e.outcomeUnknown then .unknown else .notCommitted)
    | allocate | merge _ _ =>
      if e.isAmbiguous then none else some (if e.isInactive then .committed else .notCommitted)
    | split _ _ => if e.isAmbiguous then none else some .notCommitted
  | .submitted .panic =>
    match s with
    | allocate | merge _ _ => some .notCommitted
    | split _ _ | settle => some .unknown

/-- The inputs as the ledger has them: consumed, left as they were, or released and not consumed. -/
def InputsFollow (before after : HoldingsCache D) (cids : List String) (fate : TxFate) : Prop :=
  ∀ cid ∈ cids,
    match fate with
    | .committed => cid ∈ after.consumed ∧ cid ∉ after.reserved
    | .unknown => (cid ∈ after.consumed ↔ cid ∈ before.consumed) ∧
        after.reserved.lookup cid = before.reserved.lookup cid
    | .notCommitted => (cid ∈ after.consumed ↔ cid ∈ before.consumed) ∧ cid ∉ after.reserved

end Submitters

end BookAgent.CloudAgent
