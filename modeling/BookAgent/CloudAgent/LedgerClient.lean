import BookAgent.Lib.RetryLoop
import BookAgent.Lib.Sha256
import BookAgent.TxVerifier.VerifyAndHash

/-!
# The ledger client

What `submit_transaction` and `submit_atomic_transaction` of `ledger_client.rs` share: the
classification of failures, the scan of the ledger's updates, the retry budget, and what is
done with a prepared transaction up to its signature. Clocks are in milliseconds; an error is
its text. Error reports, the health breaker and log lines are left out.
-/

namespace BookAgent.CloudAgent

open BookAgent.Lib BookAgent.TxVerifier

/-! ## Messages -/

/-- `PrepareTransactionResponse` and `PrepareAtomicTransactionResponse`, after their signatures
were verified. -/
structure Prepared where
  transactionId : String
  commandId : String
  preparedTransaction : Bytes
  /-- In base64. -/
  preparedTransactionHash : String
  hashingSchemeVersion : String
  feesJson : String

structure ExecuteTransactionResponse where
  success : Bool
  updateId : String
  contractId : Option String
  errorMessage : Option String
  deriving DecidableEq

inductive LedgerEvent
  | created (contractId : String)
  | other

structure LedgerTransaction where
  commandId : String
  updateId : String
  events : List LedgerEvent

/-- `GetUpdatesResponse`; `none` is an update that is not a transaction. -/
abbrev LedgerUpdate := Option LedgerTransaction

def cancelDvpProposalOp : Int := 20

def rejectDvpProposalOp : Int := 21

/-- Operations that nobody waits for. -/
def isBackgroundOp (operation : Int) : Bool :=
  decide (operation = cancelDvpProposalOp) || decide (operation = rejectDvpProposalOp)

/-! ## Failures -/

def atomicExecuteAmbiguous : String := "ATOMIC_EXECUTE_AMBIGUOUS"

def executeOutcomeUnknown : String := "EXECUTE_OUTCOME_UNKNOWN"

def quoteWindowClosedText : String := "QUOTE_WINDOW_CLOSED"

/-- The transaction may have committed. -/
def isAmbiguousExecuteError (error : String) : Bool :=
  containsText error atomicExecuteAmbiguous || containsText error executeOutcomeUnknown

/-- `str::starts_with`. -/
def startsWithText (text start : String) : Bool := start.toList.isPrefixOf text.toList

/-- `str::strip_prefix`. -/
def stripPrefixText (text start : String) : Option String :=
  if startsWithText text start then some (String.ofList (text.toList.drop start.length)) else none

def preSubmitTexts : List String :=
  ["Transaction session ", "fees_json mismatch", "Invalid party ID format",
    "Missing offset in ledger-end response"]

/-- The failure proves that nothing was submitted or committed. -/
def serverFailureIsDefinite (msg : String) : Bool :=
  if containsText msg "SUBMISSION_ALREADY_IN_FLIGHT" then false
  else if startsWithText msg "Transaction failed:" || preSubmitTexts.any (startsWithText msg) ||
      containsText msg "/state/ledger-end" then true
  else
    match stripPrefixText msg "Execute submission failed (HTTP " with
    | none => false
    | some rest =>
      if startsWithText rest "4" then !startsWithText rest "408"
      else if startsWithText rest "5" then
        ["BACKPRESSURE", "INACTIVE_CONTRACTS", "LOCKED_CONTRACTS"].any (containsText rest)
      else false

/-- After an execute that may still commit no failure is clear. -/
def markUncertain (error : String) (prior : Option String) : String :=
  match prior with
  | some command =>
    if isAmbiguousExecuteError error then error
    else executeOutcomeUnknown ++ s!": earlier execute {command} may still commit: {error}"
  | none => error

theorem isAmbiguousExecuteError_unknown (rest : String) :
    isAmbiguousExecuteError (executeOutcomeUnknown ++ rest) = true := by
  unfold isAmbiguousExecuteError
  rw [containsText_append_left, Bool.or_true]

theorem isAmbiguousExecuteError_atomic (rest : String) :
    isAmbiguousExecuteError (atomicExecuteAmbiguous ++ rest) = true := by
  unfold isAmbiguousExecuteError
  rw [containsText_append_left, Bool.true_or]

theorem isAmbiguous_markUncertain (error command : String) :
    isAmbiguousExecuteError (markUncertain error (some command)) = true := by
  unfold markUncertain
  dsimp only
  split_ifs with h
  · exact h
  · rw [String.append_assoc]
    exact isAmbiguousExecuteError_unknown _

/-! ## The update scan -/

inductive UpdateScan
  | found (response : ExecuteTransactionResponse)
  | notFound
  /-- The scan did not cover the whole range. -/
  | unknown (why : String)

def LedgerEvent.createdId : LedgerEvent → Option String
  | .created contractId => some contractId
  | .other => none

def scanUpdates (updates : List LedgerUpdate) (complete : Bool) (commandId : String) : UpdateScan :=
  match updates.findSome? fun u => u.filter fun tx => decide (tx.commandId = commandId) with
  | some tx => .found
      { success := true
        updateId := tx.updateId
        contractId := tx.events.findSome? LedgerEvent.createdId
        errorMessage := none }
  | none =>
    if complete then .notFound
    else .unknown s!"updates scan incomplete after {updates.length} update(s)"

/-- What the ledger answers to one scan. -/
structure ScanAnswers where
  ledgerEnd : Except String Int
  updates : Except String (List LedgerUpdate × Bool)

def findTransactionInUpdates (a : ScanAnswers) (commandId : String) (startOffset : Int) :
    UpdateScan :=
  match a.ledgerEnd with
  | .error e => .unknown s!"ledger end unavailable: {e}"
  | .ok currentEnd =>
    if currentEnd ≤ startOffset then .notFound
    else
      match a.updates with
      | .ok (updates, complete) => scanUpdates updates complete commandId
      | .error e => .unknown s!"updates scan failed: {e}"

/-- A transaction that is found is among the updates. -/
theorem mem_updates_of_found {a : ScanAnswers} {commandId : String} {startOffset : Int}
    {response : ExecuteTransactionResponse}
    (h : findTransactionInUpdates a commandId startOffset = .found response) :
    ∃ updates complete tx, a.updates = .ok (updates, complete) ∧ some tx ∈ updates ∧
      tx.commandId = commandId := by
  unfold findTransactionInUpdates at h
  split at h
  · cases h
  · split_ifs at h
    split at h
    · rename_i updates complete hupdates
      unfold scanUpdates at h
      split at h
      · rename_i tx hfind
        obtain ⟨update, hmem, hfilter⟩ := List.exists_of_findSome?_eq_some hfind
        obtain ⟨rfl, hid⟩ := Option.filter_eq_some_iff.mp hfilter
        exact ⟨updates, complete, tx, hupdates, hmem, of_decide_eq_true hid⟩
      · split_ifs at h
    · cases h

/-! ## Retries -/

def baseDelayMs : Nat := 1000

def maxBackoffMs : Nat := 30000

def inactiveRetryDelay : Nat := 2000

def submitBudgetMs : Nat := 120000

/-- The delay before the retry of the `attempt`th attempt; `jitter` is drawn up to a tenth. -/
def backoffMs (attempt : Nat) (jitter : Nat → Nat) : Nat :=
  let delay := min (baseDelayMs * 2 ^ attempt) maxBackoffMs
  delay + jitter (delay / 10 + 1)

structure SubmitBudget where
  deadline : Nat

namespace SubmitBudget

def fitsAt (b : SubmitBudget) (now wait last : Nat) : Bool :=
  decide (now < b.deadline) && decide (wait + last ≤ b.deadline - now)

/-- Whether another attempt may start after `wait`, the last one having taken `last`. -/
def allowsRetry (b : SubmitBudget) (attemptNo maxRetries now wait last : Nat) : Bool :=
  decide (attemptNo < maxRetries) && b.fitsAt now wait last

end SubmitBudget

/-! ## Verify and sign -/

section Sign

/-- What the caller of a submit passes besides the request itself. -/
structure SubmitCall where
  operation : Int
  expectation : OperationExpectation
  dryRun : Bool
  force : Bool
  maxRetries : Nat

/-- What happens to a prepared transaction besides what it contains. -/
structure SignAnswers where
  /-- The verification panics or takes too long. -/
  verifyLost : Option String
  /-- The private key cannot be read. -/
  keyLost : Option String

/-- A transaction that was signed and whose execute was sent. -/
structure Signed where
  attempt : Nat
  prepared : Prepared
  warnings : List String
  hash : Bytes

/-- What stays of the executes before, with one more. -/
theorem forall_mem_append_singleton {P : Signed → Prop} {signed : List Signed} {s : Signed}
    (h : ∀ t ∈ signed, P t) (hs : P s) : ∀ t ∈ signed ++ [s], P t := by
  intro t ht
  rcases List.mem_append.mp ht with ht | ht
  · exact h t ht
  · exact List.mem_singleton.mp ht ▸ hs

variable [VerifierCrates]

def verifyBounded (prepared : Prepared) (expectation : OperationExpectation) (a : SignAnswers) :
    Except String VerificationResult :=
  match a.verifyLost with
  | some e => .error e
  | none => verifyAndHash prepared.preparedTransaction prepared.preparedTransactionHash
      prepared.hashingSchemeVersion expectation

/-- Verify a prepared transaction and sign its hash; otherwise the submit ends here. -/
def signPrepared {ρ : Type} (call : SubmitCall) (notExecuted : ρ) (refusal : String)
    (prepared : Prepared) (a : SignAnswers) (attempt : Nat) : Except (Except String ρ) Signed :=
  match verifyBounded prepared call.expectation a with
  | .error e => .error (.error e)
  | .ok verification =>
    if call.dryRun then .error (.ok notExecuted)
    else if verification.accepted = false ∧ call.force = false then
      .error (.error (refusal ++ verification.rejectionReason.getD ""))
    else
      match hashToSign verification prepared.preparedTransactionHash, a.keyLost with
      | .error e, _ => .error (.error e)
      | .ok _, some e => .error (.error e)
      | .ok hash, none => .ok ⟨attempt, prepared, verification.warnings, hash⟩

variable {ρ : Type} {call : SubmitCall} {notExecuted : ρ} {refusal : String} {prepared : Prepared}
  {a : SignAnswers} {attempt : Nat} {s : Signed}

theorem signPrepared_eq_ok (h : signPrepared call notExecuted refusal prepared a attempt = .ok s) :
    s.attempt = attempt ∧ s.prepared = prepared ∧ call.dryRun = false := by
  unfold signPrepared at h
  split at h
  · cases h
  · split_ifs at h with hdry
    split at h
    · cases h
    · cases h
    · obtain rfl := Except.ok.inj h
      exact ⟨rfl, rfl, Bool.not_eq_true _ ▸ hdry⟩

/-- A submit that ends well before the execute is a dry run. -/
theorem notExecuted_of_signPrepared {response : ρ}
    (h : signPrepared call notExecuted refusal prepared a attempt = .error (.ok response)) :
    response = notExecuted := by
  unfold signPrepared at h
  split at h
  · cases h
  · split_ifs at h
    · cases h
      rfl
    · cases h
    · split at h <;> cases h

/-- What is signed without force was verified. -/
theorem checked_of_signPrepared (hforce : call.force = false)
    (h : signPrepared call notExecuted refusal prepared a attempt = .ok s) :
    Checked prepared.preparedTransaction prepared.preparedTransactionHash
      prepared.hashingSchemeVersion call.expectation s.warnings s.hash := by
  unfold signPrepared at h
  split at h
  · cases h
  · rename_i verification hverified
    split_ifs at h with hdry hrefused
    have accepted : verification.accepted = true := by
      cases hacc : verification.accepted with
      | true => rfl
      | false => exact absurd ⟨hacc, hforce⟩ hrefused
    unfold verifyBounded at hverified
    split at hverified
    · cases hverified
    · split at h
      · cases h
      · cases h
      · rename_i hash hhash hkey
        obtain rfl := Except.ok.inj h
        exact checked_of_accepted hverified accepted hhash

end Sign

/-! ## A submit to try -/

/-- Only the empty message, in which every field is missing, and the empty text decode. -/
abbrev plainCrates : VerifierCrates where
  toHex := pairedHex
  sha256 := Sha256.hash
  decodePrepared bytes := if bytes = [] then some ⟨none, none⟩ else none
  base64Decode text := if text = "" then .ok [] else .error "Invalid byte"

def multicall : SubmitCall where
  operation := 0
  expectation := .executeMulticall "us" 1
  dryRun := false
  force := false
  maxRetries := 5

end BookAgent.CloudAgent
