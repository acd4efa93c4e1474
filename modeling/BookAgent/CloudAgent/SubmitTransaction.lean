import BookAgent.CloudAgent.LedgerClient

/-!
# `submit_transaction`

The retry loop around prepare, verify, sign and execute, with its scans of the ledger. Every
attempt has its answers, and which executes commit is the ledger's to say: a reply that is
lost tells nothing, and a scan sees what has committed so far.
-/

namespace BookAgent.CloudAgent

open BookAgent.Lib BookAgent.TxVerifier

/-- What the ledger service, the ledger and the clock answer to one attempt. -/
structure SubmitAnswers extends SignAnswers where
  prepare : Except String Prepared
  execute : Except String ExecuteTransactionResponse
  scan : ScanAnswers
  /-- When a retry is decided on, how long the attempt has taken, and the jitter. -/
  now : Nat
  elapsed : Nat
  jitter : Nat → Nat

/-- The answers to a whole submit. -/
structure SubmitWorld where
  startedAt : Nat
  ledgerEnd : Except String Int
  answers : Nat → SubmitAnswers

namespace SubmitWorld

/-- The offset from which the ledger is scanned; zero turns the scans off. -/
def startOffset (w : SubmitWorld) : Int :=
  match w.ledgerEnd with
  | .ok offset => offset
  | .error _ => 0

def budget (w : SubmitWorld) : SubmitBudget := ⟨w.startedAt + submitBudgetMs⟩

end SubmitWorld

inductive ExecuteRecovery
  | recovered (response : ExecuteTransactionResponse)
  | retry (error : String)
  | stop (error : String)

/-- After a failed execute, look for the command on the ledger. -/
def recoverAfterExecuteError (error commandId : String) (startOffset : Int) (a : ScanAnswers) :
    ExecuteRecovery :=
  if startOffset ≤ 0 then .retry error
  else
    match findTransactionInUpdates a commandId startOffset with
    | .found response => .recovered response
    | .notFound => .retry error
    | .unknown why => .stop (executeOutcomeUnknown ++
        s!": ledger scan incomplete ({why}); not retried: {error}")

abbrev SubmitAttempt := Attempt (Option String) (Except String ExecuteTransactionResponse)

section Submit

variable [VerifierCrates] (call : SubmitCall) (w : SubmitWorld)

def allowsRetryAfter (attempt wait : Nat) : Bool :=
  let a := w.answers attempt
  w.budget.allowsRetry (attempt + 1) call.maxRetries a.now wait a.elapsed

def backoff (attempt : Nat) : Nat := backoffMs attempt (w.answers attempt).jitter

/-- Again after the backoff, or the error. -/
def retryOr (attempt : Nat) (error : String) (uncertain : Option String) : SubmitAttempt :=
  if allowsRetryAfter call w attempt (backoff w attempt) then .again uncertain
  else .stop uncertain (.error error)

/-- The execute brought no answer. -/
def executeLost (attempt : Nat) (error commandId : String) (uncertain : Option String) :
    SubmitAttempt :=
  match recoverAfterExecuteError error commandId w.startOffset (w.answers attempt).scan with
  | .recovered response => .stop uncertain (.ok response)
  | .stop error => .stop uncertain (.error error)
  | .retry error => retryOr call w attempt error (uncertain.or (some commandId))

/-- The service reports that the execute failed. -/
def executeFailed (attempt : Nat) (error commandId : String) (uncertain : Option String) :
    SubmitAttempt :=
  let a := w.answers attempt
  let failed : Except String ExecuteTransactionResponse := .error s!"Transaction failed: {error}"
  if containsText error "SEQUENCER_BACKPRESSURE" && isBackgroundOp call.operation then
    .stop uncertain failed
  else if containsText error "DUPLICATE_COMMAND" then
    match if 0 < w.startOffset then findTransactionInUpdates a.scan commandId w.startOffset
      else .notFound with
    | .found response => .stop uncertain (.ok response)
    | _ => .stop uncertain (.error s!"Command already submitted (DUPLICATE_COMMAND): {error}")
  else if containsText error "INACTIVE_CONTRACTS" then
    if isBackgroundOp call.operation then .stop uncertain failed
    else if allowsRetryAfter call w attempt inactiveRetryDelay then .again uncertain
    else .stop uncertain (.error s!"INACTIVE_CONTRACTS after {attempt + 1} attempts: {error}")
  else if containsText error "LOCKED_CONTRACTS" && isBackgroundOp call.operation then
    .stop uncertain failed
  else if serverFailureIsDefinite error then
    retryOr call w attempt s!"Transaction failed: {error}" uncertain
  else
    match recoverAfterExecuteError error commandId w.startOffset a.scan with
    | .recovered response => .stop uncertain (.ok response)
    | .stop error => .stop uncertain (.error error)
    | .retry _ =>
      retryOr call w attempt s!"Transaction failed: {error}" (uncertain.or (some commandId))

/-- The text of a failure the service reports. -/
def ExecuteTransactionResponse.failure (r : ExecuteTransactionResponse) : String :=
  r.errorMessage.getD "unknown error"

def afterExecute (attempt : Nat) (commandId : String) (uncertain : Option String) : SubmitAttempt :=
  match (w.answers attempt).execute with
  | .error e => executeLost call w attempt e commandId uncertain
  | .ok r =>
    if r.success then .stop uncertain (.ok r)
    else executeFailed call w attempt r.failure commandId uncertain

def dryRunResponse : ExecuteTransactionResponse where
  success := false
  updateId := ""
  contractId := none
  errorMessage := some "dry run — not executed"

/-- One attempt; `uncertain` names an execute that failed but may still commit. -/
def submitAttempt (attempt : Nat) (uncertain : Option String) : List Signed × SubmitAttempt :=
  let a := w.answers attempt
  match a.prepare with
  | .error e => ([], .stop uncertain (.error e))
  | .ok prepared =>
    match signPrepared call dryRunResponse "Transaction verification REJECTED: " prepared
      a.toSignAnswers attempt with
    | .error result => ([], .stop uncertain result)
    | .ok signed => ([signed], afterExecute call w attempt prepared.commandId uncertain)

/-- `submit_attempts`: what was signed and executed, the uncertain command, and the result. -/
def submitAttempts : List Signed × Option String × Except String ExecuteTransactionResponse :=
  attempts (submitAttempt call w)
    (.error s!"Transaction submit: retry loop exhausted after {call.maxRetries} attempt(s)")
    call.maxRetries 0 none

/-- What was signed and executed, and the result. -/
def submitTransaction : List Signed × Except String ExecuteTransactionResponse :=
  let run := submitAttempts call w
  (run.1, run.2.2.mapError fun e => markUncertain e run.2.1)

end Submit

/-! ## What commits -/

/-- The executes that commit, in a world that keeps to what its answers say: an execute that
succeeds commits, one that definitely fails does not, and a command on the ledger was
committed by one of its executes. -/
structure SubmitWorld.Honest (w : SubmitWorld) (commits : Nat → Bool) : Prop where
  success : ∀ n r, (w.answers n).execute = .ok r → r.success = true → commits n = true
  definite : ∀ n r, (w.answers n).execute = .ok r → r.success = false →
    serverFailureIsDefinite r.failure = true → commits n = false
  scanned : ∀ n p updates complete tx, (w.answers n).prepare = .ok p →
    (w.answers n).scan.updates = .ok (updates, complete) → some tx ∈ updates →
    tx.commandId = p.commandId →
      ∃ m ≤ n, ∃ q, (w.answers m).prepare = .ok q ∧ q.commandId = p.commandId ∧ commits m = true

section Runs

variable [VerifierCrates] {call : SubmitCall} {w : SubmitWorld} {commits : Nat → Bool}
  {attempt : Nat} {uncertain : Option String}

/-- The execute of the attempt was sent. -/
def Sends (signed : List Signed) (w : SubmitWorld) (n : Nat) : Prop :=
  ∃ s ∈ signed, s.attempt = n ∧ (w.answers n).prepare = .ok s.prepared

/-- What has been sent before the `n`th attempt: one execute for each attempt before. -/
structure SentBefore (w : SubmitWorld) (n : Nat) (signed : List Signed) : Prop where
  sent : ∀ m < n, Sends signed w m
  attempts : ∀ s ∈ signed, s.attempt < n ∧ (w.answers s.attempt).prepare = .ok s.prepared

omit [VerifierCrates] in
theorem sentBefore_zero : SentBefore w 0 [] :=
  ⟨fun m h => absurd h (Nat.not_lt_zero m), fun _ h => absurd h List.not_mem_nil⟩

/-- An attempt that signs. -/
theorem submitAttempt_signed {t : List Signed} {next : SubmitAttempt}
    (h : submitAttempt call w attempt uncertain = (t, next)) :
    (t = [] ∧ ∃ r, next = .stop uncertain r ∧ ∀ resp, r = .ok resp → resp.success = false) ∨
      ∃ s, t = [s] ∧ s.attempt = attempt ∧ (w.answers attempt).prepare = .ok s.prepared ∧
        next = afterExecute call w attempt s.prepared.commandId uncertain := by
  unfold submitAttempt at h
  dsimp only at h
  split at h
  · obtain ⟨rfl, rfl⟩ := Prod.mk.inj h
    exact .inl ⟨rfl, _, rfl, fun resp hresp => by cases hresp⟩
  · rename_i prepared hprepared
    split at h
    · rename_i result hsign
      obtain ⟨rfl, rfl⟩ := Prod.mk.inj h
      refine .inl ⟨rfl, _, rfl, fun resp hresp => ?_⟩
      subst hresp
      rw [notExecuted_of_signPrepared hsign]
      rfl
    · rename_i signed hsign
      obtain ⟨rfl, rfl⟩ := Prod.mk.inj h
      obtain ⟨hattempt, rfl, -⟩ := signPrepared_eq_ok hsign
      exact .inr ⟨signed, rfl, hattempt, hprepared, rfl⟩

omit [VerifierCrates] in
theorem SentBefore.step {n : Nat} {signed : List Signed} {s : Signed} (h : SentBefore w n signed)
    (hattempt : s.attempt = n) (hprepare : (w.answers n).prepare = .ok s.prepared) :
    SentBefore w (n + 1) (signed ++ [s]) := by
  refine ⟨fun m hm => ?_, fun s' hs => ?_⟩
  · rcases Nat.lt_succ_iff_lt_or_eq.mp hm with hlt | rfl
    · obtain ⟨s', hs', hrest⟩ := h.sent m hlt
      exact ⟨s', List.mem_append_left _ hs', hrest⟩
    · exact ⟨s, List.mem_append_right _ (List.mem_singleton.mpr rfl), hattempt, hprepare⟩
  · rcases List.mem_append.mp hs with hs | hs
    · exact ⟨Nat.lt_succ_of_lt (h.attempts s' hs).1, (h.attempts s' hs).2⟩
    · obtain rfl := List.mem_singleton.mp hs
      exact ⟨hattempt ▸ Nat.lt_succ_self _, hattempt ▸ hprepare⟩

end Runs

end BookAgent.CloudAgent
