import BookAgent.CloudAgent.LedgerClient

/-!
# `submit_atomic_transaction`

The retry loop of the atomic path: an execute is retried only after a failure that proves
that nothing was committed, and while the quote's signed window is open.
-/

namespace BookAgent.CloudAgent

open BookAgent.Lib BookAgent.TxVerifier

structure AtomicExecuteResponse where
  success : Bool
  updateId : String
  message : String
  createdContractsJson : String

/-- What the ledger service and the clocks answer to one attempt. -/
structure AtomicAnswers extends SignAnswers where
  prepare : Except String Prepared
  execute : Except String AtomicExecuteResponse
  /-- The time in microseconds at the start, and at the two checks after a failure. -/
  startMicros : Int
  failMicros : Int
  bailMicros : Int
  now : Nat
  elapsed : Nat
  jitter : Nat → Nat

structure AtomicWorld where
  startedAt : Nat
  answers : Nat → AtomicAnswers

def precheckValidityMarginMicros : Int := 10000000

/-- The signed deadline of an operation that has one. -/
def quoteDeadlineOf : OperationExpectation → Option Int64
  | .atomicDvpSettle _ _ _ _ _ _ _ _ _ _ _ _ _ _ validUntil _ _ => some validUntil
  | _ => none

/-- No room is left for another attempt. -/
def quoteWindowClosed (deadlineMicros : Option Int64) (nowMicros : Int) : Bool :=
  match deadlineMicros with
  | some validUntil =>
    decide (validUntil.toInt ≤ min (nowMicros + precheckValidityMarginMicros) (2 ^ 63 - 1))
  | none => false

abbrev AtomicAttempt := Attempt Unit (Except String AtomicExecuteResponse)

section Submit

variable [VerifierCrates] (call : SubmitCall) (w : AtomicWorld)

def windowClosed (nowMicros : Int) : Bool :=
  quoteWindowClosed (quoteDeadlineOf call.expectation) nowMicros

def allowsAtomicRetry (attempt wait : Nat) : Bool :=
  let a := w.answers attempt
  SubmitBudget.allowsRetry ⟨w.startedAt + submitBudgetMs⟩ (attempt + 1) call.maxRetries a.now wait
    a.elapsed

/-- The service reports that the execute failed. -/
def atomicFailed (attempt : Nat) (error : String) : AtomicAttempt :=
  let a := w.answers attempt
  if containsText error "DUPLICATE_COMMAND" then
    .stop () (.error (atomicExecuteAmbiguous ++
      s!": DUPLICATE_COMMAND (an earlier submission likely committed): {error}"))
  else if serverFailureIsDefinite error = false then
    .stop () (.error (atomicExecuteAmbiguous ++
      s!": execute reported a failure after submission (tx may have committed): {error}"))
  else if containsText error "INACTIVE_CONTRACTS" then
    if !windowClosed call a.failMicros && allowsAtomicRetry call w attempt inactiveRetryDelay then
      .again ()
    else if windowClosed call a.bailMicros then
      .stop () (.error (quoteWindowClosedText ++ s!": {error}"))
    else .stop () (.error s!"INACTIVE_CONTRACTS after {attempt + 1} attempts: {error}")
  else if windowClosed call a.failMicros then
    .stop () (.error (quoteWindowClosedText ++ s!": {error}"))
  else if allowsAtomicRetry call w attempt (backoffMs attempt a.jitter) then .again ()
  else .stop () (.error s!"Atomic transaction failed: {error}")

def afterAtomicExecute (attempt : Nat) : AtomicAttempt :=
  match (w.answers attempt).execute with
  | .error e => .stop () (.error (atomicExecuteAmbiguous ++
      s!": execute failed with transport error (tx may have committed): {e}"))
  | .ok r => if r.success then .stop () (.ok r) else atomicFailed call w attempt r.message

def atomicDryRunResponse : AtomicExecuteResponse where
  success := false
  updateId := ""
  message := "dry run — not executed"
  createdContractsJson := ""

def atomicAttempt (attempt : Nat) : List Signed × AtomicAttempt :=
  let a := w.answers attempt
  if decide (0 < attempt) && windowClosed call a.startMicros then
    ([], .stop () (.error (quoteWindowClosedText ++ ": window closed during retry backoff")))
  else
    match a.prepare with
    | .error e => ([], .stop () (.error e))
    | .ok prepared =>
      match signPrepared call atomicDryRunResponse "Atomic transaction verification REJECTED: "
        prepared a.toSignAnswers attempt with
      | .error result => ([], .stop () result)
      | .ok signed => ([signed], afterAtomicExecute call w attempt)

/-- What was signed and executed, and the result. -/
def submitAtomicTransaction : List Signed × Except String AtomicExecuteResponse :=
  let run := attempts (fun n _ => atomicAttempt call w n)
    (.error s!"Atomic transaction submit: retry loop exhausted after {call.maxRetries} attempt(s)")
    call.maxRetries 0 ()
  (run.1, run.2.2)

end Submit

/-! ## What commits -/

/-- The executes that commit: one that succeeds does, and one that definitely fails does not. -/
structure AtomicWorld.Honest (w : AtomicWorld) (commits : Nat → Bool) : Prop where
  success : ∀ n r, (w.answers n).execute = .ok r → r.success = true → commits n = true
  definite : ∀ n r, (w.answers n).execute = .ok r → r.success = false →
    serverFailureIsDefinite r.message = true → commits n = false

/-- What a submit does after an execute. -/
inductive AtomicStep (w : AtomicWorld) (n : Nat) : AtomicAttempt → Prop
  | succeeded (r : AtomicExecuteResponse) (hexecute : (w.answers n).execute = .ok r)
      (hsuccess : r.success = true) : AtomicStep w n (.stop () (.ok r))
  | unknown (error : String) (hambiguous : isAmbiguousExecuteError error = true) :
      AtomicStep w n (.stop () (.error error))
  | refused (r : AtomicExecuteResponse) (hexecute : (w.answers n).execute = .ok r)
      (hfails : r.success = false) (hdefinite : serverFailureIsDefinite r.message = true)
      (next : AtomicAttempt) (hnext : next = .again () ∨ ∃ error, next = .stop () (.error error)) :
      AtomicStep w n next

section Steps

variable {call : SubmitCall} {w : AtomicWorld} {n : Nat}

theorem atomicStep_failed {r : AtomicExecuteResponse} (hexecute : (w.answers n).execute = .ok r)
    (hfails : r.success = false) : AtomicStep w n (atomicFailed call w n r.message) := by
  unfold atomicFailed
  dsimp only
  by_cases hduplicate : containsText r.message "DUPLICATE_COMMAND" = true
  · rw [if_pos hduplicate]
    exact .unknown _ (isAmbiguousExecuteError_atomic _)
  rw [if_neg hduplicate]
  cases hdefinite : serverFailureIsDefinite r.message with
  | false =>
    rw [if_pos rfl]
    exact .unknown _ (isAmbiguousExecuteError_atomic _)
  | true =>
    rw [if_neg Bool.noConfusion]
    refine .refused r hexecute hfails hdefinite _ ?_
    split_ifs
    · exact .inl rfl
    · exact .inr ⟨_, rfl⟩
    · exact .inr ⟨_, rfl⟩
    · exact .inr ⟨_, rfl⟩
    · exact .inl rfl
    · exact .inr ⟨_, rfl⟩

theorem atomicStep : AtomicStep w n (afterAtomicExecute call w n) := by
  unfold afterAtomicExecute
  cases hexecute : (w.answers n).execute with
  | error e => exact .unknown _ (isAmbiguousExecuteError_atomic _)
  | ok r =>
    dsimp only
    split_ifs with hsuccess
    · exact .succeeded r hexecute hsuccess
    · exact atomicStep_failed hexecute (Bool.not_eq_true _ ▸ hsuccess)

end Steps

/-! ## Whole runs -/

/-- At most one execute commits, and the result says what became of it. -/
structure AtomicOutcome (signed : List Signed) (result : Except String AtomicExecuteResponse)
    (commits : Nat → Bool) : Prop where
  once : ∀ s ∈ signed, ∀ t ∈ signed, commits s.attempt = true → commits t.attempt = true →
    s.attempt = t.attempt
  committed : ∀ r, result = .ok r → r.success = true → ∃ s ∈ signed, commits s.attempt = true
  uncommitted : ∀ e, result = .error e → isAmbiguousExecuteError e = false →
    ∀ s ∈ signed, commits s.attempt = false

section Runs

variable {commits : Nat → Bool} {signed : List Signed}

/-- Nothing has committed, and this ends the submit. -/
theorem AtomicOutcome.ended {r : Except String AtomicExecuteResponse}
    (hnone : ∀ s ∈ signed, commits s.attempt = false)
    (hfails : ∀ resp, r = .ok resp → resp.success = false) : AtomicOutcome signed r commits := by
  refine ⟨fun s hs t _ hcommits => ?_, fun resp hresp hsuccess => ?_, fun _ _ _ => hnone⟩
  · rw [hnone s hs] at hcommits
    cases hcommits
  · rw [hfails resp hresp] at hsuccess
    cases hsuccess

/-- Only the last execute may have committed. -/
theorem once_of_last {s : Signed} (hnone : ∀ t ∈ signed, commits t.attempt = false) :
    ∀ t ∈ signed ++ [s], ∀ u ∈ signed ++ [s], commits t.attempt = true → commits u.attempt = true →
      t.attempt = u.attempt := by
  have last {t : Signed} (ht : t ∈ signed ++ [s]) (hcommits : commits t.attempt = true) : t = s := by
    rcases List.mem_append.mp ht with ht | ht
    · rw [hnone t ht] at hcommits
      cases hcommits
    · exact List.mem_singleton.mp ht
  intro t ht u hu hct hcu
  rw [last ht hct, last hu hcu]

variable [VerifierCrates] {call : SubmitCall} {w : AtomicWorld}

/-- An attempt ends before its execute, or goes on after it. -/
theorem atomicAttempt_cases {n : Nat} {t : List Signed} {next : AtomicAttempt}
    (h : atomicAttempt call w n = (t, next)) :
    (t = [] ∧ ∃ r, next = .stop () r ∧ ∀ resp, r = .ok resp → resp.success = false) ∨
      ∃ s, t = [s] ∧ s.attempt = n ∧ AtomicStep w n next := by
  unfold atomicAttempt at h
  dsimp only at h
  split at h
  · obtain ⟨rfl, rfl⟩ := Prod.mk.inj h
    exact .inl ⟨rfl, _, rfl, fun resp hresp => by cases hresp⟩
  · split at h
    · obtain ⟨rfl, rfl⟩ := Prod.mk.inj h
      exact .inl ⟨rfl, _, rfl, fun resp hresp => by cases hresp⟩
    · split at h
      · rename_i result hsign
        obtain ⟨rfl, rfl⟩ := Prod.mk.inj h
        refine .inl ⟨rfl, _, rfl, fun resp hresp => ?_⟩
        subst hresp
        rw [notExecuted_of_signPrepared hsign]
        rfl
      · rename_i s hsign
        obtain ⟨rfl, rfl⟩ := Prod.mk.inj h
        exact .inr ⟨s, rfl, (signPrepared_eq_ok hsign).1, atomicStep⟩

/-- What an atomic submit says of its executes; a dry run has none that commits. -/
theorem atomicOutcome_submit (honest : w.Honest commits) :
    AtomicOutcome (submitAtomicTransaction call w).1 (submitAtomicTransaction call w).2 commits ∧
      ∀ resp, (submitAtomicTransaction call w).2 = .ok resp → resp.success = false →
        ∀ s ∈ (submitAtomicTransaction call w).1, commits s.attempt = false := by
  refine attempts_rule (I := fun _ signed _ => ∀ s ∈ signed, commits s.attempt = false)
    (Q := fun signed _ r => AtomicOutcome signed r commits ∧ ∀ resp, r = .ok resp →
      resp.success = false → ∀ s ∈ signed, commits s.attempt = false) ?_ ?_ ?_ _ 0 [] () ?_
  · intro n signed _ t _ hnone hattempt
    rcases atomicAttempt_cases hattempt with ⟨-, r, hnext, -⟩ | ⟨s, rfl, rfl, hstep⟩
    · cases hnext
    · cases hstep with
      | refused r hexecute hfails hdefinite =>
        exact forall_mem_append_singleton hnone (honest.definite _ r hexecute hfails hdefinite)
  · intro n signed _ t _ result hnone hattempt
    rcases atomicAttempt_cases hattempt with ⟨rfl, r, hnext, hfails⟩ | ⟨s, rfl, rfl, hstep⟩
    · cases hnext
      rw [List.append_nil]
      exact ⟨.ended hnone hfails, fun _ _ _ => hnone⟩
    · have last : s ∈ signed ++ [s] := List.mem_append_right _ (List.mem_singleton.mpr rfl)
      cases hstep with
      | succeeded r hexecute hsuccess =>
        refine ⟨⟨once_of_last hnone, fun _ _ _ => ⟨s, last, honest.success _ r hexecute hsuccess⟩,
          fun e he => by cases he⟩, fun resp hresp hfails => ?_⟩
        obtain rfl := Except.ok.inj hresp
        rw [hsuccess] at hfails
        cases hfails
      | unknown e hambiguous =>
        refine ⟨⟨once_of_last hnone, fun r hr => (by cases hr), fun e' he hclear => ?_⟩,
          fun r hr => (by cases hr)⟩
        obtain rfl := Except.error.inj he
        rw [hambiguous] at hclear
        cases hclear
      | refused r hexecute hfails hdefinite _ hnext =>
        obtain ⟨error, hnext⟩ := hnext.resolve_left (by rintro h; cases h)
        cases hnext
        exact ⟨.ended (forall_mem_append_singleton hnone
          (honest.definite _ r hexecute hfails hdefinite)) fun resp hresp => (by cases hresp),
          fun r hr => (by cases hr)⟩
  · exact fun n signed _ hnone => ⟨.ended hnone fun resp hresp => (by cases hresp),
      fun r hr => (by cases hr)⟩
  · exact fun s hs => absurd hs List.not_mem_nil

/-- Whatever is answered and whatever commits, at most one execute of an atomic submit commits,
a success means that one did, and a clear error that none did. -/
theorem atomic_submit_at_most_once (honest : w.Honest commits) :
    AtomicOutcome (submitAtomicTransaction call w).1 (submitAtomicTransaction call w).2 commits :=
  (atomicOutcome_submit honest).1

end Runs

section Example

local instance atomicCrates : VerifierCrates := plainCrates

/-- The first execute is refused, and the reply to the second one is lost. -/
def refusedAndLostAtomic : AtomicWorld where
  startedAt := 0
  answers n :=
    { verifyLost := none
      keyLost := none
      prepare := .ok ⟨"t", s!"c{n}", [], "", "V2", ""⟩
      execute :=
        if n = 0 then .ok ⟨false, "", "Transaction failed: contention", ""⟩
        else .error "connection reset"
      startMicros := 0
      failMicros := 0
      bailMicros := 0
      now := 0
      elapsed := 0
      jitter := fun _ => 0 }

/-- The second execute has committed, and the error is ambiguous. -/
theorem atomic_submit_at_most_once_lost :
    (submitAtomicTransaction multicall refusedAndLostAtomic).1.map (fun s => s.attempt) = [0, 1] ∧
      AtomicOutcome (submitAtomicTransaction multicall refusedAndLostAtomic).1
        (submitAtomicTransaction multicall refusedAndLostAtomic).2 fun n => decide (n = 1) := by
  refine ⟨by decide +kernel, atomic_submit_at_most_once ⟨fun n r hexecute hsuccess => ?_,
    fun n r hexecute _ _ => ?_⟩⟩
  · cases n with
    | zero =>
      obtain rfl := Except.ok.inj hexecute
      cases hsuccess
    | succ n => cases hexecute
  · cases n with
    | zero => rfl
    | succ n => cases hexecute

end Example

end BookAgent.CloudAgent
