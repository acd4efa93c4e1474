import BookAgent.CloudAgent.SubmitTransaction

/-!
# What a submit leaves on the ledger

How many of a submit's commands commit, and whether its result says so.
-/

namespace BookAgent.CloudAgent

open BookAgent.Lib BookAgent.TxVerifier

/-- The answer to the execute proves that nothing was committed. -/
def ClearlyRefused (a : SubmitAnswers) : Prop :=
  ∃ r, a.execute = .ok r ∧ r.success = false ∧ serverFailureIsDefinite r.failure = true

/-- The ledger is not scanned, or a complete scan does not find the command. -/
def ScanMisses (w : SubmitWorld) (n : Nat) : Prop :=
  ∃ p, (w.answers n).prepare = .ok p ∧ (w.startOffset ≤ 0 ∨
    findTransactionInUpdates (w.answers n).scan p.commandId w.startOffset = .notFound)

/-- The scan after a duplicate finds the command. -/
def ScanFinds (w : SubmitWorld) (n : Nat) : Prop :=
  ∃ p r, (w.answers n).prepare = .ok p ∧ 0 < w.startOffset ∧
    findTransactionInUpdates (w.answers n).scan p.commandId w.startOffset = .found r

/-- The execute failed with this text, which proves nothing. -/
def FailsUnclearly (a : SubmitAnswers) (error : String) : Prop :=
  ∃ r, a.execute = .ok r ∧ r.success = false ∧ serverFailureIsDefinite r.failure = false ∧
    r.failure = error

/-- The failure proves nothing, and the submit goes on or ends as if nothing was committed. -/
def Overlooks (call : SubmitCall) (w : SubmitWorld) (n : Nat) : Prop :=
  ∃ error, FailsUnclearly (w.answers n) error ∧
    ((containsText error "SEQUENCER_BACKPRESSURE" = true ∧ isBackgroundOp call.operation = true) ∨
      (containsText error "DUPLICATE_COMMAND" = true ∧ ¬ ScanFinds w n) ∨
      (containsText error "DUPLICATE_COMMAND" = false ∧
        (containsText error "INACTIVE_CONTRACTS" = true ∨
          (containsText error "LOCKED_CONTRACTS" = true ∧ isBackgroundOp call.operation = true))))

/-- A failure that is the end of an operation nobody waits for. -/
def GivesUp (call : SubmitCall) (error : String) : Prop :=
  isBackgroundOp call.operation = true ∧ (containsText error "SEQUENCER_BACKPRESSURE" = true ∨
    containsText error "INACTIVE_CONTRACTS" = true ∨ containsText error "LOCKED_CONTRACTS" = true)

/-- A new command is prepared although the last one may still commit. -/
def RetriesBlindly (call : SubmitCall) (w : SubmitWorld) (n : Nat) : Prop :=
  (∃ e, (w.answers n).execute = .error e ∧ ScanMisses w n ∧
    allowsRetryAfter call w n (backoff w n) = true) ∨
  ∃ error, FailsUnclearly (w.answers n) error ∧ containsText error "DUPLICATE_COMMAND" = false ∧
    ¬ GivesUp call error ∧
    ((containsText error "INACTIVE_CONTRACTS" = true ∧
        allowsRetryAfter call w n inactiveRetryDelay = true) ∨
      (containsText error "INACTIVE_CONTRACTS" = false ∧ ScanMisses w n ∧
        allowsRetryAfter call w n (backoff w n) = true))

/-! ## What follows an execute -/

/-- What a submit does after an execute. -/
inductive ExecuteStep (call : SubmitCall) (w : SubmitWorld) (n : Nat) (p : Prepared)
    (uncertain : Option String) : SubmitAttempt → Prop
  | succeeded (r : ExecuteTransactionResponse) (hexecute : (w.answers n).execute = .ok r)
      (hsuccess : r.success = true) : ExecuteStep call w n p uncertain (.stop uncertain (.ok r))
  | found (r : ExecuteTransactionResponse)
      (hfound : findTransactionInUpdates (w.answers n).scan p.commandId w.startOffset = .found r) :
      ExecuteStep call w n p uncertain (.stop uncertain (.ok r))
  | unknown (error : String) (hambiguous : isAmbiguousExecuteError error = true) :
      ExecuteStep call w n p uncertain (.stop uncertain (.error error))
  | refused (hrefused : ClearlyRefused (w.answers n)) (error : String) :
      ExecuteStep call w n p uncertain (.stop uncertain (.error error))
  | refusedRetry (hrefused : ClearlyRefused (w.answers n)) :
      ExecuteStep call w n p uncertain (.again uncertain)
  | overlooked (hoverlooks : Overlooks call w n) (error : String) :
      ExecuteStep call w n p uncertain (.stop uncertain (.error error))
  | overlookedRetry (hoverlooks : Overlooks call w n) (hblind : RetriesBlindly call w n) :
      ExecuteStep call w n p uncertain (.again uncertain)
  | noted (error : String) :
      ExecuteStep call w n p uncertain (.stop (uncertain.or (some p.commandId)) (.error error))
  | notedRetry (hblind : RetriesBlindly call w n) :
      ExecuteStep call w n p uncertain (.again (uncertain.or (some p.commandId)))

section Steps

variable {call : SubmitCall} {w : SubmitWorld} {n : Nat} {p : Prepared} {uncertain : Option String}

/-- A scan decides, or the command is noted as uncertain. -/
theorem executeStep_scanned {error : String} {report : String → String}
    (hprepare : (w.answers n).prepare = .ok p)
    (hblind : ScanMisses w n → allowsRetryAfter call w n (backoff w n) = true →
      RetriesBlindly call w n) :
    ExecuteStep call w n p uncertain
      (match recoverAfterExecuteError error p.commandId w.startOffset (w.answers n).scan with
      | .recovered response => .stop uncertain (.ok response)
      | .stop error => .stop uncertain (.error error)
      | .retry error => retryOr call w n (report error) (uncertain.or (some p.commandId))) := by
  have again (error : String) (hmiss : ScanMisses w n) : ExecuteStep call w n p uncertain
      (retryOr call w n error (uncertain.or (some p.commandId))) := by
    unfold retryOr
    split_ifs with hallowed
    · exact .notedRetry (hblind hmiss hallowed)
    · exact .noted error
  unfold recoverAfterExecuteError
  by_cases hoff : w.startOffset ≤ 0
  · rw [if_pos hoff]
    exact again _ ⟨p, hprepare, .inl hoff⟩
  · rw [if_neg hoff]
    cases hscan : findTransactionInUpdates (w.answers n).scan p.commandId w.startOffset with
    | found r => exact .found r hscan
    | notFound => exact again _ ⟨p, hprepare, .inr hscan⟩
    | unknown why => exact .unknown _ (isAmbiguousExecuteError_unknown _)

/-- After a clear refusal nothing is in doubt. -/
theorem executeStep_refused {r : ExecuteTransactionResponse} (hrefused : ClearlyRefused (w.answers n))
    (hdefinite : serverFailureIsDefinite r.failure = true) :
    ExecuteStep call w n p uncertain (executeFailed call w n r.failure p.commandId uncertain) := by
  unfold executeFailed retryOr
  dsimp only
  rw [if_pos hdefinite]
  split_ifs
  · exact .refused hrefused _
  · split
    · rename_i response hfound
      exact .found response hfound
    · exact .refused hrefused _
  · exact .refused hrefused _
  · exact .refused hrefused _
  · exact .refusedRetry hrefused
  · exact .refused hrefused _
  · exact .refused hrefused _
  · exact .refusedRetry hrefused
  · exact .refused hrefused _

/-- After a failure that proves nothing. -/
theorem executeStep_unclear {r : ExecuteTransactionResponse}
    (hprepare : (w.answers n).prepare = .ok p) (hunclear : FailsUnclearly (w.answers n) r.failure) :
    ExecuteStep call w n p uncertain (executeFailed call w n r.failure p.commandId uncertain) := by
  have hdefinite : serverFailureIsDefinite r.failure = false := by
    obtain ⟨r', -, -, hdefinite, hfailure⟩ := hunclear
    rw [← hfailure]
    exact hdefinite
  unfold executeFailed
  dsimp only
  by_cases hpressure : containsText r.failure "SEQUENCER_BACKPRESSURE" &&
      isBackgroundOp call.operation
  · rw [if_pos hpressure]
    exact .overlooked ⟨_, hunclear, .inl (Bool.and_eq_true_iff.mp hpressure)⟩ _
  rw [if_neg hpressure]
  cases hduplicate : containsText r.failure "DUPLICATE_COMMAND" with
  | true =>
    rw [if_pos rfl]
    split
    · rename_i response hfound
      split_ifs at hfound
      exact .found response hfound
    · rename_i hnone
      refine .overlooked ⟨_, hunclear, .inr (.inl ⟨hduplicate, ?_⟩)⟩ _
      rintro ⟨p', response, hp', hoffset, hfound⟩
      obtain rfl := Except.ok.inj (hprepare.symm.trans hp')
      exact hnone response (by rw [if_pos hoffset, hfound])
  | false =>
    rw [if_neg Bool.false_ne_true]
    cases hinactive : containsText r.failure "INACTIVE_CONTRACTS" with
    | true =>
      have overlooks : Overlooks call w n :=
        ⟨_, hunclear, .inr (.inr ⟨hduplicate, .inl hinactive⟩)⟩
      rw [if_pos rfl]
      split_ifs with hbackground hallowed
      · exact .overlooked overlooks _
      · exact .overlookedRetry overlooks (.inr ⟨_, hunclear, hduplicate,
          fun hgivesUp => hbackground hgivesUp.1, .inl ⟨hinactive, hallowed⟩⟩)
      · exact .overlooked overlooks _
    | false =>
      rw [if_neg Bool.false_ne_true]
      by_cases hlocked : containsText r.failure "LOCKED_CONTRACTS" && isBackgroundOp call.operation
      · rw [if_pos hlocked]
        exact .overlooked ⟨_, hunclear, .inr (.inr ⟨hduplicate,
          .inr (Bool.and_eq_true_iff.mp hlocked)⟩)⟩ _
      · rw [if_neg hlocked, hdefinite, if_neg Bool.false_ne_true]
        have waited : ¬ GivesUp call r.failure := by
          rintro ⟨hbackground, hpressed | hinactive' | hheld⟩
          · exact hpressure (Bool.and_eq_true_iff.mpr ⟨hpressed, hbackground⟩)
          · exact Bool.false_ne_true (hinactive.symm.trans hinactive')
          · exact hlocked (Bool.and_eq_true_iff.mpr ⟨hheld, hbackground⟩)
        exact executeStep_scanned hprepare fun hmiss hallowed =>
          .inr ⟨_, hunclear, hduplicate, waited, .inr ⟨hinactive, hmiss, hallowed⟩⟩

theorem executeStep (hprepare : (w.answers n).prepare = .ok p) :
    ExecuteStep call w n p uncertain (afterExecute call w n p.commandId uncertain) := by
  unfold afterExecute
  cases hexecute : (w.answers n).execute with
  | error e =>
    exact executeStep_scanned hprepare fun hmiss hallowed => .inl ⟨e, hexecute, hmiss, hallowed⟩
  | ok r =>
    dsimp only
    split_ifs with hsuccess
    · exact .succeeded r hexecute hsuccess
    · have failed : r.success = false := Bool.not_eq_true _ ▸ hsuccess
      cases hdefinite : serverFailureIsDefinite r.failure with
      | true => exact executeStep_refused ⟨r, hexecute, failed, hdefinite⟩ hdefinite
      | false => exact executeStep_unclear hprepare ⟨r, hexecute, failed, hdefinite, rfl⟩

end Steps

/-! ## Whole runs -/

section Runs

variable [VerifierCrates] {call : SubmitCall} {w : SubmitWorld} {commits : Nat → Bool}

/-- At most one of the commands that were executed commits. -/
def AtMostOneCommits (signed : List Signed) (commits : Nat → Bool) : Prop :=
  ∀ s ∈ signed, ∀ t ∈ signed, commits s.attempt = true → commits t.attempt = true →
    s.prepared.commandId = t.prepared.commandId

/-- The result says what became of the executes. -/
structure Truthful (signed : List Signed) (result : Except String ExecuteTransactionResponse)
    (commits : Nat → Bool) : Prop where
  committed : ∀ r, result = .ok r → r.success = true → ∃ s ∈ signed, commits s.attempt = true
  uncommitted : ∀ e, result = .error e → isAmbiguousExecuteError e = false →
    ∀ s ∈ signed, commits s.attempt = false

/-- The same before the uncertain command is named in the error. -/
structure Reported (signed : List Signed) (uncertain : Option String)
    (result : Except String ExecuteTransactionResponse) (commits : Nat → Bool) : Prop where
  committed : ∀ r, result = .ok r → r.success = true → ∃ s ∈ signed, commits s.attempt = true
  uncommitted : ∀ e, result = .error e → uncertain = none → isAmbiguousExecuteError e = false →
    ∀ s ∈ signed, commits s.attempt = false

omit [VerifierCrates] in
theorem SentBefore.same_prepared {n : Nat} {signed : List Signed} {s t : Signed}
    (h : SentBefore w n signed) (hs : s ∈ signed) (ht : t ∈ signed) (hst : s.attempt = t.attempt) :
    s.prepared = t.prepared := by
  have left := (h.attempts s hs).2
  rw [hst] at left
  exact Except.ok.inj (left.symm.trans (h.attempts t ht).2)

omit [VerifierCrates] in
theorem not_commits_of_refused (honest : w.Honest commits) {n : Nat}
    (h : ClearlyRefused (w.answers n)) : commits n = false := by
  obtain ⟨r, hexecute, hsuccess, hdefinite⟩ := h
  exact honest.definite n r hexecute hsuccess hdefinite

omit [VerifierCrates] in
/-- A command that is found was committed by an execute of the run. -/
theorem committed_of_found (honest : w.Honest commits) {n : Nat} {signed : List Signed} {p : Prepared}
    {r : ExecuteTransactionResponse} (hsent : SentBefore w (n + 1) signed)
    (hprepare : (w.answers n).prepare = .ok p)
    (hfound : findTransactionInUpdates (w.answers n).scan p.commandId w.startOffset = .found r) :
    ∃ s ∈ signed, commits s.attempt = true := by
  obtain ⟨updates, complete, tx, hupdates, hmem, hid⟩ := mem_updates_of_found hfound
  obtain ⟨m, hm, q, -, -, hcommits⟩ :=
    honest.scanned n p updates complete tx hprepare hupdates hmem hid
  obtain ⟨s, hs, rfl, -⟩ := hsent.sent m (Nat.lt_succ_of_le hm)
  exact ⟨s, hs, hcommits⟩

omit [VerifierCrates] in
/-- If nothing before the last execute commits, at most one command does. -/
theorem atMostOneCommits_of_last {n : Nat} {signed : List Signed} (hsent : SentBefore w (n + 1) signed)
    (hbefore : ∀ s ∈ signed, s.attempt < n → commits s.attempt = false) :
    AtMostOneCommits signed commits := by
  have last {s : Signed} (hs : s ∈ signed) (hcommits : commits s.attempt = true) : s.attempt = n := by
    refine Nat.eq_of_lt_succ_of_not_lt (hsent.attempts s hs).1 fun hlt => ?_
    rw [hbefore s hs hlt] at hcommits
    cases hcommits
  intro s hs t ht hcs hct
  rw [hsent.same_prepared hs ht ((last hs hcs).trans (last ht hct).symm)]

/-- The rule of a submit: what every execute preserves, and what then holds of its result. -/
theorem submitAttempts_rule {I : List Signed → Option String → Prop}
    {Q : List Signed → Option String → Except String ExecuteTransactionResponse → Prop}
    (hbase : I [] none)
    (hended : ∀ signed u r, I signed u → (∀ resp, r = .ok resp → resp.success = false) →
      Q signed u r)
    (hagain : ∀ signed u s u', SentBefore w (s.attempt + 1) (signed ++ [s]) → I signed u →
      ExecuteStep call w s.attempt s.prepared u (.again u') → I (signed ++ [s]) u')
    (hstop : ∀ signed u s u' r, SentBefore w (s.attempt + 1) (signed ++ [s]) → I signed u →
      ExecuteStep call w s.attempt s.prepared u (.stop u' r) → Q (signed ++ [s]) u' r) :
    Q (submitAttempts call w).1 (submitAttempts call w).2.1 (submitAttempts call w).2.2 := by
  have stepped {n : Nat} {signed t : List Signed} {u : Option String} {next : SubmitAttempt}
      (hsent : SentBefore w n signed) (h : submitAttempt call w n u = (t, next)) :
      (t = [] ∧ ∃ r, next = .stop u r ∧ ∀ resp, r = .ok resp → resp.success = false) ∨
        ∃ s, t = [s] ∧ s.attempt = n ∧ SentBefore w (n + 1) (signed ++ [s]) ∧
          ExecuteStep call w s.attempt s.prepared u next := by
    rcases submitAttempt_signed h with ended | ⟨s, rfl, rfl, hprepare, rfl⟩
    · exact .inl ended
    · exact .inr ⟨s, rfl, rfl, hsent.step rfl hprepare, executeStep hprepare⟩
  unfold submitAttempts
  refine attempts_rule (I := fun n signed u => SentBefore w n signed ∧ I signed u) ?_ ?_ ?_ _ 0 [] none
    ⟨sentBefore_zero, hbase⟩
  · rintro n signed u t u' ⟨hsent, inv⟩ hattempt
    rcases stepped hsent hattempt with ⟨-, r, hnext, -⟩ | ⟨s, rfl, rfl, hlater, hstep⟩
    · cases hnext
    · exact ⟨hlater, hagain _ _ _ _ hlater inv hstep⟩
  · rintro n signed u t u' r ⟨hsent, inv⟩ hattempt
    rcases stepped hsent hattempt with ⟨rfl, r', hnext, hfails⟩ | ⟨s, rfl, rfl, hlater, hstep⟩
    · cases hnext
      rw [List.append_nil]
      exact hended _ _ _ inv hfails
    · exact hstop _ _ _ _ _ hlater inv hstep
  · rintro n signed u ⟨-, inv⟩
    exact hended _ _ _ inv fun resp hresp => by cases hresp

/-- If no attempt retries blindly, at most one command of a submit commits. -/
theorem submit_commits_one (hcareful : ∀ n, ¬ RetriesBlindly call w n) (honest : w.Honest commits) :
    AtMostOneCommits (submitTransaction call w).1 commits := by
  refine submitAttempts_rule (I := fun signed _ => ∀ s ∈ signed, commits s.attempt = false)
    (Q := fun signed _ _ => AtMostOneCommits signed commits) ?_ ?_ ?_ ?_
  · exact fun s hs => absurd hs List.not_mem_nil
  · intro signed u r none_commits _ s hs t _ hcommits
    rw [none_commits s hs] at hcommits
    cases hcommits
  · intro signed u s u' hsent none_commits hstep
    refine forall_mem_append_singleton none_commits ?_
    cases hstep with
    | refusedRetry hrefused => exact not_commits_of_refused honest hrefused
    | overlookedRetry _ hblind => exact absurd hblind (hcareful _)
    | notedRetry hblind => exact absurd hblind (hcareful _)
  · intro signed u s u' r hsent none_commits _
    refine atMostOneCommits_of_last hsent fun t ht hlt => ?_
    rcases List.mem_append.mp ht with ht | ht
    · exact none_commits t ht
    · obtain rfl := List.mem_singleton.mp ht
      exact absurd hlt (Nat.lt_irrefl _)

omit [VerifierCrates] in
open Classical in
/-- Two executes that were not clearly refused may both commit. -/
theorem both_may_commit (honest : w.Honest commits) {signed : List Signed} {s t : Signed}
    (hs : s ∈ signed) (ht : t ∈ signed) (hfirst : ¬ ClearlyRefused (w.answers s.attempt))
    (hsecond : ¬ ClearlyRefused (w.answers t.attempt))
    (hother : s.prepared.commandId ≠ t.prepared.commandId) :
    ∃ commits', w.Honest commits' ∧ ¬ AtMostOneCommits signed commits' := by
  refine ⟨fun n => decide (¬ ClearlyRefused (w.answers n)), ⟨?_, ?_, ?_⟩, fun one => ?_⟩
  · intro n r hexecute hsuccess
    refine decide_eq_true ?_
    rintro ⟨r', hexecute', hfails, -⟩
    obtain rfl := Except.ok.inj (hexecute.symm.trans hexecute')
    rw [hsuccess] at hfails
    cases hfails
  · intro n r hexecute hfails hdefinite
    exact decide_eq_false (not_not.mpr ⟨r, hexecute, hfails, hdefinite⟩)
  · intro n p updates complete tx hprepare hupdates hmem hid
    obtain ⟨m, hm, q, hq, hsame, hcommits⟩ :=
      honest.scanned n p updates complete tx hprepare hupdates hmem hid
    refine ⟨m, hm, q, hq, hsame, decide_eq_true fun hrefused => ?_⟩
    rw [not_commits_of_refused honest hrefused] at hcommits
    cases hcommits
  · exact hother (one s hs t ht (decide_eq_true hfirst) (decide_eq_true hsecond))

omit [VerifierCrates] in
/-- A result that ends a submit without one more execute. -/
theorem Reported.ended {signed : List Signed} {u : Option String}
    {r : Except String ExecuteTransactionResponse}
    (hnone : u = none → ∀ s ∈ signed, commits s.attempt = false)
    (hfails : ∀ resp, r = .ok resp → resp.success = false) : Reported signed u r commits :=
  ⟨fun resp hresp hsuccess => absurd hsuccess (by rw [hfails resp hresp]; exact Bool.noConfusion),
    fun _ _ hu _ => hnone hu⟩

omit [VerifierCrates] in
/-- An error that leaves nothing in doubt, or is not clear itself. -/
theorem Reported.error {signed : List Signed} {u : Option String} {e : String}
    (h : isAmbiguousExecuteError e = true ∨ (u = none → ∀ s ∈ signed, commits s.attempt = false)) :
    Reported signed u (.error e) commits := by
  refine ⟨fun resp hresp => (by cases hresp), fun e' he hu hclear => ?_⟩
  obtain rfl := Except.error.inj he
  rcases h with hambiguous | hnone
  · rw [hambiguous] at hclear
    cases hclear
  · exact hnone hu

/-- If no attempt overlooks that its execute may have committed, the result of a submit says
what became of its executes. -/
theorem submit_truthful (hnoticed : ∀ n, ¬ Overlooks call w n) (honest : w.Honest commits) :
    Truthful (submitTransaction call w).1 (submitTransaction call w).2 commits := by
  have run : Reported (submitAttempts call w).1 (submitAttempts call w).2.1
      (submitAttempts call w).2.2 commits := by
    refine submitAttempts_rule
      (I := fun signed u => u = none → ∀ s ∈ signed, commits s.attempt = false)
      (Q := fun signed u r => Reported signed u r commits) ?_ ?_ ?_ ?_
    · exact fun _ s hs => absurd hs List.not_mem_nil
    · exact fun signed u r hnone hfails => .ended hnone hfails
    · intro signed u s u' hsent hnone hstep hu
      cases hstep with
      | refusedRetry hrefused =>
        exact forall_mem_append_singleton (hnone hu) (not_commits_of_refused honest hrefused)
      | overlookedRetry hoverlooks => exact absurd hoverlooks (hnoticed _)
      | notedRetry => cases u <;> cases hu
    · intro signed u s u' r hsent hnone hstep
      have last : s ∈ signed ++ [s] := List.mem_append_right _ (List.mem_singleton.mpr rfl)
      obtain ⟨-, hprepare⟩ := hsent.attempts s last
      cases hstep with
      | succeeded r hexecute hsuccess =>
        refine ⟨fun resp hresp _ => ⟨s, last, ?_⟩, fun e he => by cases he⟩
        exact honest.success _ r hexecute hsuccess
      | found r hfound =>
        exact ⟨fun _ _ _ => committed_of_found honest hsent hprepare hfound, fun e he => by cases he⟩
      | unknown e hambiguous => exact .error (.inl hambiguous)
      | refused hrefused e =>
        refine .error (.inr fun hu => ?_)
        exact forall_mem_append_singleton (hnone hu) (not_commits_of_refused honest hrefused)
      | overlooked hoverlooks => exact absurd hoverlooks (hnoticed _)
      | noted e => exact .error (.inr fun hu => by cases u <;> cases hu)
  unfold submitTransaction
  dsimp only
  refine ⟨fun r hr hsuccess => ?_, fun e he hclear => ?_⟩
  · exact run.committed r (mapError_eq_ok.mp hr) hsuccess
  · cases hresult : (submitAttempts call w).2.2 with
    | ok r =>
      rw [hresult] at he
      cases he
    | error e' =>
      rw [hresult] at he
      obtain rfl := Except.error.inj he
      cases huncertain : (submitAttempts call w).2.1 with
      | none =>
        rw [huncertain] at hclear
        exact run.uncommitted e' hresult huncertain hclear
      | some command =>
        rw [huncertain, isAmbiguous_markUncertain] at hclear
        cases hclear

end Runs

/-! ## Runs that go wrong -/

section Example

local instance submitCrates : VerifierCrates := plainCrates

/-- Every execute is answered like this, and the scans find nothing. -/
def answersOf (execute : Except String ExecuteTransactionResponse) (commandId : String) :
    SubmitAnswers where
  verifyLost := none
  keyLost := none
  prepare := .ok ⟨"t", commandId, [], "", "V2", ""⟩
  execute := execute
  scan := ⟨.ok 6, .ok ([], true)⟩
  now := 0
  elapsed := 0
  jitter _ := 0

def executed : ExecuteTransactionResponse := ⟨true, "u", none, none⟩

/-- The first execute commits after the scan, but its reply is lost. -/
def lostReply : SubmitWorld where
  startedAt := 0
  ledgerEnd := .ok 5
  answers n := if n = 0 then answersOf (.error "connection reset") "c0" else answersOf (.ok executed) "c1"

def refused : ExecuteTransactionResponse :=
  ⟨false, "", none, some "Transaction failed: contention"⟩

/-- The second execute commits and its reply is lost; the others are refused. -/
def refusedAndLost (scan : ScanAnswers) : SubmitWorld where
  startedAt := 0
  ledgerEnd := .ok 5
  answers n :=
    if n = 1 then { answersOf (.error "connection reset") "c1" with scan }
    else answersOf (.ok refused) s!"c{n}"

/-- The scan finds the command on the ledger. -/
def foundScan : ScanAnswers := ⟨.ok 6, .ok ([some ⟨"c1", "u1", [.created "00aa"]⟩], true)⟩

/-- The scan is complete and comes too early. -/
def earlyScan : ScanAnswers := ⟨.ok 6, .ok ([], true)⟩

/-- The command is on the ledger already, and the ledger's end is not known. -/
def duplicated : SubmitWorld where
  startedAt := 0
  ledgerEnd := .error "unavailable"
  answers _ := answersOf (.ok ⟨false, "", none, some "DUPLICATE_COMMAND(10,c0)"⟩) "c0"

/-- What the submits of these worlds come to. -/
theorem submits_of_samples :
    ((submitTransaction multicall (refusedAndLost foundScan)).1.map (fun s => s.attempt) = [0, 1] ∧
      (submitTransaction multicall (refusedAndLost earlyScan)).2 = .error
        ("EXECUTE_OUTCOME_UNKNOWN: earlier execute c1 may still commit: " ++
          "Transaction failed: Transaction failed: contention")) ∧
      (submitTransaction multicall lostReply).1.map (fun s => s.prepared.commandId) = ["c0", "c1"] ∧
      (submitTransaction multicall duplicated).1.map (fun s => s.attempt) = [0] ∧
      (submitTransaction multicall duplicated).2 = .error
        "Command already submitted (DUPLICATE_COMMAND): DUPLICATE_COMMAND(10,c0)" := by
  decide +kernel

/-- What is made of their texts. -/
theorem texts_of_samples : (serverFailureIsDefinite refused.failure = true ∧
    serverFailureIsDefinite "DUPLICATE_COMMAND(10,c0)" = false) ∧
      isAmbiguousExecuteError ("EXECUTE_OUTCOME_UNKNOWN: earlier execute c1 may still commit: " ++
        "Transaction failed: Transaction failed: contention") = true ∧
      isAmbiguousExecuteError
        "Command already submitted (DUPLICATE_COMMAND): DUPLICATE_COMMAND(10,c0)" = false := by
  decide +kernel

theorem execute_refusedAndLost {scan : ScanAnswers} {n : Nat} (h : n ≠ 1) :
    ((refusedAndLost scan).answers n).execute = .ok refused := by
  unfold refusedAndLost
  dsimp only
  rw [if_neg h]
  rfl

theorem not_failsUnclearly_refusedAndLost {scan : ScanAnswers} {n : Nat} {error : String} :
    ¬ FailsUnclearly ((refusedAndLost scan).answers n) error := by
  rintro ⟨r, hexecute, -, hunclear, -⟩
  by_cases h : n = 1
  · subst h
    cases hexecute
  · obtain rfl := Except.ok.inj ((execute_refusedAndLost h).symm.trans hexecute)
    exact Bool.false_ne_true (hunclear.symm.trans texts_of_samples.1.1)

theorem honest_refusedAndLost {scan : ScanAnswers} :
    (refusedAndLost scan).Honest fun n => decide (n = 1) := by
  refine ⟨fun n r hexecute hsuccess => ?_, fun n r hexecute _ _ => ?_, ?_⟩
  · by_contra h
    have later : n ≠ 1 := fun hn => h (decide_eq_true hn)
    obtain rfl := Except.ok.inj ((execute_refusedAndLost later).symm.trans hexecute)
    cases hsuccess
  · refine decide_eq_false fun h => ?_
    subst h
    cases hexecute
  · intro n p updates complete tx hprepare hupdates hmem hid
    by_cases h : n = 1
    · subst h
      exact ⟨1, le_refl 1, p, hprepare, rfl, rfl⟩
    · unfold refusedAndLost at hupdates
      dsimp only at hupdates
      rw [if_neg h] at hupdates
      cases hupdates
      cases hmem

/-- One attempt is refused and retried, the next one is found on the ledger. -/
theorem submit_commits_one_found :
    (submitTransaction multicall (refusedAndLost foundScan)).1.map (fun s => s.attempt) = [0, 1] ∧
      AtMostOneCommits (submitTransaction multicall (refusedAndLost foundScan)).1
        fun n => decide (n = 1) := by
  refine ⟨submits_of_samples.1.1, submit_commits_one (fun n => ?_) honest_refusedAndLost⟩
  rintro (⟨e, hexecute, ⟨p, hprepare, hmiss⟩, -⟩ | ⟨error, hunclear, -⟩)
  · by_cases h : n = 1
    · subst h
      obtain rfl := Except.ok.inj hprepare
      rcases hmiss with hoff | hmiss
      · exact absurd hoff (by decide)
      · cases hmiss
    · cases (execute_refusedAndLost h).symm.trans hexecute
  · exact not_failsUnclearly_refusedAndLost hunclear

/-- The lost command is not seen, and the refusals after it end in an ambiguous error. -/
theorem submit_truthful_early :
    (∃ e, (submitTransaction multicall (refusedAndLost earlyScan)).2 = .error e ∧
      isAmbiguousExecuteError e = true) ∧
      Truthful (submitTransaction multicall (refusedAndLost earlyScan)).1
        (submitTransaction multicall (refusedAndLost earlyScan)).2 fun n => decide (n = 1) := by
  refine ⟨⟨_, submits_of_samples.1.2, texts_of_samples.2.1⟩,
    submit_truthful (fun n => ?_) honest_refusedAndLost⟩
  rintro ⟨error, hunclear, -⟩
  exact not_failsUnclearly_refusedAndLost hunclear

/-- The reply to the first execute is lost, the scan comes too early, and both commands commit. -/
theorem lost_reply_commits_twice : lostReply.Honest (fun _ => true) ∧
    ¬ AtMostOneCommits (submitTransaction multicall lostReply).1 fun _ => true := by
  refine ⟨⟨fun _ _ _ _ => rfl, fun n r hexecute hsuccess => ?_, ?_⟩, fun one => ?_⟩
  · unfold lostReply at hexecute
    dsimp only at hexecute
    split_ifs at hexecute
    · cases hexecute
    · obtain rfl := Except.ok.inj hexecute
      cases hsuccess
  · intro n p updates complete tx _ hupdates hmem
    have empty : ((lostReply.answers n).scan.updates) = .ok ([], true) := by
      unfold lostReply
      dsimp only
      split_ifs <;> rfl
    rw [empty] at hupdates
    cases hupdates
    cases hmem
  · have run := submits_of_samples.2.1
    have first : "c0" ∈ (submitTransaction multicall lostReply).1.map fun s => s.prepared.commandId :=
      run ▸ List.mem_cons_self
    have second : "c1" ∈ (submitTransaction multicall lostReply).1.map fun s => s.prepared.commandId :=
      run ▸ List.mem_cons_of_mem _ List.mem_cons_self
    obtain ⟨s, hs, hs0⟩ := List.mem_map.mp first
    obtain ⟨t, ht, ht1⟩ := List.mem_map.mp second
    have same := one s hs t ht rfl rfl
    rw [hs0, ht1] at same
    exact absurd same (by decide)

/-- The command has committed, and the error says that it was submitted before. -/
theorem duplicate_reported_clear : duplicated.Honest (fun _ => true) ∧
    ¬ Truthful (submitTransaction multicall duplicated).1 (submitTransaction multicall duplicated).2
      fun _ => true := by
  refine ⟨⟨fun _ _ _ _ => rfl, fun n r hexecute _ hdefinite => ?_, ?_⟩, fun truthful => ?_⟩
  · obtain rfl := Except.ok.inj hexecute
    exact absurd (texts_of_samples.1.2.symm.trans hdefinite) Bool.false_ne_true
  · intro n p updates complete tx _ hupdates hmem
    cases hupdates
    cases hmem
  · have sent : 0 ∈ (submitTransaction multicall duplicated).1.map fun s => s.attempt :=
      submits_of_samples.2.2.1 ▸ List.mem_cons_self
    obtain ⟨s, hs, -⟩ := List.mem_map.mp sent
    have clear := truthful.uncommitted _ submits_of_samples.2.2.2 texts_of_samples.2.2 s hs
    cases clear

end Example

end BookAgent.CloudAgent
