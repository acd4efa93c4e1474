import BookAgent.CloudAgent.AtomicSwap

/-!
# What a settle reports and what it leaves reserved

A fill says that a transaction of the settle commits, a clean failure that none does, and the
reservations follow the outcome. The source infers some outcomes from the inputs that are still
active; the settle agrees with the ledger exactly when these inferences are right.
-/

namespace BookAgent.CloudAgent

open BookAgent.Lib BookAgent.AtomicQuote BookAgent.TxVerifier

variable {D : Type}

/-! ## The classification of a submit -/

/-- The result of a submit, if it came to one. -/
def SubmitWatch.result? : SubmitWatch → Option (Except String AtomicExecuteResponse)
  | .done result => some result
  | .noResultWithin _ (.finished result) => some result
  | _ => none

/-- A success committed, a dry run and a clear error did not, and what was not started cannot. -/
structure Classified (watch : SubmitWatch) (commits : Bool) : Prop where
  success : ∀ resp, watch.result? = some (.ok resp) → resp.success = true → commits = true
  dryRun : ∀ resp, watch.result? = some (.ok resp) → resp.success = false → commits = false
  clear : ∀ e, watch.result? = some (.error e) → isAmbiguousExecuteError e = false →
    commits = false
  notStarted : watch = .notStarted → commits = false

/-- The submit that production uses is so classified. -/
theorem classified_submitAtomic [VerifierCrates] {call : SubmitCall} {w : AtomicWorld}
    {commits : Nat → Bool} (honest : w.Honest commits) {watch : SubmitWatch}
    (hwatch : watch.result? = some (submitAtomicTransaction call w).2) :
    Classified watch ((submitAtomicTransaction call w).1.any fun s => commits s.attempt) := by
  have reported : AtomicOutcome (submitAtomicTransaction call w).1 (submitAtomicTransaction call w).2
      commits ∧ ∀ resp, (submitAtomicTransaction call w).2 = .ok resp → resp.success = false →
        ∀ s ∈ (submitAtomicTransaction call w).1, commits s.attempt = false :=
    atomicOutcome_submit honest
  obtain ⟨outcome, hdry⟩ := reported
  have none (h : ∀ s ∈ (submitAtomicTransaction call w).1, commits s.attempt = false) :
      ((submitAtomicTransaction call w).1.any fun s => commits s.attempt) = false :=
    List.any_eq_false.mpr fun s hs => Bool.eq_false_iff.mp (h s hs)
  refine ⟨fun resp h hsuccess => ?_, fun resp h hfails => ?_, fun e h hclear => ?_, fun h => ?_⟩
  · rw [hwatch] at h
    exact List.any_eq_true.mpr (outcome.committed resp (Option.some.inj h) hsuccess)
  · rw [hwatch] at h
    exact none (hdry resp (Option.some.inj h) hfails)
  · rw [hwatch] at h
    exact none (outcome.uncommitted e (Option.some.inj h) hclear)
  · rw [h] at hwatch
    cases hwatch

/-! ## Agreement -/

/-- The id is reserved by this quote. -/
def HeldBy (c : HoldingsCache D) (quoteId cid : String) : Prop :=
  ∃ expiresAt reservedAt, c.reserved.lookup cid = some ⟨.v2Quote quoteId expiresAt, reservedAt⟩

/-- A requote, a dry run or a plain error. -/
def EndsClean : Except String (SwapOutcome D) → Prop
  | .error _ | .ok (.requote _) | .ok .dryRun => True
  | .ok (.filled _) | .ok (.abort _) => False

/-- The outcome, the ledger and the reservations agree. -/
structure SettleAgrees (before : HoldingsCache D) (quoteId : String) (s : Settled D) : Prop where
  filled : ∀ fill, s.result = .ok (.filled fill) → (∃ a ∈ s.rounds, a.commits = true) ∧
    ∀ cid ∈ s.inputs, cid ∈ s.cache.consumed ∧ cid ∉ s.cache.reserved
  unknown : ∀ reason, s.result = .ok (.abort reason) →
    ∀ cid ∈ s.inputs, HeldBy s.cache quoteId cid
  clean : EndsClean s.result → (∀ a ∈ s.rounds, a.commits = false) ∧
    ∀ cid, HeldBy s.cache quoteId cid → cid ∉ s.inputs ∧ HeldBy before quoteId cid

/-- The own inputs are asked what became of this submit. -/
def Reconciles : SubmitWatch → Bool
  | .done (.ok _) => false
  | .done (.error e) => isAmbiguousExecuteError e || containsText e "INACTIVE_CONTRACTS"
  | _ => true

theorem reconciles_done_error (e : String) : Reconciles (.done (.error e))
    = (isAmbiguousExecuteError e || containsText e "INACTIVE_CONTRACTS") := rfl

/-- The submit may have committed and is taken for failed once its inputs are seen live. -/
def Doubtful : SubmitWatch → Bool
  | .done (.error e) => isAmbiguousExecuteError e
  | .endedAbnormally why => !isAmbiguousExecuteError ("submit " ++ s!"ended abnormally ({why})")
  | _ => false

theorem doubtful_endedAbnormally (why : String) : Doubtful (.endedAbnormally why)
    = !isAmbiguousExecuteError ("submit " ++ s!"ended abnormally ({why})") := rfl

/-- The own inputs tell what became of the submit: one is gone only if the submit commits, and
a doubtful submit with all of them live does not commit. -/
structure InputsTell (ownCids : List String) (a : RoundAnswers D) : Prop where
  gone : Reconciles a.watch = true → pollOwnInputs ownCids a.polls = .consumed → a.commits = true
  live : Doubtful a.watch = true → pollOwnInputs ownCids a.polls = .live → a.commits = false

/-! ## What the cache is left with -/

section Ends

variable {before : HoldingsCache D} {r : Reserved D} {rounds : List (RoundAnswers D)}

/-- The inputs were reserved out of this cache. -/
def Reserved.From (before : HoldingsCache D) (r : Reserved D) : Prop :=
  ∃ expiresAt now, r.cache = before.setReserved r.ownCids ⟨.v2Quote r.quoteId expiresAt, now⟩

/-- What a settle has done before the round that ends it: nothing that commits or was asked of
the inputs. -/
def Quiet (a : RoundAnswers D) : Prop := a.commits = false ∧ Reconciles a.watch = false

theorem Quiet.tells {a : RoundAnswers D} (h : Quiet a) (ownCids : List String) :
    InputsTell ownCids a := by
  refine ⟨fun hrec => ?_, fun _ _ => h.1⟩
  rw [h.2] at hrec
  cases hrec

theorem released_not_held (hr : r.From before) {cid : String}
    (h : HeldBy (r.cache.releaseReservations r.ownCids) r.quoteId cid) :
    cid ∉ r.ownCids ∧ HeldBy before r.quoteId cid := by
  obtain ⟨expiresAt, now, hcache⟩ := hr
  obtain ⟨expiresAt', now', hlookup⟩ := h
  unfold HoldingsCache.releaseReservations at hlookup
  have notOwn : cid ∉ r.ownCids := by
    intro hmem
    rw [Pool.lookup_eraseAll_of_mem hmem] at hlookup
    cases hlookup
  rw [Pool.lookup_eraseAll_of_notMem notOwn, hcache] at hlookup
  refine ⟨notOwn, expiresAt', now', ?_⟩
  unfold HoldingsCache.setReserved at hlookup
  rwa [Pool.lookup_insertAll_of_notMem] at hlookup
  rw [List.map_map]
  simpa [Function.comp_def] using notOwn

theorem held_of_from (hr : r.From before) : ∀ cid ∈ r.ownCids, HeldBy r.cache r.quoteId cid := by
  obtain ⟨expiresAt, now, hcache⟩ := hr
  intro cid hmem
  refine ⟨expiresAt, now, ?_⟩
  rw [hcache]
  exact Pool.lookup_insertAll_const hmem

theorem consumed_markConsumed {c : HoldingsCache D} {cids : List String} {reason : String}
    {now : Instant} : ∀ cid ∈ cids, cid ∈ (c.markConsumed cids reason now).consumed ∧
      cid ∉ (c.markConsumed cids reason now).reserved := by
  intro cid hmem
  refine ⟨HoldingsCache.mem_consumed_markConsumed.mpr (.inl hmem), ?_⟩
  unfold HoldingsCache.markConsumed
  rw [Pool.mem_iff_lookup, Pool.lookup_eraseAll_of_mem hmem]
  rintro ⟨v, hv⟩
  cases hv

/-! ## How a round ends the settle -/

/-- The settle agrees exactly if the inputs tell. -/
def Exact (before : HoldingsCache D) (quoteId : String) (s : Settled D) : Prop :=
  SettleAgrees before quoteId s ↔ ∀ a ∈ s.rounds, InputsTell s.inputs a

variable {earlier : List (RoundAnswers D)} {a : RoundAnswers D} {s : Settled D}

/-- The settle ends in this round, for these inputs. -/
structure EndsIn (r : Reserved D) (earlier : List (RoundAnswers D)) (a : RoundAnswers D)
    (s : Settled D) : Prop where
  inputs : s.inputs = r.ownCids
  rounds : s.rounds = earlier ++ [a]

theorem EndsIn.tells_iff (h : EndsIn r earlier a s) (hquiet : ∀ b ∈ earlier, Quiet b) :
    (∀ b ∈ s.rounds, InputsTell s.inputs b) ↔ InputsTell r.ownCids a := by
  rw [h.rounds, h.inputs]
  constructor
  · exact fun hall => hall a (List.mem_append_right _ (List.mem_singleton.mpr rfl))
  · intro hlast b hb
    rcases List.mem_append.mp hb with hb | hb
    · exact (hquiet b hb).tells _
    · exact List.mem_singleton.mp hb ▸ hlast

theorem EndsIn.commits_iff (h : EndsIn r earlier a s) (hquiet : ∀ b ∈ earlier, Quiet b) :
    (∃ b ∈ s.rounds, b.commits = true) ↔ a.commits = true := by
  rw [h.rounds]
  constructor
  · rintro ⟨b, hb, hcommits⟩
    rcases List.mem_append.mp hb with hb | hb
    · rw [(hquiet b hb).1] at hcommits
      cases hcommits
    · exact List.mem_singleton.mp hb ▸ hcommits
  · exact fun hcommits => ⟨a, List.mem_append_right _ (List.mem_singleton.mpr rfl), hcommits⟩

theorem EndsIn.filled (h : EndsIn r earlier a s) (hquiet : ∀ b ∈ earlier, Quiet b)
    {fill : AtomicFill D} (hresult : s.result = .ok (.filled fill))
    (hconsumed : ∀ cid ∈ s.inputs, cid ∈ s.cache.consumed ∧ cid ∉ s.cache.reserved)
    (htell : InputsTell r.ownCids a ↔ a.commits = true) : Exact before r.quoteId s := by
  unfold Exact
  rw [h.tells_iff hquiet, htell, ← h.commits_iff hquiet]
  refine ⟨fun hagrees => (hagrees.filled fill hresult).1, fun hcommits => ?_⟩
  refine ⟨fun _ _ => ⟨hcommits, hconsumed⟩, fun reason hother => ?_, fun hclean => ?_⟩
  · rw [hresult] at hother
    cases hother
  · rw [hresult] at hclean
    exact hclean.elim

theorem EndsIn.aborted (h : EndsIn r earlier a s) (hquiet : ∀ b ∈ earlier, Quiet b)
    {reason : String} (hresult : s.result = .ok (.abort reason))
    (hheld : ∀ cid ∈ s.inputs, HeldBy s.cache r.quoteId cid)
    (htell : InputsTell r.ownCids a) : Exact before r.quoteId s := by
  unfold Exact
  rw [h.tells_iff hquiet]
  refine iff_of_true ⟨fun fill hother => ?_, fun _ _ => hheld, fun hclean => ?_⟩ htell
  · rw [hresult] at hother
    cases hother
  · rw [hresult] at hclean
    exact hclean.elim

theorem EndsIn.clean (h : EndsIn r earlier a s) (hquiet : ∀ b ∈ earlier, Quiet b)
    (hclean : EndsClean s.result)
    (hheld : ∀ cid, HeldBy s.cache r.quoteId cid → cid ∉ s.inputs ∧ HeldBy before r.quoteId cid)
    (htell : InputsTell r.ownCids a ↔ a.commits = false) : Exact before r.quoteId s := by
  unfold Exact
  rw [h.tells_iff hquiet, htell]
  have none : (∀ b ∈ s.rounds, b.commits = false) ↔ a.commits = false := by
    have some := h.commits_iff hquiet
    constructor
    · intro hnone
      refine Bool.eq_false_iff.mpr fun hcommits => ?_
      obtain ⟨b, hb, hb'⟩ := some.mpr hcommits
      exact Bool.eq_false_iff.mp (hnone b hb) hb'
    · exact fun hfalse b hb => Bool.eq_false_iff.mpr fun hcommits =>
        Bool.eq_false_iff.mp hfalse (some.mp ⟨b, hb, hcommits⟩)
  rw [← none]
  refine ⟨fun hagrees => (hagrees.clean hclean).1, fun hnone => ?_⟩
  refine ⟨fun fill hother => ?_, fun reason hother => ?_, fun _ => ⟨hnone, hheld⟩⟩
  · rw [hother] at hclean
    exact hclean.elim
  · rw [hother] at hclean
    exact hclean.elim

theorem exact_release (hr : r.From before) (hquiet : ∀ b ∈ earlier, Quiet b)
    {result : Except String (SwapOutcome D)} (hclean : EndsClean result)
    (htell : InputsTell r.ownCids a ↔ a.commits = false) :
    Exact before r.quoteId (r.release (earlier ++ [a]) result) :=
  EndsIn.clean (r := r) ⟨rfl, rfl⟩ hquiet hclean (fun _ h => released_not_held hr h) htell

theorem exact_abandon (hr : r.From before) (hquiet : ∀ b ∈ earlier, Quiet b) {reason : String}
    (htell : InputsTell r.ownCids a) :
    Exact before r.quoteId (r.abandon (earlier ++ [a]) reason) :=
  EndsIn.aborted (r := r) ⟨rfl, rfl⟩ hquiet rfl (held_of_from hr) htell

theorem exact_reconciledFill (hquiet : ∀ b ∈ earlier, Quiet b) {now : Instant}
    (htell : InputsTell r.ownCids a ↔ a.commits = true) :
    Exact before r.quoteId (r.reconciledFill (earlier ++ [a]) now) :=
  EndsIn.filled (r := r) ⟨rfl, rfl⟩ hquiet rfl consumed_markConsumed htell

/-! ## What the inputs tell -/

/-- With an input gone they tell whether the submit commits. -/
theorem tell_gone (hrec : Reconciles a.watch = true)
    (hpoll : pollOwnInputs r.ownCids a.polls = .consumed) :
    InputsTell r.ownCids a ↔ a.commits = true := by
  refine ⟨fun h => h.gone hrec hpoll, fun hcommits => ⟨fun _ _ => hcommits, fun _ hlive => ?_⟩⟩
  rw [hpoll] at hlive
  cases hlive

/-- With all of them live they tell that a doubtful submit does not commit. -/
theorem tell_live (hdoubt : Doubtful a.watch = true ∨ a.commits = false)
    (hpoll : pollOwnInputs r.ownCids a.polls = .live) :
    InputsTell r.ownCids a ↔ a.commits = false := by
  refine ⟨fun h => ?_, fun hnone => ⟨fun _ hgone => ?_, fun _ _ => hnone⟩⟩
  · exact hdoubt.elim (fun hdoubtful => h.live hdoubtful hpoll) id
  · rw [hpoll] at hgone
    cases hgone

/-- A submit that is not doubtful need not be told while no input is gone. -/
theorem tell_notGone (hsure : Doubtful a.watch = false)
    (hpoll : pollOwnInputs r.ownCids a.polls ≠ .consumed) : InputsTell r.ownCids a := by
  refine ⟨fun _ hgone => absurd hgone hpoll, fun hdoubt => ?_⟩
  rw [hsure] at hdoubt
  cases hdoubt

theorem tell_unknown (hpoll : pollOwnInputs r.ownCids a.polls = .unknown) :
    InputsTell r.ownCids a := by
  refine ⟨fun _ hgone => ?_, fun _ hlive => ?_⟩
  · rw [hpoll] at hgone
    cases hgone
  · rw [hpoll] at hlive
    cases hlive

theorem Quiet.tell_iff (h : Quiet a) : InputsTell r.ownCids a ↔ a.commits = false :=
  iff_of_true (h.tells _) h.1

/-! ## Every way to end -/

/-- What a submit given up tells about its late end. -/
structure LateTold (a : RoundAnswers D) (late : LateSubmit) : Prop where
  reconciles : Reconciles a.watch = true
  success : ∀ resp, late = .finished (.ok resp) → resp.success = true → a.commits = true
  dryRun : ∀ resp, late = .finished (.ok resp) → resp.success = false → a.commits = false
  clear : ∀ e, late = .finished (.error e) → isAmbiguousExecuteError e = false →
    Doubtful a.watch = true ∨ a.commits = false
  sure : (∀ e, late = .finished (.error e) → isAmbiguousExecuteError e = true) →
    Doubtful a.watch = false

theorem exact_afterLostSubmit (hr : r.From before) (hquiet : ∀ b ∈ earlier, Quiet b) {why : String}
    {late : LateSubmit} (htold : LateTold a late) :
    Exact before r.quoteId (r.afterLostSubmit (earlier ++ [a]) a why late) := by
  unfold Reserved.afterLostSubmit
  dsimp only
  cases hpoll : pollOwnInputs r.ownCids a.polls with
  | consumed =>
    have filled : Exact before r.quoteId (r.reconciledFill (earlier ++ [a]) a.consumedAt) :=
      exact_reconciledFill hquiet (tell_gone htold.reconciles hpoll)
    cases late <;> exact filled
  | unknown =>
    cases late <;> exact exact_abandon hr hquiet (tell_unknown hpoll)
  | live =>
    have notGone : pollOwnInputs r.ownCids a.polls ≠ .consumed := by
      rw [hpoll]
      decide
    cases late with
    | running =>
      have sure := htold.sure fun e h => by cases h
      exact exact_abandon hr hquiet (tell_notGone sure notGone)
    | endedAbnormally e =>
      have sure := htold.sure fun e h => by cases h
      exact exact_abandon hr hquiet (tell_notGone sure notGone)
    | finished result =>
      cases result with
      | ok resp =>
        have sure := htold.sure fun e h => by cases h
        dsimp only
        split_ifs with hsuccess
        · refine EndsIn.filled (r := r) ⟨rfl, rfl⟩ hquiet rfl consumed_markConsumed ?_
          exact iff_of_true (tell_notGone sure notGone) (htold.success resp rfl hsuccess)
        · have none := htold.dryRun resp rfl (Bool.not_eq_true _ ▸ hsuccess)
          exact exact_release hr hquiet trivial (tell_live (.inr none) hpoll)
      | error e =>
        dsimp only
        split_ifs with hambiguous
        · refine exact_abandon hr hquiet (tell_notGone (htold.sure fun e' h => ?_) notGone)
          cases h
          exact hambiguous
        · have clear := htold.clear e rfl (Bool.not_eq_true _ ▸ hambiguous)
          exact exact_release hr hquiet trivial (tell_live clear hpoll)

theorem exact_afterError (hr : r.From before) (hquiet : ∀ b ∈ earlier, Quiet b)
    {msg : String} (hwatch : a.watch = .done (.error msg)) (hclass : Classified a.watch a.commits)
    {retry : Option (Settled D)}
    (hretry : Quiet a → ∀ again, retry = some again → Exact before r.quoteId again) :
    Exact before r.quoteId (r.afterError (earlier ++ [a]) a retry msg) := by
  have clear (h : isAmbiguousExecuteError msg = false) : a.commits = false :=
    hclass.clear msg (by rw [hwatch]; rfl) h
  have doubt : Doubtful a.watch = true ∨ a.commits = false := by
    rw [hwatch]
    cases hambiguous : isAmbiguousExecuteError msg with
    | true => exact .inl hambiguous
    | false => exact .inr (clear hambiguous)
  unfold Reserved.afterError
  split_ifs with hown hinactive
  · have asked : Reconciles a.watch = true := by
      rw [Bool.or_eq_true, Bool.and_eq_true] at hown
      rw [hwatch, reconciles_done_error, Bool.or_eq_true]
      exact hown.imp id And.left
    cases hpoll : pollOwnInputs r.ownCids a.polls with
    | consumed => exact exact_reconciledFill hquiet (tell_gone asked hpoll)
    | live => exact exact_release hr hquiet trivial (tell_live doubt hpoll)
    | unknown => exact exact_abandon hr hquiet (tell_unknown hpoll)
  · have asked : Reconciles a.watch = true := by
      rw [hwatch, reconciles_done_error, hinactive, Bool.or_true]
    cases hpoll : pollOwnInputs r.ownCids a.polls with
    | consumed => exact exact_reconciledFill hquiet (tell_gone asked hpoll)
    | live => exact exact_release hr hquiet trivial (tell_live doubt hpoll)
    | unknown => exact exact_abandon hr hquiet (tell_unknown hpoll)
  all_goals
    have quiet : Quiet a := by
      have notAmbiguous : isAmbiguousExecuteError msg = false := by
        rw [Bool.or_eq_true, not_or] at hown
        exact Bool.not_eq_true _ ▸ hown.1
      refine ⟨clear notAmbiguous, ?_⟩
      rw [hwatch, reconciles_done_error, notAmbiguous, Bool.false_or]
      exact Bool.not_eq_true _ ▸ hinactive
  · exact exact_release hr hquiet trivial quiet.tell_iff
  · dsimp only
    split
    · exact hretry quiet _ rfl
    · exact exact_release hr hquiet trivial quiet.tell_iff

theorem exact_afterSubmit (hr : r.From before) (hquiet : ∀ b ∈ earlier, Quiet b)
    (hclass : Classified a.watch a.commits) {retry : Option (Settled D)}
    (hretry : Quiet a → ∀ again, retry = some again → Exact before r.quoteId again) :
    Exact before r.quoteId (r.afterSubmit (earlier ++ [a]) a retry) := by
  unfold Reserved.afterSubmit
  cases hwatch : a.watch with
  | done result =>
    cases result with
    | error msg => exact exact_afterError hr hquiet hwatch hclass hretry
    | ok resp =>
      have told : InputsTell r.ownCids a := by
        refine ⟨fun hrec => ?_, fun hdoubt => ?_⟩
        · rw [hwatch] at hrec
          cases hrec
        · rw [hwatch] at hdoubt
          cases hdoubt
      have result : a.watch.result? = some (.ok resp) := by
        rw [hwatch]
        rfl
      dsimp only
      split_ifs with hsuccess
      · refine EndsIn.filled (r := r) ⟨rfl, rfl⟩ hquiet rfl consumed_markConsumed ?_
        exact iff_of_true told (hclass.success resp result hsuccess)
      · refine exact_release hr hquiet trivial (iff_of_true told ?_)
        exact hclass.dryRun resp result (Bool.not_eq_true _ ▸ hsuccess)
  | notStarted =>
    refine exact_afterLostSubmit hr hquiet ⟨?_, fun _ h => (by cases h), fun _ h => (by cases h),
      fun _ _ _ => .inr (hclass.notStarted hwatch), fun _ => ?_⟩
    · rw [hwatch]
      rfl
    · rw [hwatch]
      rfl
  | endedAbnormally why =>
    refine exact_afterLostSubmit hr hquiet ⟨?_, fun _ h => (by cases h), fun _ h => (by cases h),
      fun e h hclear => .inl ?_, fun h => ?_⟩
    · rw [hwatch]
      rfl
    · cases h
      rw [hwatch, doubtful_endedAbnormally, hclear]
      rfl
    · rw [hwatch]
      rw [doubtful_endedAbnormally, h _ rfl]
      rfl
  | noResultWithin wait late =>
    have result {res : Except String AtomicExecuteResponse} (h : late = .finished res) :
        a.watch.result? = some res := by
      rw [hwatch, h]
      rfl
    refine exact_afterLostSubmit hr hquiet ⟨?_, fun resp h => hclass.success resp (result h),
      fun resp h => hclass.dryRun resp (result h),
      fun e h hclear => .inr (hclass.clear e (result h) hclear), fun _ => ?_⟩
    · rw [hwatch]
      rfl
    · rw [hwatch]
      rfl

theorem exact_submitRounds (hr : r.From before) {answers : Nat → RoundAnswers D}
    (hclass : ∀ n, Classified (answers n).watch (answers n).commits) (left : Nat) :
    ∀ n (earlier : List (RoundAnswers D)), (∀ b ∈ earlier, Quiet b) →
      Exact before r.quoteId (r.submitRounds answers left n earlier) := by
  induction left with
  | zero =>
    intro n earlier hquiet
    exact exact_afterSubmit hr hquiet (hclass n) fun _ again h => by cases h
  | succ left ih =>
    intro n earlier hquiet
    refine exact_afterSubmit hr hquiet (hclass n) fun hthis again h => ?_
    cases h
    refine ih (n + 1) _ fun b hb => ?_
    rcases List.mem_append.mp hb with hb | hb
    · exact hquiet b hb
    · exact List.mem_singleton.mp hb ▸ hthis

/-- A settle that ends before any submit, with nothing of its own reserved. -/
theorem exact_unsubmitted {quoteId : String} (hrounds : s.rounds = []) (hclean : EndsClean s.result)
    (hheld : ∀ cid, HeldBy s.cache quoteId cid → cid ∉ s.inputs ∧ HeldBy before quoteId cid) :
    Exact before quoteId s := by
  unfold Exact
  rw [hrounds]
  refine iff_of_true ⟨fun fill h => ?_, fun reason h => ?_, fun _ => ⟨?_, hheld⟩⟩ ?_
  · rw [h] at hclean
    exact hclean.elim
  · rw [h] at hclean
    exact hclean.elim
  · rw [hrounds]
    exact fun b hb => absurd hb List.not_mem_nil
  · exact fun b hb => absurd hb List.not_mem_nil

theorem exact_unsubmitted_release (hr : r.From before) {result : Except String (SwapOutcome D)}
    (hclean : EndsClean result) : Exact before r.quoteId (r.release [] result) :=
  exact_unsubmitted rfl hclean fun _ h => released_not_held hr h

end Ends

/-! ## The whole settle -/

section Settle

variable [SwapCrates D] {swapper : AtomicSwapper} {envelope : AtomicQuoteEnvelope}
  {accepted : AtomicQuoteInfo} {direction : FillDirection} {maxInputHoldings : Nat}
  {w : SettleAnswers D} {terms : SettleTerms D}

theorem exists_venue {env : QuoteEnvelope} {path : List String}
    (h : ((env.dvp.payload.pointer path).bind Json.asStr).isSome) :
    ∃ s, venue env path = .ok s := by
  obtain ⟨s, hs⟩ := Option.isSome_iff_exists.mp h
  exact ⟨s, context_eq_ok.mpr hs⟩

omit [SwapCrates D] in
/-- A settle reads its parameters from a venue that the pre-check has found complete. -/
theorem settleParams_complete (h : VenueComplete terms.env.dvp.payload) (ownCids : List String) :
    ∃ params, settleParams swapper envelope terms ownCids = .ok params := by
  obtain ⟨pairName, hpair⟩ := exists_venue h.pair
  obtain ⟨baseId, hbaseId⟩ := exists_venue h.baseId
  obtain ⟨baseAdmin, hbaseAdmin⟩ := exists_venue h.baseAdmin
  obtain ⟨quoteId, hquoteId⟩ := exists_venue h.quoteId
  obtain ⟨quoteAdmin, hquoteAdmin⟩ := exists_venue h.quoteAdmin
  obtain ⟨publicKey, hkey⟩ := exists_venue h.publicKey
  unfold settleParams
  rw [hpair, hbaseId, hbaseAdmin, hquoteId, hquoteAdmin, hkey]
  exact ⟨_, rfl⟩

omit [SwapCrates D] in
theorem exact_settleReserved {before : HoldingsCache D} {r : Reserved D} (hr : r.From before)
    (hvenue : VenueComplete terms.env.dvp.payload)
    (hclass : ∀ params expectation flags n, Classified (w.submit params expectation flags n).watch
      (w.submit params expectation flags n).commits) :
    Exact before r.quoteId (settleReserved swapper envelope w terms r) := by
  have complete : ∃ params, settleParams swapper envelope terms r.ownCids = .ok params :=
    settleParams_complete hvenue r.ownCids
  obtain ⟨params, hparams⟩ := complete
  unfold settleReserved
  rw [hparams]
  dsimp only
  split
  · exact exact_unsubmitted_release hr trivial
  · split
    · exact exact_unsubmitted_release hr trivial
    · exact exact_unsubmitted_release hr trivial
    · split
      · exact exact_unsubmitted_release hr trivial
      · exact exact_submitRounds hr (hclass _ _ _) _ 0 [] fun b hb => absurd hb List.not_mem_nil

/-- The id of the quote in the envelope. -/
def AtomicQuoteEnvelope.quoteId (envelope : AtomicQuoteEnvelope) : String :=
  (envelope.quote.map AtomicQuote.quoteId).getD ""

theorem quoteId_envelopeFromProto {env : QuoteEnvelope}
    (h : envelopeFromProto D envelope = .ok env) : env.quote.quoteId = envelope.quoteId := by
  unfold envelopeFromProto at h
  obtain ⟨_, -, h⟩ := bind_eq_ok.mp h
  obtain ⟨quote, hquote, h⟩ := bind_eq_ok.mp h
  obtain ⟨_, -, h⟩ := bind_eq_ok.mp h
  obtain ⟨_, -, h⟩ := bind_eq_ok.mp h
  obtain rfl := pure_eq_ok.mp h
  unfold AtomicQuoteEnvelope.quoteId
  rw [context_eq_ok.mp hquote]
  rfl

theorem of_checkedEnvelope {now : Int} {env : QuoteEnvelope} {validUntil : Int64}
    (h : checkedEnvelope D swapper envelope now = .ok (env, validUntil)) :
    VenueComplete env.dvp.payload ∧ env.quote.quoteId = envelope.quoteId := by
  unfold checkedEnvelope at h
  obtain ⟨env', henv, h⟩ := bind_eq_ok.mp h
  split at h
  · cases h
  · rename_i hcheck
    obtain ⟨validUntil', -, h⟩ := bind_eq_ok.mp h
    split at h
    · cases h
    · cases h
      have converted : envelopeFromProto D envelope = .ok env := mapError_eq_ok.mp henv
      exact ⟨(checked_of_preSubmitCheck hcheck).1, quoteId_envelopeFromProto converted⟩

theorem env_of_acceptedTerms {env : QuoteEnvelope} {validUntil : Int64} {fees : List AtomicFeeSpec}
    (h : acceptedTerms (D := D) env validUntil fees accepted direction = .ok terms) : terms.env = env := by
  unfold acceptedTerms at h
  obtain ⟨_, -, h⟩ := bind_eq_ok.mp h
  split at h
  · cases h
  · obtain ⟨_, -, h⟩ := bind_eq_ok.mp h
    obtain ⟨_, -, h⟩ := bind_eq_ok.mp h
    obtain ⟨_, -, h⟩ := bind_eq_ok.mp h
    obtain ⟨_, -, h⟩ := bind_eq_ok.mp h
    split at h
    · cases h
    · split at h
      · cases h
      · split at h
        · cases h
        · cases h
          rfl

omit [SwapCrates D] in
theorem exact_unreserved {quoteId : String} (early : EarlyEnd) :
    Exact w.cache quoteId (unreserved w early) := by
  refine exact_unsubmitted rfl ?_ fun cid h => ⟨List.not_mem_nil, h⟩
  cases early <;> trivial

omit [SwapCrates D] in
theorem from_reserveV2 {before cache : HoldingsCache D} {ownCids : List String} {quoteId : String}
    {expiresAt now : Instant} (h : before.reserveV2 ownCids quoteId expiresAt now = (true, cache))
    (filledBase : D) (validUntil : Int) :
    Reserved.From before ⟨cache, ownCids, quoteId, filledBase, validUntil⟩ := by
  unfold HoldingsCache.reserveV2 at h
  refine ⟨expiresAt, now, ?_⟩
  rcases before.reserveWithKind_eq ownCids (.v2Quote quoteId expiresAt) now with hfail | hok
  · exact absurd (congrArg Prod.fst (h.symm.trans hfail)) Bool.noConfusion
  · exact congrArg Prod.snd (h.symm.trans hok)

omit [SwapCrates D] in
theorem exact_reserveAndSettle (hvenue : VenueComplete terms.env.dvp.payload) (ownCids : List String)
    (hclass : ∀ params expectation flags n, Classified (w.submit params expectation flags n).watch
      (w.submit params expectation flags n).commits) :
    Exact w.cache terms.env.quote.quoteId
      (reserveAndSettle swapper envelope w terms ownCids) := by
  unfold reserveAndSettle
  cases reservationExpiry w.reserveAt terms.validUntilMicros.toInt w.reserveMicros with
  | none => exact exact_unreserved _
  | some expiresAt =>
    dsimp only
    split
    · exact exact_unreserved _
    · rename_i cache hreserve
      have reserved := from_reserveV2 hreserve terms.baseAmount terms.validUntilMicros.toInt
      exact exact_settleReserved reserved hvenue hclass

theorem of_checkAndSelect {picks : List (CachedHolding D)}
    (h : checkAndSelect swapper envelope accepted direction maxInputHoldings w = .ok (terms, picks)) :
    VenueComplete terms.env.dvp.payload ∧ terms.env.quote.quoteId = envelope.quoteId := by
  unfold checkAndSelect at h
  obtain ⟨⟨env, validUntil⟩, henv, h⟩ := bind_eq_ok.mp h
  obtain ⟨terms', hterms, h⟩ := bind_eq_ok.mp h
  obtain ⟨picks', -, h⟩ := bind_eq_ok.mp h
  obtain ⟨rfl, rfl⟩ := Prod.mk.inj (pure_eq_ok.mp h)
  have same : terms'.env = env := env_of_acceptedTerms hterms
  rw [same]
  exact of_checkedEnvelope henv

/-- With every submit classified, a settle agrees with the ledger and the reservations exactly
if the own inputs tell what became of each submit. -/
theorem settle_agrees_iff (hclass : ∀ params expectation flags n,
      Classified (w.submit params expectation flags n).watch
        (w.submit params expectation flags n).commits) :
    SettleAgrees w.cache envelope.quoteId
        (settleEnvelopeWith swapper envelope accepted direction maxInputHoldings w)
      ↔ ∀ a ∈ (settleEnvelopeWith swapper envelope accepted direction maxInputHoldings w).rounds,
        InputsTell (settleEnvelopeWith swapper envelope accepted direction maxInputHoldings w).inputs
          a := by
  have exact : Exact w.cache envelope.quoteId
      (settleEnvelopeWith swapper envelope accepted direction maxInputHoldings w) := by
    unfold settleEnvelopeWith
    split
    · exact exact_unreserved _
    · rename_i terms picks hchecked
      obtain ⟨hvenue, hquote⟩ := of_checkAndSelect hchecked
      rw [← hquote]
      exact exact_reserveAndSettle hvenue _ hclass
  exact exact

end Settle

/-! ## Inputs that do not tell -/

section Disagrees

variable {before : HoldingsCache D} {quoteId : String} {s : Settled D}

def SwapOutcome.isFilled : SwapOutcome D → Bool
  | .filled _ => true
  | _ => false

def SwapOutcome.isRequote : SwapOutcome D → Bool
  | .requote _ => true
  | _ => false

theorem not_agrees_of_fill (hresult : s.result.toOption.any SwapOutcome.isFilled = true)
    (hnone : (s.rounds.any fun a => a.commits) = false) : ¬ SettleAgrees before quoteId s := by
  intro agrees
  obtain ⟨outcome, hoption, hfilled⟩ := (Option.any_eq_true _ _).mp hresult
  cases hs : s.result with
  | error e =>
    rw [hs] at hoption
    cases hoption
  | ok outcome' =>
    rw [hs] at hoption
    obtain rfl := Option.some.inj hoption
    cases outcome' with
    | filled fill =>
      have commits := List.any_eq_true.mpr (agrees.filled fill hs).1
      rw [hnone] at commits
      cases commits
    | requote _ | abort _ | dryRun => cases hfilled

theorem not_agrees_of_requote (hresult : s.result.toOption.any SwapOutcome.isRequote = true)
    (hsome : (s.rounds.any fun a => a.commits) = true) : ¬ SettleAgrees before quoteId s := by
  intro agrees
  obtain ⟨outcome, hoption, hrequote⟩ := (Option.any_eq_true _ _).mp hresult
  have clean : EndsClean s.result := by
    cases hs : s.result with
    | error e => exact True.intro
    | ok outcome' =>
      rw [hs] at hoption
      obtain rfl := Option.some.inj hoption
      cases outcome' with
      | requote _ => exact True.intro
      | filled _ | abort _ | dryRun => cases hrequote
  obtain ⟨a, ha, hcommits⟩ := List.any_eq_true.mp hsome
  rw [(agrees.clean clean).1 a ha] at hcommits
  cases hcommits

end Disagrees

section Example

/-- The payload of a venue for `XYZ` against `USD`. -/
def usdVenue : Json :=
  .object [("lp", .string "lp"), ("provider", .string "p"), ("pairName", .string "XYZ-USD"),
    ("baseInstrumentId", .object [("admin", .string "reg"), ("id", .string "XYZ")]),
    ("quoteInstrumentId", .object [("admin", .string "reg"), ("id", .string "USD")]),
    ("quotePublicKey", .string "key")]

/-- Its text. -/
def usdPayload : String :=
  "\x7b\"lp\":\"lp\",\"provider\":\"p\",\"pairName\":\"XYZ-USD\"," ++
    "\"baseInstrumentId\":\x7b\"admin\":\"reg\",\"id\":\"XYZ\"\x7d," ++
    "\"quoteInstrumentId\":\x7b\"admin\":\"reg\",\"id\":\"USD\"\x7d,\"quotePublicKey\":\"key\"\x7d"

/-- `serde_json` at that text. -/
def parseUsdPayload (text : String) : Except String Json :=
  if text = usdPayload then .ok usdVenue else .error "expected value at line 1 column 1"

/-- Integers are decimals, and every signature is the key's. -/
abbrev usdCrates : SwapCrates ScaledInt where
  fromStr s := context "invalid decimal" ((plainNat s.toList).map fun n => ⟨n, 0⟩)
  verifyQuote _ _ _ := true
  parseJson := parseUsdPayload

local instance settleCrates : SwapCrates ScaledInt := usdCrates

/-- A minute to buy one `XYZ` for 100 `USD`. -/
def usdQuote : AtomicQuote where
  quoteId := "q"
  ticketId := ""
  user := "us"
  side := "Buy"
  baseAmount := "1"
  quoteAmount := "100"
  createdAtMicros := 0
  validUntilMicros := 60000000
  lpFees := []

def usdEnvelope : AtomicQuoteEnvelope where
  version := envelopeVersion
  synchronizerId := "sync"
  dvp := some ⟨"venue", "t", "", usdPayload⟩
  quote := some usdQuote
  canonicalMessage := ((canonicalFromDvp ScaledInt usdVenue (quoteFromProto usdQuote)).toOption).getD ""
  quoteSignature := "s"
  ticket := none
  lpInputHoldingCids := []
  disclosed := [⟨"venue", "t", "", "sync"⟩]

def usdSwapper : AtomicSwapper where
  partyId := "us"
  synchronizerId := "sync"
  spendReserve := true
  verbose := false
  dryRun := false
  force := false
  confirm := false

def usdCache : HoldingsCache ScaledInt :=
  (HoldingsCache.new false).addCreated [⟨"c1", "t", "reg::USD", ⟨100, 0⟩, some "", "sync", 0⟩]

/-- A settle whose first submit ends so. -/
def usdAnswers (watch : SubmitWatch) (live : List String) (commits : Bool) :
    SettleAnswers ScaledInt where
  nowMicros := 0
  tries _ := [(usdCache, 0)]
  failureDetail _ := ""
  cache := usdCache
  reserveAt := 0
  reserveMicros := 0
  confirmed := .ok ()
  client := .ready
  beforeSubmit := true
  submit _ _ _ _ := ⟨watch, ⟨.ok (), fun _ => .ok live⟩, 0, 0, [], commits⟩

def usdSettle (watch : SubmitWatch) (live : List String) (commits : Bool) : Settled ScaledInt :=
  settleEnvelopeWith usdSwapper usdEnvelope ⟨"LP", "lp", "1", "100", none⟩ .buy 10
    (usdAnswers watch live commits)

def lostExecute : SubmitWatch :=
  .done (.error (atomicExecuteAmbiguous ++ ": execute failed with transport error"))

theorem classified_lostExecute (commits : Bool) : Classified lostExecute commits := by
  refine ⟨fun resp h => ?_, fun resp h => ?_, fun e h hclear => ?_, fun h => ?_⟩
  · cases h
  · cases h
  · obtain rfl := Except.error.inj (Option.some.inj h)
    rw [isAmbiguousExecuteError_atomic] at hclear
    cases hclear
  · cases h

/-- The reply to an execute that did not commit is lost, and another transaction of the party
spends the input: the settle reports a fill. When the input is live and the execute commits
later, it reports a requote. -/
theorem settle_misread : ¬ ∀ (swapper : AtomicSwapper) (envelope : AtomicQuoteEnvelope)
    (accepted : AtomicQuoteInfo) (direction : FillDirection) (maxInputHoldings : Nat)
    (w : SettleAnswers ScaledInt), (∀ params expectation flags n,
      Classified (w.submit params expectation flags n).watch
        (w.submit params expectation flags n).commits) →
    SettleAgrees w.cache envelope.quoteId
      (settleEnvelopeWith swapper envelope accepted direction maxInputHoldings w) := by
  intro h
  have agrees : SettleAgrees usdCache "q" (usdSettle lostExecute [] false) :=
    h usdSwapper usdEnvelope ⟨"LP", "lp", "1", "100", none⟩ .buy 10 (usdAnswers lostExecute [] false)
      fun _ _ _ _ => classified_lostExecute false
  exact not_agrees_of_fill (by decide +kernel) (by decide +kernel) agrees

theorem requote_commits_later : ¬ SettleAgrees usdCache "q" (usdSettle lostExecute ["c1"] true) :=
  not_agrees_of_requote (by decide +kernel) (by decide +kernel)

theorem classified_committed : Classified (.done (.ok ⟨true, "u", "", ""⟩)) true := by
  refine ⟨fun _ _ _ => rfl, fun resp h hfails => ?_, fun e h => ?_, fun h => ?_⟩
  · cases h
    cases hfails
  · cases h
  · cases h

/-- A submit that succeeds. -/
theorem settle_agrees_committed :
    SettleAgrees usdCache usdEnvelope.quoteId (usdSettle (.done (.ok ⟨true, "u", "", ""⟩)) [] true) ↔
      ∀ a ∈ (usdSettle (.done (.ok ⟨true, "u", "", ""⟩)) [] true).rounds,
        InputsTell (usdSettle (.done (.ok ⟨true, "u", "", ""⟩)) [] true).inputs a := by
  have classified (params : AtomicDvpSettleParams) (expectation : OperationExpectation)
      (flags : SubmitFlags) (n : Nat) :
      Classified ((usdAnswers (.done (.ok ⟨true, "u", "", ""⟩)) [] true).submit params expectation
        flags n).watch ((usdAnswers (.done (.ok ⟨true, "u", "", ""⟩)) [] true).submit params
        expectation flags n).commits := classified_committed
  exact settle_agrees_iff classified

end Example

end BookAgent.CloudAgent
