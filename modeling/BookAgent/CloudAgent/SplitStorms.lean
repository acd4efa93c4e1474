import BookAgent.CloudAgent.SplitWorker
import BookAgent.Lib.Run
import BookAgent.Lib.ScaledInt
import BookAgent.Lib.SpacedTimes

/-!
# Split storms

The gate reads the recorded submissions, and the submission is recorded awaits later. The
splitter reserve does not serialize the calls in between: a reserve that was released, or
another holding that became the largest, lets a second call through the same gate. Where no
submission came in between, submissions keep the interval and the hourly cap.
-/

namespace BookAgent.CloudAgent

open BookAgent.Lib

variable {D : Type} {cfg : SplitConfig D} {w : SplitWorld D}

/-! ## Runs -/

/-- The submissions that a call has seen which records one next. -/
def SplitStage.recordsAfter : SplitStage D → Option (List Instant)
  | .reserved _ _ seen => some seen
  | _ => none

namespace SplitWorld

/-- A fresh cache, and no calls yet. -/
def Begins (cfg : SplitConfig D) (w : SplitWorld D) : Prop :=
  w.calls = [] ∧ w.submissions = [] ∧ w.cache.splitOpTimes.lookup cfg.key = none

/-- The clock does not go back. -/
def Allows (w : SplitWorld D) : SplitEvent D → Prop
  | .step _ readAt now _ => w.clock ≤ readAt ∧ readAt ≤ now
  | .submitEnds _ _ now | .holdings _ now | .snapshotEnds _ now => w.clock ≤ now
  | .call | .drop _ => True

/-- A call records its submission only if there was none since it passed the gate. -/
def Undisturbed (w : SplitWorld D) : SplitEvent D → Prop
  | .step i _ _ _ => ∀ seen ∈ (w.calls[i]?).bind SplitStage.recordsAfter, seen = w.submissions
  | _ => True

instance (w : SplitWorld D) (e : SplitEvent D) : Decidable (w.Allows e) :=
  match e with
  | .step _ readAt now _ => inferInstanceAs (Decidable (w.clock ≤ readAt ∧ readAt ≤ now))
  | .submitEnds _ _ now | .holdings _ now | .snapshotEnds _ now =>
    inferInstanceAs (Decidable (w.clock ≤ now))
  | .call | .drop _ => isTrue trivial

instance (w : SplitWorld D) (e : SplitEvent D) : Decidable (w.Undisturbed e) :=
  match e with
  | .step i _ _ _ => inferInstanceAs
    (Decidable (∀ seen ∈ (w.calls[i]?).bind SplitStage.recordsAfter, seen = w.submissions))
  | .call | .drop _ | .submitEnds _ _ _ | .holdings _ _ | .snapshotEnds _ _ => isTrue trivial

end SplitWorld

/-- The submissions are apart by the minimum interval, and within the hourly cap. -/
def SplitConfig.SpacedBy (cfg : SplitConfig D) (submissions : List Instant) : Prop :=
  Spaced (seconds cfg.splitMinIntervalSecs) splitBudgetWindow cfg.splitMaxOpsPerHour submissions

/-! ## The gate -/

theorem secsSince_lt_iff {now earlier : Instant} {n : Nat} :
    secsSince now earlier < n ↔ now - earlier < seconds n :=
  Nat.div_lt_iff_lt_mul (by decide)

/-- The recorded times are the submissions of the window up to the last record. -/
def OpsRecorded (cfg : SplitConfig D) (w : SplitWorld D) : Prop :=
  ∃ recordedAt ≤ w.clock, (w.cache.splitOpTimes.lookup cfg.key).getD [] =
    w.submissions.filter fun t => decide (secsSince recordedAt t < splitOpWindowSecs)

theorem OpsRecorded.splitOps (h : OpsRecorded cfg w) {now : Instant} (hnow : w.clock ≤ now) :
    w.cache.splitOps cfg.key now =
      w.submissions.filter fun t => decide (secsSince now t < splitOpWindowSecs) := by
  obtain ⟨recordedAt, hrecorded, hops⟩ := h
  rw [SplitCache.splitOps, hops, List.filter_filter]
  refine List.filter_congr fun t _ => ?_
  have hmono : secsSince recordedAt t ≤ secsSince now t :=
    secsSince_mono (Nat.le_trans hrecorded hnow)
  rw [Bool.and_eq_left_iff_imp]
  simp only [decide_eq_true_eq]
  omega

/-- What the gate says when it allows. -/
theorem splitGate_allow {opTimes : List Instant} {now minInterval : Instant} {maxOps : Nat}
    (h : splitGate opTimes now minInterval maxOps = .allow) :
    (opTimes.countP fun t => decide (now - t < splitBudgetWindow)) < maxOps ∧
      ∀ t ∈ opTimes, minInterval ≤ now - t := by
  unfold splitGate at h
  dsimp only at h
  split at h
  · cases h
  · next hbudget =>
    refine ⟨Nat.lt_of_not_le hbudget, fun t ht => ?_⟩
    cases hlast : opTimes.max? with
    | none =>
      rw [List.max?_eq_none_iff.mp hlast] at ht
      cases ht
    | some last =>
      simp only [hlast] at h
      split at h
      · cases h
      · next hinterval =>
        have hle := (List.max?_eq_some_iff.mp hlast).2 t ht
        unfold Instant at *
        omega

/-- What the gate allows may follow every submission so far. -/
theorem mayFollow_of_splitGate {readAt now : Instant} (hops : OpsRecorded cfg w)
    (hpast : ∀ t ∈ w.submissions, t ≤ w.clock) (hread : w.clock ≤ readAt) (hnow : readAt ≤ now)
    (hmin : cfg.splitMinIntervalSecs ≤ splitOpWindowSecs)
    (hgate : splitGate (w.cache.splitOps cfg.key readAt) now (seconds cfg.splitMinIntervalSecs)
      cfg.splitMaxOpsPerHour = .allow) :
    MayFollow (seconds cfg.splitMinIntervalSecs) splitBudgetWindow cfg.splitMaxOpsPerHour
      w.submissions now := by
  rw [hops.splitOps hread] at hgate
  obtain ⟨hbudget, hinterval⟩ := splitGate_allow hgate
  have hclock : w.clock ≤ now := Nat.le_trans hread hnow
  have hwindow : seconds cfg.splitMinIntervalSecs ≤ seconds splitOpWindowSecs :=
    Nat.mul_le_mul_right _ hmin
  refine ⟨fun t ht => ?_, ?_⟩
  · have htnow : t ≤ now := Nat.le_trans (hpast t ht) hclock
    have hgap : seconds cfg.splitMinIntervalSecs ≤ now - t := by
      by_cases hkept : secsSince readAt t < splitOpWindowSecs
      · exact hinterval t (List.mem_filter.mpr ⟨ht, decide_eq_true hkept⟩)
      · have hold : seconds splitOpWindowSecs ≤ readAt - t := by
          rw [secsSince_lt_iff] at hkept
          exact Nat.le_of_not_lt hkept
        exact Nat.le_trans hwindow (Nat.le_trans hold (Nat.sub_le_sub_right hnow t))
    exact Nat.add_le_of_le_sub' htnow hgap
  · refine Nat.lt_of_le_of_lt ?_ hbudget
    rw [List.countP_filter]
    refine List.countP_mono_left fun t ht hrecent => ?_
    have htread : t ≤ readAt := Nat.le_trans (hpast t ht) hread
    have hlt : now - t < splitBudgetWindow := Nat.sub_lt_left_of_lt_add
      (Nat.le_trans htread hnow) (of_decide_eq_true hrecent)
    have hkept : secsSince readAt t < splitOpWindowSecs := by
      rw [secsSince_lt_iff]
      exact Nat.lt_of_le_of_lt (Nat.sub_le_sub_right hnow t) hlt
    rw [decide_eq_true hlt, decide_eq_true hkept]
    rfl

/-! ## The invariant -/

/-- The submissions there were when the call passed the gate. -/
def SplitStage.seen : SplitStage D → Option (List Instant)
  | .passed _ seen | .funded _ _ seen | .reserved _ _ seen => some seen
  | _ => none

/-- The call may still record a submission after those that it has seen. -/
def SplitStage.Cleared (cfg : SplitConfig D) (clock : Instant) (stage : SplitStage D) : Prop :=
  ∀ seen, stage.seen = some seen →
    MayFollow (seconds cfg.splitMinIntervalSecs) splitBudgetWindow cfg.splitMaxOpsPerHour seen clock

structure SplitInv (cfg : SplitConfig D) (w : SplitWorld D) : Prop where
  ops : OpsRecorded cfg w
  past : ∀ t ∈ w.submissions, t ≤ w.clock
  spaced : cfg.SpacedBy w.submissions
  cleared : ∀ stage ∈ w.calls, stage.Cleared cfg w.clock

theorem SplitStage.Cleared.later {clock clock' : Instant} {stage : SplitStage D}
    (h : stage.Cleared cfg clock) (hle : clock ≤ clock') : stage.Cleared cfg clock' :=
  fun seen hseen => (h seen hseen).later hle

theorem SplitStage.cleared_of_none {clock : Instant} {stage : SplitStage D}
    (h : stage.seen = none) : stage.Cleared cfg clock := by
  intro seen hseen
  cases h.symm.trans hseen

/-- A step that submits nothing keeps the invariant if the calls it leaves are cleared. -/
theorem SplitInv.frame {w' : SplitWorld D} (h : SplitInv cfg w)
    (hops : w'.cache.splitOpTimes = w.cache.splitOpTimes)
    (hsubmissions : w'.submissions = w.submissions) (hclock : w.clock ≤ w'.clock)
    (hcalls : ∀ stage ∈ w'.calls, stage ∈ w.calls ∨ stage.Cleared cfg w'.clock) :
    SplitInv cfg w' where
  ops := by
    obtain ⟨recordedAt, hle, hrecorded⟩ := h.ops
    exact ⟨recordedAt, Nat.le_trans hle hclock, by rw [hops, hsubmissions, hrecorded]⟩
  past t ht := by
    rw [hsubmissions] at ht
    exact Nat.le_trans (h.past t ht) hclock
  spaced := by
    rw [hsubmissions]
    exact h.spaced
  cleared stage hstage := by
    rcases hcalls stage hstage with hold | hnew
    · exact (h.cleared stage hold).later hclock
    · exact hnew

/-- One call moves on to a stage that is cleared. -/
theorem SplitInv.moved {w' : SplitWorld D} {i : Nat} {stage : SplitStage D} (h : SplitInv cfg w)
    (hops : w'.cache.splitOpTimes = w.cache.splitOpTimes)
    (hsubmissions : w'.submissions = w.submissions) (hclock : w.clock ≤ w'.clock)
    (hcalls : w'.calls = w.calls.set i stage) (hcleared : stage.Cleared cfg w'.clock) :
    SplitInv cfg w' := by
  refine h.frame hops hsubmissions hclock fun s hs => ?_
  rw [hcalls] at hs
  rcases List.mem_or_eq_of_mem_set hs with hold | rfl
  · exact .inl hold
  · exact .inr hcleared

theorem cleared_plan [LadderDecimal D] (clock : Instant) (haves : List Nat) :
    (SplitWorld.plan cfg haves).Cleared cfg clock := by
  refine SplitStage.cleared_of_none ?_
  unfold SplitWorld.plan
  dsimp only
  split
  · rfl
  · split <;> rfl

/-- A submission that was not overtaken keeps the spacing. -/
theorem SplitInv.recorded {i : Nat} {now : Instant} {inputCids : List String}
    {splits : List (D × Nat)} {seen : List Instant} (h : SplitInv cfg w) (hclock : w.clock ≤ now)
    (hstage : w.calls[i]? = some (.reserved inputCids splits seen))
    (hseen : seen = w.submissions) :
    SplitInv cfg { w.setCall i (.submitting inputCids splits) with
      cache := w.cache.recordSplitOp cfg.key now
      submissions := w.submissions ++ [now]
      clock := now } := by
  subst hseen
  have hmay := (h.cleared _ (List.mem_of_getElem? hstage) _ rfl).later hclock
  refine ⟨⟨now, Nat.le_refl now, ?_⟩, fun t ht => ?_, h.spaced.concat hmay, fun stage hs => ?_⟩
  · have hfresh : secsSince now now < splitOpWindowSecs := by
      rw [secsSince_lt_iff, Nat.sub_self]
      decide
    show ((w.cache.splitOpTimes.insert cfg.key _).lookup cfg.key).getD [] = _
    rw [AList.lookup_insert, Option.getD_some, h.ops.splitOps hclock, List.filter_append]
    simp only [List.filter_singleton, hfresh, decide_true, cond_true]
  · rcases List.mem_append.mp ht with ht | ht
    · exact Nat.le_trans (h.past t ht) hclock
    · rw [List.mem_singleton.mp ht]
  · rcases List.mem_or_eq_of_mem_set hs with hold | rfl
    · exact (h.cleared stage hold).later hclock
    · exact SplitStage.cleared_of_none rfl

theorem SplitInv.begins (h : w.Begins cfg) : SplitInv cfg w := by
  obtain ⟨hcalls, hsubmissions, hops⟩ := h
  refine ⟨⟨w.clock, Nat.le_refl _, ?_⟩, fun t ht => ?_, ?_, fun stage hs => ?_⟩
  · rw [hops, hsubmissions]
    rfl
  · rw [hsubmissions] at ht
    cases ht
  · rw [hsubmissions]
    exact Spaced.nil
  · rw [hcalls] at hs
    cases hs

theorem SplitInv.submitEnds (h : SplitInv cfg w) (i : Nat) (result : Except String String)
    {now : Instant} (hclock : w.clock ≤ now) :
    SplitInv cfg { w.submitEnds i result now with clock := now } := by
  unfold SplitWorld.submitEnds
  split
  · cases result with
    | ok updateId => exact h.moved rfl rfl hclock rfl (SplitStage.cleared_of_none rfl)
    | error e => exact h.moved rfl rfl hclock rfl (SplitStage.cleared_of_none rfl)
  · exact h.frame rfl rfl hclock fun stage hs => .inl hs

variable [LadderDecimal D]

/-- One step of a call. -/
theorem SplitInv.stepCall (hmin : cfg.splitMinIntervalSecs ≤ splitOpWindowSecs)
    (h : SplitInv cfg w) {i : Nat} {readAt now : Instant} (jobId : String)
    (hread : w.clock ≤ readAt) (hnow : readAt ≤ now)
    (hundisturbed : w.Undisturbed (.step i readAt now jobId)) :
    SplitInv cfg { w.stepCall cfg i readAt now jobId with clock := now } := by
  have hclock : w.clock ≤ now := Nat.le_trans hread hnow
  have hended : (SplitStage.ended : SplitStage D).Cleared cfg now := SplitStage.cleared_of_none rfl
  unfold SplitWorld.stepCall
  split
  · next haves hstage =>
    split
    · refine h.moved rfl rfl hclock rfl ?_
      dsimp only
      split
      · exact SplitStage.cleared_of_none rfl
      · exact cleared_plan now _
    · exact h.moved rfl rfl hclock rfl (cleared_plan now _)
  · next deficits hstage =>
    split
    · next hgate =>
      refine h.moved rfl rfl hclock rfl fun seen hseen => ?_
      obtain rfl := Option.some.inj hseen
      exact mayFollow_of_splitGate h.ops h.past hread hnow hmin hgate
    · exact h.moved rfl rfl hclock rfl hended
  · next deficits seen hstage =>
    have hcleared := (h.cleared _ (List.mem_of_getElem? hstage)).later hclock
    split
    · exact h.moved rfl rfl hclock rfl hended
    · refine h.moved rfl rfl hclock rfl ?_
      dsimp only
      split
      · exact hended
      · exact hcleared
  · next reserve splits seen hstage =>
    have hcleared := (h.cleared _ (List.mem_of_getElem? hstage)).later hclock
    dsimp only
    split
    · exact h.moved rfl rfl hclock rfl hcleared
    · exact h.moved rfl rfl hclock rfl hended
  · next inputCids splits seen hstage =>
    have hseen : seen = w.submissions := hundisturbed seen (by rw [hstage]; rfl)
    exact h.recorded hclock hstage hseen
  · exact h.moved rfl rfl hclock rfl hended
  · exact h.frame rfl rfl hclock fun stage hs => .inl hs

theorem SplitInv.apply (hmin : cfg.splitMinIntervalSecs ≤ splitOpWindowSecs) (h : SplitInv cfg w)
    {e : SplitEvent D} (hallows : w.Allows e) (hundisturbed : w.Undisturbed e) :
    SplitInv cfg (w.apply cfg e) := by
  cases e with
  | call =>
    refine h.frame rfl rfl (Nat.le_refl _) fun stage hs => ?_
    rcases List.mem_append.mp hs with hold | hnew
    · exact .inl hold
    · rw [List.mem_singleton.mp hnew]
      exact .inr (SplitStage.cleared_of_none rfl)
  | step i readAt now jobId => exact h.stepCall hmin jobId hallows.1 hallows.2 hundisturbed
  | submitEnds i result now => exact h.submitEnds i result hallows
  | drop i => exact h.moved rfl rfl (Nat.le_refl _) rfl (SplitStage.cleared_of_none rfl)
  | holdings holdings now => exact h.frame rfl rfl hallows fun stage hs => .inl hs
  | snapshotEnds snapshotStart now => exact h.frame rfl rfl hallows fun stage hs => .inl hs

/-- Submissions keep the minimum interval and the hourly cap in every run in which no call is
overtaken between the gate and its submission. -/
theorem SplitWorld.spaced_of_undisturbed (hmin : cfg.splitMinIntervalSecs ≤ splitOpWindowSecs)
    {w₀ : SplitWorld D} (hbegins : w₀.Begins cfg)
    (run : Reachable (fun w e => w.Allows e ∧ w.Undisturbed e) (·.apply cfg) w₀ w) :
    cfg.SpacedBy w.submissions := by
  have hinv : SplitInv cfg w := run.invariant _ (.begins hbegins)
    fun w e hinv hallowed => hinv.apply hmin hallowed.1 hallowed.2
  exact hinv.spaced

/-! ### Concrete runs -/

/-- Division to ten places. -/
local instance exactLadder : LadderDecimal ScaledInt where
  saturatingMul a b := (Decimal.checkedMul a b).getD a
  checkedDiv a b :=
    let scale := max a.scale b.scale
    if b.mantissa = 0 then none
    else some ⟨a.mantissaAt scale * 10 ^ 10 / b.mantissaAt scale, 10⟩
  truncToU32 d :=
    let whole := d.mantissa / 10 ^ d.scale
    if 0 ≤ whole ∧ whole ≤ u32Max then some whole.toNat else none

/-- Two rungs of 10, the default interval of two minutes and six splits an hour. -/
def tensLadder : SplitConfig ScaledInt := ⟨"USDC", [(⟨10, 0⟩, 2)], 2, 120, 6⟩

/-- One holding of 100, the reserve. -/
def reserveOnly : SplitWorld ScaledInt where
  cache := ⟨(HoldingsCache.new true).addCreated [⟨"big", "Holding", "USDC", ⟨100, 0⟩, none, "global", 0⟩],
    [], ∅⟩
  calls := []
  clock := 0
  submissions := []

/-- A call from its start to its submission, at one instant. -/
def wholeCall (i : Nat) (now : Instant) : List (SplitEvent ScaledInt) :=
  .call :: List.replicate 5 (.step i now now "job")

/-- Two calls one after the other, with the interval in between. -/
def patientRun : List (SplitEvent ScaledInt) :=
  wholeCall 0 (seconds 1) ++ .submitEnds 0 (.error "timeout") (seconds 2) ::
    wholeCall 1 (seconds 121)

theorem spaced_over_patient_run :
    tensLadder.SpacedBy [seconds 1, seconds 121] := by
  have hrun : Reachable (fun w e => w.Allows e ∧ w.Undisturbed e) (·.apply tensLadder) reserveOnly
      (patientRun.foldl (·.apply tensLadder) reserveOnly) :=
    Reachable.start.foldl (by decide +kernel)
  have hsubmissions : (patientRun.foldl (·.apply tensLadder) reserveOnly).submissions =
      [seconds 1, seconds 121] := by decide +kernel
  have hspaced := SplitWorld.spaced_of_undisturbed (by decide) ⟨rfl, rfl, rfl⟩ hrun
  rwa [hsubmissions] at hspaced

/-- Both calls pass the gate; the first one's submit fails and releases the reserve, and the second
one takes it. -/
def stormRun : List (SplitEvent ScaledInt) :=
  [.call, .call, .step 0 (seconds 1) (seconds 1) "", .step 1 (seconds 1) (seconds 1) "",
    .step 0 (seconds 1) (seconds 1) "", .step 1 (seconds 1) (seconds 1) ""] ++
  List.replicate 3 (.step 0 (seconds 1) (seconds 1) "job") ++
  .submitEnds 0 (.error "timeout") (seconds 2) ::
    List.replicate 3 (.step 1 (seconds 2) (seconds 2) "job")

/-- Two submissions a second apart, where two minutes are configured. -/
theorem submits_within_interval : ∃ (cfg : SplitConfig ScaledInt) (w₀ w : SplitWorld ScaledInt),
    w₀.Begins cfg ∧ Reachable (fun w e => w.Allows e) (·.apply cfg) w₀ w ∧
    cfg.splitMinIntervalSecs = 120 ∧ w.submissions = [seconds 1, seconds 2] ∧
    ¬ cfg.SpacedBy w.submissions := by
  have hrun : Reachable (fun w e => w.Allows e) (·.apply tensLadder) reserveOnly
      (stormRun.foldl (·.apply tensLadder) reserveOnly) :=
    Reachable.start.foldl (by decide +kernel)
  have hsubmissions : (stormRun.foldl (·.apply tensLadder) reserveOnly).submissions =
      [seconds 1, seconds 2] := by decide +kernel
  refine ⟨tensLadder, reserveOnly, _, ⟨rfl, rfl, rfl⟩, hrun, rfl, hsubmissions, fun hspaced => ?_⟩
  rw [hsubmissions] at hspaced
  have hapart := List.rel_of_pairwise_cons hspaced.apart (List.mem_singleton.mpr rfl)
  exact absurd hapart (by decide)

end BookAgent.CloudAgent
