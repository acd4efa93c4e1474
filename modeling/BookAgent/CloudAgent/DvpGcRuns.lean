import BookAgent.CloudAgent.DvpGc
import BookAgent.Lib.Run

/-!
# The collector over whole runs

Whatever the scans, the gate and the submissions answer, and whenever a shutdown comes: what is
submitted has expired, passed the gate and kept its distance from the last submission, and a cycle
takes its queue in order and counts what became of it.
-/

namespace BookAgent.CloudAgent

open BookAgent.Lib BookAgent.AgentLogic BookAgent.AtomicQuote

/-- The proposal may be archived: its window ended more than the margin before the scan, and it is the
party's own, or one to the party that is to be rejected. -/
structure Expired (cfg : GcConfig) (nowMicros : Int) (args : Json) (item : GcItem) : Prop where
  settleBefore : ((args.pointer ["terms", "settleBefore"]).bind microsValue) =
    some item.settleBeforeMicros
  past : item.settleBeforeMicros < clampI64 (nowMicros - marginMicros cfg.safetyMarginSecs)
  parties : item.action = .cancel ∧ (args.get "proposer").bind Json.asStr = some cfg.partyId ∨
    item.action = .reject ∧ (args.get "counterparty").bind Json.asStr = some cfg.partyId ∧
      (args.get "proposer").bind Json.asStr ≠ some cfg.partyId ∧ cfg.rejectEnabled = true

theorem expired_of_gcItem {cfg : GcConfig} {nowMicros : Int} {c : GcContract} {item : GcItem}
    (h : gcItem cfg nowMicros c = some item) : c.contractId = item.cid ∧
      ∃ args, c.createArguments = some args ∧ Expired cfg nowMicros args item := by
  simp only [gcItem, Option.bind_eq_bind, Option.bind_eq_some_iff] at h
  obtain ⟨args, hargs, ⟨action, settleBefore⟩, hclass, heq⟩ := h
  obtain rfl := Option.some.inj heq
  refine ⟨rfl, args, hargs, ?_⟩
  simp only [classifyProposal, Option.bind_eq_bind, Option.bind_eq_some_iff] at hclass
  obtain ⟨value, hvalue, micros, hmicros, hclass⟩ := hclass
  split at hclass
  · cases hclass
  · rename_i hpast
    simp only [Option.bind_eq_some_iff] at hclass
    obtain ⟨json, hjson, proposer, hproposer, hclass⟩ := hclass
    have hsettle : (args.pointer ["terms", "settleBefore"]).bind microsValue = some micros := by
      rw [hvalue]
      exact hmicros
    split at hclass
    · rename_i hown
      cases hclass
      refine ⟨hsettle, Int.not_le.mp hpast, .inl ⟨rfl, ?_⟩⟩
      rw [hjson, ← hown]
      exact hproposer
    · rename_i hforeign
      simp only [Option.bind_eq_some_iff] at hclass
      obtain ⟨json', hjson', counterparty, hcounterparty, hclass⟩ := hclass
      split at hclass
      · rename_i hreject
        cases hclass
        refine ⟨hsettle, Int.not_le.mp hpast, .inr ⟨rfl, ?_, ?_, hreject.2⟩⟩
        · rw [hjson', ← hreject.1]
          exact hcounterparty
        · rw [hjson]
          exact fun hsame => hforeign (Option.some.inj (hproposer.symm.trans hsame))
      · cases hclass

/-- The failures since the last archival that succeeded; the latest end comes first. -/
def failuresIn : List GcEnd → Nat
  | .failed :: ends => failuresIn ends + 1
  | .archived :: _ => 0
  | _ :: ends => failuresIn ends
  | [] => 0

namespace GcWorld

variable {cfg : GcConfig} {w : GcWorld}

/-! ## Invariants -/

/-- The least distance of two submissions. -/
def gap (cfg : GcConfig) : Nat := min cfg.delay cfg.refresh

/-- When the next submission may start at the earliest. -/
def readyAt (w : GcWorld) : Instant :=
  match w.phase with
  | .idle wake => wake
  | .pausing wake => wake
  | _ => w.now

structure Apart (cfg : GcConfig) (w : GcWorld) : Prop where
  apart : w.submits.Pairwise fun later earlier => earlier.startedAt + gap cfg ≤ later.startedAt
  past : ∀ s ∈ w.submits, s.startedAt ≤ w.now
  ready : w.phase ≠ .submitting → w.phase ≠ .stopped → ∀ s ∈ w.submits, s.startedAt + gap cfg ≤ w.readyAt

/-- A submission passed the gate, and its scan has it. -/
def Sent (cfg : GcConfig) (s : GcSubmit) : Prop :=
  gateBlock cfg s.coefficient s.pauseSecs = none ∧
    ∃ c ∈ s.contracts, gcItem cfg s.nowMicros c = some s.item

structure Counted (cfg : GcConfig) (w : GcWorld) : Prop where
  queue : w.cycle.tried ++ w.cycle.rest = scanQueue cfg w.cycle.nowMicros w.cycle.contracts
  done : w.cycle.done = w.ends.count .archived
  gone : w.cycle.skippedGone = w.ends.count .gone
  backpressured : w.cycle.backpressured = w.ends.count .backpressured
  failures : w.cycle.consecutiveFailures = failuresIn w.ends
  few : (∀ wake, w.phase ≠ .idle wake) → w.phase ≠ .stopped →
    w.cycle.consecutiveFailures < maxConsecutiveFailures
  tried : w.cycle.tried.length = w.ends.length + if w.phase = .submitting then 1 else 0
  logged : (w.submits.take w.cycle.tried.length).map (·.item) = w.cycle.tried.reverse

structure Sound (cfg : GcConfig) (w : GcWorld) : Prop where
  apart : w.Apart cfg
  sent : ∀ s ∈ w.submits, Sent cfg s
  counted : w.Counted cfg

/-! ### The ways of a step -/

theorem Apart.to_phase {phase : GcPhase} (h : w.Apart cfg)
    (hready : phase ≠ .submitting → phase ≠ .stopped → ∀ s ∈ w.submits,
      s.startedAt + gap cfg ≤ ({ w with phase } : GcWorld).readyAt) :
    ({ w with phase } : GcWorld).Apart cfg :=
  ⟨h.apart, h.past, hready⟩

theorem Counted.to_phase {phase : GcPhase} (h : w.Counted cfg) (hnow : w.phase ≠ .submitting)
    (hthen : phase ≠ .submitting)
    (hfew : (∀ wake, phase ≠ .idle wake) → phase ≠ .stopped →
      w.cycle.consecutiveFailures < maxConsecutiveFailures) :
    ({ w with phase } : GcWorld).Counted cfg :=
  ⟨h.queue, h.done, h.gone, h.backpressured, h.failures, hfew,
    by rw [if_neg hthen]; simpa [hnow] using h.tried, h.logged⟩

theorem Sound.stop (h : w.Sound cfg) (hnow : w.phase ≠ .submitting) :
    ({ w with phase := .stopped } : GcWorld).Sound cfg :=
  ⟨h.apart.to_phase fun _ hstopped => absurd rfl hstopped, h.sent,
    h.counted.to_phase hnow GcPhase.noConfusion fun _ hstopped => absurd rfl hstopped⟩

/-- A sleep of the delay or of the refresh keeps the distance. -/
theorem Sound.sleep (h : w.Sound cfg) (hnow : w.phase ≠ .submitting) {span : Nat}
    (hspan : gap cfg ≤ span) : ({ w with phase := .idle (w.now + span) } : GcWorld).Sound cfg := by
  refine ⟨h.apart.to_phase fun _ _ s hs => ?_, h.sent,
    h.counted.to_phase hnow GcPhase.noConfusion fun hidle => absurd rfl (hidle _)⟩
  exact Nat.add_le_add (h.apart.past s hs) hspan

theorem gap_le_delay : gap cfg ≤ cfg.delay := Nat.min_le_left ..

theorem gap_le_refresh : gap cfg ≤ cfg.refresh := Nat.min_le_right ..

theorem Sound.finish (h : w.Sound cfg) (hnow : w.phase ≠ .submitting) : (w.finish cfg).Sound cfg := by
  refine h.sleep hnow ?_
  split
  · exact gap_le_delay
  · exact gap_le_refresh

/-- Where the gate is asked, enough time has passed. -/
theorem Sound.submit (h : w.Sound cfg) {coeff : ExactFloat} {pauseSecs : Option Nat}
    (hnow : w.phase ≠ .submitting) (hidle : ∀ wake, w.phase ≠ .idle wake) (hstopped : w.phase ≠ .stopped)
    (hready : w.readyAt = w.now) (hopen : gateBlock cfg coeff pauseSecs = none) :
    (w.submit cfg coeff pauseSecs).Sound cfg := by
  unfold GcWorld.submit
  split
  · exact h.finish hnow
  · rename_i item rest hrest
    have hqueue : (w.cycle.tried ++ [item]) ++ rest =
        scanQueue cfg w.cycle.nowMicros w.cycle.contracts := by
      rw [List.append_assoc, List.singleton_append, ← hrest]
      exact h.counted.queue
    have hitem : item ∈ scanQueue cfg w.cycle.nowMicros w.cycle.contracts := by
      rw [← hqueue]
      exact List.mem_append_left _ (List.mem_append_right _ List.mem_cons_self)
    refine ⟨⟨?_, ?_, fun hsubmitting => absurd rfl hsubmitting⟩, ?_, ?_⟩
    · refine List.pairwise_cons.mpr ⟨fun s hs => ?_, h.apart.apart⟩
      exact hready ▸ h.apart.ready hnow hstopped s hs
    · intro s hs
      rcases List.mem_cons.mp hs with rfl | hs
      · exact Nat.le_refl _
      · exact h.apart.past s hs
    · intro s hs
      rcases List.mem_cons.mp hs with rfl | hs
      · rw [scanQueue, List.mem_insertionSort, List.mem_filterMap] at hitem
        exact ⟨hopen, hitem⟩
      · exact h.sent s hs
    · have htried : w.cycle.tried.length = w.ends.length := by
        simpa [hnow] using h.counted.tried
      refine ⟨hqueue, h.counted.done, h.counted.gone, h.counted.backpressured, h.counted.failures,
        fun _ _ => h.counted.few hidle hstopped, ?_, ?_⟩
      · simp [htried]
      · simpa [List.take_succ_cons] using h.counted.logged

theorem Sound.gate (h : w.Sound cfg) (coeff : ExactFloat) (pauseSecs : Option Nat) :
    (w.gate cfg coeff pauseSecs).Sound cfg := by
  unfold GcWorld.gate
  split
  · rename_i hphase
    have hnow : w.phase ≠ .submitting := by simp [hphase]
    have hidle : ∀ wake, w.phase ≠ .idle wake := by simp [hphase]
    have hstopped : w.phase ≠ .stopped := by simp [hphase]
    have hready : w.readyAt = w.now := by simp [readyAt, hphase]
    split
    · exact h.finish hnow
    · split
      · exact h.stop hnow
      · split
        · rename_i hopen
          exact h.submit hnow hidle hstopped hready (Option.isNone_iff_eq_none.mp hopen)
        · refine ⟨h.apart.to_phase fun _ _ s hs => ?_, h.sent,
            h.counted.to_phase hnow GcPhase.noConfusion fun _ _ => h.counted.few hidle hstopped⟩
          exact hready ▸ h.apart.ready hnow hstopped s hs
  · rename_i started poll hphase
    have hnow : w.phase ≠ .submitting := by simp [hphase]
    have hidle : ∀ wake, w.phase ≠ .idle wake := by simp [hphase]
    have hstopped : w.phase ≠ .stopped := by simp [hphase]
    have hready : w.readyAt = w.now := by simp [readyAt, hphase]
    split
    · exact h.stop hnow
    · split
      · rename_i hopen
        exact h.submit hnow hidle hstopped hready (Option.isNone_iff_eq_none.mp hopen)
      · split
        · have marked : ({ w with cycle := { w.cycle with gateTimedOut := true } } : GcWorld).Sound cfg :=
            ⟨⟨h.apart.apart, h.apart.past, h.apart.ready⟩, h.sent,
              ⟨h.counted.queue, h.counted.done, h.counted.gone, h.counted.backpressured,
                h.counted.failures, h.counted.few, h.counted.tried, h.counted.logged⟩⟩
          exact marked.finish hnow
        · refine ⟨h.apart.to_phase fun _ _ s hs => ?_, h.sent,
            h.counted.to_phase hnow GcPhase.noConfusion fun _ _ => h.counted.few hidle hstopped⟩
          exact hready ▸ h.apart.ready hnow hstopped s hs
  · exact h

/-- What the counters have after an end. -/
theorem Counted.count (h : w.Counted cfg) (hphase : w.phase = .submitting) (e : GcEnd) {phase : GcPhase}
    (hthen : phase ≠ .submitting)
    (hfew : (∀ wake, phase ≠ .idle wake) → phase ≠ .stopped →
      (w.cycle.count e).consecutiveFailures < maxConsecutiveFailures) :
    ({ w with phase, cycle := w.cycle.count e, ends := e :: w.ends } : GcWorld).Counted cfg := by
  have htried : w.cycle.tried.length = w.ends.length + 1 := by simpa [hphase] using h.tried
  refine ⟨?_, ?_, ?_, ?_, ?_, hfew, ?_, ?_⟩
  · cases e <;> exact h.queue
  · cases e <;> simp [GcCycle.count, h.done]
  · cases e <;> simp [GcCycle.count, h.gone]
  · cases e <;> simp [GcCycle.count, h.backpressured]
  · cases e <;> simp [GcCycle.count, failuresIn, h.failures]
  · rw [if_neg hthen]
    cases e <;> simpa [GcCycle.count] using htried
  · cases e <;> exact h.logged

/-- A submission has passed when one of the sleeps after it is over. -/
theorem Apart.slept {span : Nat} (h : w.Apart cfg) (hspan : gap cfg ≤ span) {s : GcSubmit}
    (hs : s ∈ w.submits) : s.startedAt + gap cfg ≤ w.now + span :=
  Nat.add_le_add (h.past s hs) hspan

/-- After an end the worker sleeps; within the cycle only if there were not too many failures. -/
theorem Sound.ended (h : w.Sound cfg) (hphase : w.phase = .submitting) (e : GcEnd) {span : Nat}
    (hspan : gap cfg ≤ span) {phase : GcPhase}
    (hsleeps : phase = .idle (w.now + span) ∨ phase = .pausing (w.now + span) ∧
      (w.cycle.count e).consecutiveFailures < maxConsecutiveFailures) :
    ({ w with phase, cycle := w.cycle.count e, ends := e :: w.ends } : GcWorld).Sound cfg := by
  rcases hsleeps with rfl | ⟨rfl, hfew⟩
  · exact ⟨⟨h.apart.apart, h.apart.past, fun _ _ _ hs => h.apart.slept hspan hs⟩, h.sent,
      h.counted.count hphase e GcPhase.noConfusion fun hidle => absurd rfl (hidle _)⟩
  · exact ⟨⟨h.apart.apart, h.apart.past, fun _ _ _ hs => h.apart.slept hspan hs⟩, h.sent,
      h.counted.count hphase e GcPhase.noConfusion fun _ _ => hfew⟩

theorem Sound.archive (h : w.Sound cfg) (hphase : w.phase = .submitting) (result : Except String Unit) :
    (w.archive cfg result).Sound cfg := by
  unfold GcWorld.archive
  dsimp only
  split
  · refine h.ended hphase (gcEnd result) ?_ (.inl rfl)
    split
    · exact gap_le_delay
    · exact gap_le_refresh
  · rename_i hgoes
    refine h.ended hphase (gcEnd result) gap_le_delay (.inr ⟨rfl, ?_⟩)
    have hfew := h.counted.few (by simp [hphase]) (by simp [hphase])
    cases hend : gcEnd result with
    | failed => simpa [hend] using hgoes
    | archived => exact Nat.lt_of_le_of_lt (Nat.zero_le _) hfew
    | gone => exact hfew
    | backpressured => exact hfew

/-- One event. -/
theorem Sound.apply (h : w.Sound cfg) {e : GcEvent} (hallowed : w.Allowed e) :
    (w.apply cfg e).Sound cfg := by
  have top (wake : Instant) (hphase : w.phase = .idle wake) : w.phase ≠ .submitting := by simp [hphase]
  cases e with
  | tick span =>
    refine ⟨⟨h.apart.apart, fun s hs => Nat.le_add_right_of_le (h.apart.past s hs),
      fun hsubmitting hstopped s hs => ?_⟩, h.sent, ⟨h.counted.queue, h.counted.done, h.counted.gone,
        h.counted.backpressured, h.counted.failures, h.counted.few, h.counted.tried, h.counted.logged⟩⟩
    have hready := h.apart.ready hsubmitting hstopped s hs
    refine Nat.le_trans hready ?_
    cases hphase : w.phase <;> simp [readyAt, GcWorld.apply, hphase]
  | shutdown =>
    exact ⟨⟨h.apart.apart, h.apart.past, h.apart.ready⟩, h.sent, ⟨h.counted.queue, h.counted.done,
      h.counted.gone, h.counted.backpressured, h.counted.failures, h.counted.few, h.counted.tried,
      h.counted.logged⟩⟩
  | noClient =>
    obtain ⟨wake, hphase, -⟩ := hallowed
    simp only [GcWorld.apply]
    split
    · exact h.stop (top wake hphase)
    · exact h.sleep (top wake hphase) gap_le_delay
  | scanFailed =>
    obtain ⟨wake, hphase, -⟩ := hallowed
    simp only [GcWorld.apply]
    split
    · exact h.stop (top wake hphase)
    · exact h.sleep (top wake hphase) gap_le_refresh
  | scanned nowMicros contracts =>
    obtain ⟨wake, hphase, hwake⟩ := hallowed
    simp only [GcWorld.apply]
    split
    · exact h.stop (top wake hphase)
    · rename_i hgoes
      have hready := h.apart.ready (top wake hphase) (by simp [hphase])
      simp only [readyAt, hphase] at hready
      refine ⟨⟨h.apart.apart, h.apart.past, fun _ _ s hs => ?_⟩, h.sent, ?_⟩
      · exact Nat.le_trans (hready s hs) (hwake.resolve_right hgoes)
      · exact ⟨rfl, rfl, rfl, rfl, rfl, fun _ _ => (by decide : 0 < maxConsecutiveFailures), rfl, rfl⟩
  | gate coeff pauseSecs => exact h.gate coeff pauseSecs
  | archived result => exact h.archive hallowed result
  | wake =>
    obtain ⟨wake, hphase, hwake⟩ := hallowed
    have hnow : w.phase ≠ .submitting := by simp [hphase]
    simp only [GcWorld.apply]
    split
    · exact h.stop hnow
    · rename_i hgoes
      have hready := h.apart.ready hnow (by simp [hphase])
      simp only [readyAt, hphase] at hready
      refine ⟨h.apart.to_phase fun _ _ s hs => ?_, h.sent,
        h.counted.to_phase hnow GcPhase.noConfusion fun _ _ =>
          h.counted.few (by simp [hphase]) (by simp [hphase])⟩
      exact Nat.le_trans (hready s hs) (hwake.resolve_right hgoes)

theorem sound_fresh (now : Instant) : (fresh now).Sound cfg := by
  refine ⟨⟨.nil, fun _ hs => (nomatch hs), fun _ _ _ hs => nomatch hs⟩, fun _ hs => (nomatch hs), ?_⟩
  exact ⟨rfl, rfl, rfl, rfl, rfl, fun hidle => absurd rfl (hidle now), rfl, rfl⟩

theorem Sound.of_reachable {now : Instant} (run : Reachable Allowed (GcWorld.apply cfg) (fresh now) w) :
    w.Sound cfg :=
  run.invariant (Sound cfg) (sound_fresh now) fun _ _ hinv hallowed => hinv.apply hallowed

/-! ## What a run does -/

theorem submits_of_shuttingDown (cfg : GcConfig) (hdown : w.shuttingDown = true) (e : GcEvent) :
    (w.apply cfg e).submits = w.submits ∧ (w.apply cfg e).shuttingDown = true := by
  cases e with
  | tick span => exact ⟨rfl, hdown⟩
  | shutdown => exact ⟨rfl, rfl⟩
  | noClient => exact ⟨rfl, hdown⟩
  | scanFailed => exact ⟨rfl, hdown⟩
  | scanned nowMicros contracts =>
    rw [GcWorld.apply, if_pos hdown]
    exact ⟨rfl, hdown⟩
  | gate coeff pauseSecs =>
    simp only [GcWorld.apply, GcWorld.gate]
    split
    · split
      · exact ⟨rfl, hdown⟩
      · exact ⟨rfl, hdown⟩
    · rw [if_pos hdown]
      exact ⟨rfl, hdown⟩
    · exact ⟨rfl, hdown⟩
  | archived result =>
    simp only [GcWorld.apply, GcWorld.archive]
    split <;> exact ⟨rfl, hdown⟩
  | wake => exact ⟨rfl, hdown⟩

/-- Every submission of a run is of a proposal of the latest scan whose window ended more than the
margin before it, by the choice the party has, and found the gate open; two submissions are at least
the delay apart, or the refresh if that is shorter; and none starts after a shutdown. -/
theorem submits_expired_proposals {now : Instant}
    (run : Reachable Allowed (GcWorld.apply cfg) (fresh now) w) :
    (∀ s ∈ w.submits, gateBlock cfg s.coefficient s.pauseSecs = none ∧
        ∃ c ∈ s.contracts, c.contractId = s.item.cid ∧
          ∃ args, c.createArguments = some args ∧ Expired cfg s.nowMicros args s.item) ∧
      w.submits.Pairwise (fun later earlier =>
        earlier.startedAt + min cfg.delay cfg.refresh ≤ later.startedAt) ∧
      (w.shuttingDown = true → ∀ w', Reachable Allowed (GcWorld.apply cfg) w w' →
        w'.submits = w.submits) := by
  have sound : w.Sound cfg := .of_reachable run
  refine ⟨fun s hs => ?_, sound.apart.apart, fun hdown w' run' => ?_⟩
  · obtain ⟨hopen, c, hc, hitem⟩ := sound.sent s hs
    exact ⟨hopen, c, hc, expired_of_gcItem hitem⟩
  · have both : w'.submits = w.submits ∧ w'.shuttingDown = true := by
      refine run'.invariant (fun w' => w'.submits = w.submits ∧ w'.shuttingDown = true) ⟨rfl, hdown⟩ ?_
      rintro w' e ⟨hsame, hdown'⟩ -
      obtain ⟨hnext, hstill⟩ := submits_of_shuttingDown cfg hdown' e
      exact ⟨hnext.trans hsame, hstill⟩
    exact both.1

theorem length_ends (ends : List GcEnd) : ends.length =
    ends.count .archived + ends.count .gone + ends.count .backpressured + ends.count .failed := by
  induction ends with
  | nil => rfl
  | cons e ends ih =>
    cases e <;> simp [ih] <;> omega

theorem cids_sublist (nowMicros : Int) (contracts : List GcContract) :
    ((contracts.filterMap (gcItem cfg nowMicros)).map (·.cid)).Sublist
      (contracts.map (·.contractId)) := by
  induction contracts with
  | nil => exact .slnil
  | cons c contracts ih =>
    cases hitem : gcItem cfg nowMicros c with
    | none =>
      rw [List.filterMap_cons_none hitem]
      exact ih.cons _
    | some item =>
      rw [List.filterMap_cons_some hitem, List.map_cons, List.map_cons,
        (expired_of_gcItem hitem).1]
      exact ih.cons_cons _

theorem scanQueue_perm (cfg : GcConfig) (nowMicros : Int) (contracts : List GcContract) :
    (scanQueue cfg nowMicros contracts).Perm (contracts.filterMap (gcItem cfg nowMicros)) :=
  List.perm_insertionSort ..

/-- At any time of a cycle: what it has tried and what is left are the expired of its scan, oldest
first and each proposal once; its submissions are what it has tried; fewer than 20 of them in a row have
failed; and the report counts as remaining what was not tried, was pushed back or failed. -/
theorem cycle_in_order {now : Instant} (run : Reachable Allowed (GcWorld.apply cfg) (fresh now) w) :
    w.cycle.tried ++ w.cycle.rest = scanQueue cfg w.cycle.nowMicros w.cycle.contracts ∧
      (w.cycle.tried ++ w.cycle.rest).Pairwise
        (fun a b => a.settleBeforeMicros ≤ b.settleBeforeMicros) ∧
      (w.submits.take w.cycle.tried.length).map (·.item) = w.cycle.tried.reverse ∧
      ((w.cycle.contracts.map (·.contractId)).Nodup →
        ((w.cycle.tried ++ w.cycle.rest).map (·.cid)).Nodup) ∧
      ((∀ wake, w.phase ≠ .idle wake) → w.phase ≠ .stopped →
        failuresIn w.ends < maxConsecutiveFailures) ∧
      (w.phase ≠ .submitting → w.cycle.reportRemaining =
        w.cycle.rest.length + w.ends.count .backpressured + w.ends.count .failed) := by
  have counted := (Sound.of_reachable run).counted
  refine ⟨counted.queue, ?_, counted.logged, fun hnodup => ?_, fun hidle hstopped => ?_, fun hphase => ?_⟩
  · rw [counted.queue, scanQueue]
    exact List.pairwise_insertionSort ..
  · rw [counted.queue]
    have perm := (scanQueue_perm cfg w.cycle.nowMicros w.cycle.contracts).map (·.cid)
    exact perm.nodup_iff.mpr (hnodup.sublist (cids_sublist ..))
  · exact counted.failures ▸ counted.few hidle hstopped
  · have htried : w.cycle.tried.length = w.ends.length := by simpa [hphase] using counted.tried
    have hlength := length_ends w.ends
    rw [GcCycle.reportRemaining, remaining, htried, counted.done, counted.gone]
    omega

end GcWorld

section Example

namespace GcWorld

def lpConfig : GcConfig := ⟨"lp::1", 2, 3600, 3600, 900, .finite (68 / 100), true⟩

/-- Two proposals of the party, an hour and two days past their window. -/
def proposal (cid settleBefore : String) : GcContract :=
  ⟨cid, some (.object [("proposer", .string "lp::1"), ("counterparty", .string "us::2"),
    ("terms", .object [("settleBefore", .number settleBefore)])])⟩

def twoExpired : List GcContract :=
  [proposal "00aa" "1784400000000000", proposal "00bb" "1784200000000000"]

/-- The older one is archived, and two seconds later the other is pushed back. -/
def oneCycle : List GcEvent :=
  [.scanned 1784405386000000 twoExpired, .gate (.finite 1) none, .archived (.ok ()),
    .tick 2000000000, .wake, .gate (.finite 1) none,
    .archived (.error "SEQUENCER_BACKPRESSURE: busy")]

theorem reachable_oneCycle : Reachable Allowed (apply lpConfig) (fresh 0)
    (oneCycle.foldl (apply lpConfig) (fresh 0)) := by
  refine Reachable.start.foldl ⟨⟨0, rfl, .inl (Nat.le_refl 0)⟩, .inl rfl, ?_, trivial, ?_, .inl ?_, ?_, trivial⟩
  · exact (by decide +kernel : ((oneCycle.take 2).foldl (apply lpConfig) (fresh 0)).phase = .submitting)
  · exact ⟨seconds 2, by decide +kernel, .inl (by decide +kernel)⟩
  · decide +kernel
  · exact (by decide +kernel : ((oneCycle.take 6).foldl (apply lpConfig) (fresh 0)).phase = .submitting)

theorem oneCycle_submits : (oneCycle.foldl (apply lpConfig) (fresh 0)).submits.map (·.item.cid) =
      ["00aa", "00bb"] ∧
    (∀ s ∈ (oneCycle.foldl (apply lpConfig) (fresh 0)).submits,
      gateBlock lpConfig s.coefficient s.pauseSecs = none ∧
        ∃ c ∈ s.contracts, c.contractId = s.item.cid ∧
          ∃ args, c.createArguments = some args ∧ Expired lpConfig s.nowMicros args s.item) :=
  ⟨by decide +kernel, (submits_expired_proposals reachable_oneCycle).1⟩

theorem oneCycle_remaining : (oneCycle.foldl (apply lpConfig) (fresh 0)).cycle.reportRemaining =
    0 + 1 + 0 := by
  obtain ⟨-, -, -, -, -, hremaining⟩ := cycle_in_order reachable_oneCycle
  have counts : (oneCycle.foldl (apply lpConfig) (fresh 0)).ends = [.backpressured, .archived] ∧
      (oneCycle.foldl (apply lpConfig) (fresh 0)).cycle.rest = [] := by decide +kernel
  rw [hremaining (by decide +kernel), counts.1, counts.2]
  rfl

end GcWorld

end Example

end BookAgent.CloudAgent
