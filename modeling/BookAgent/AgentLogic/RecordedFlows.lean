import BookAgent.AgentLogic.LeftReservations
import BookAgent.AgentLogic.TaskTurns

/-!
# Recorded flows

The outflow of a proposal is recorded by the task that newly reserves its capacity, and its inflow
where a terminal path finds it still active. The two are additions without an id, so how often a
proposal is counted depends on the order of the stream, the tasks and the restarts.
-/

namespace BookAgent.AgentLogic

open BookAgent.Lib

/-- The task has newly reserved capacity and is to record the outflow. -/
def TaskPhase.isRecording : TaskPhase → Bool
  | .recording _ => true
  | _ => false

theorem TaskPhase.Plain.not_recording {phase : TaskPhase} (h : phase.Plain) :
    phase.isRecording = false := by
  cases phase with
  | recording step => exact h.elim
  | _ => rfl

namespace ProposalView

variable {D : Type} {v v' : ProposalView D}

/-- One of the tasks is about to record the outflow. -/
def Recording (v : ProposalView D) : Prop := ∃ i t, v.task i = some t ∧ t.phase.isRecording = true

/-- An outflow for the reservation, an inflow for the settlement, and no other. -/
structure Booked (v : ProposalView D) : Prop where
  recorded : ¬ v.Recording → v.history.outflows.length = if v.history.reserved then 1 else 0
  pending : v.Recording → v.history.reserved = true ∧ v.history.outflows = []
  inflow : v.history.inflows.length ≤ 1
  settled : v.history.inflows ≠ [] → v.history.settled = true ∧ v.active = none

/-- The flows of the two histories. -/
structure SameFlows (h h' : ProposalHistory D) : Prop where
  outflows : h'.outflows = h.outflows
  inflows : h'.inflows = h.inflows
  reserved : h'.reserved = h.reserved
  settled : h.settled = true → h'.settled = true

theorem SameFlows.refl (h : ProposalHistory D) : SameFlows h h := ⟨rfl, rfl, rfl, id⟩

theorem sameFlows_close {h : ProposalHistory D} {entry : Option (SettlementOrderEntry D)}
    {tracked : Nat → Bool} : SameFlows h (h.close entry tracked) := by
  unfold ProposalHistory.close
  split
  · exact .refl h
  · split
    · exact .refl h
    · exact ⟨rfl, rfl, rfl, id⟩

/-- No flow is recorded. -/
theorem Booked.of_same (h : v.Booked) (hflows : SameFlows v.history v'.history)
    (hrecording : v'.Recording ↔ v.Recording)
    (hactive : v.history.inflows ≠ [] → v.active = none → v'.active = none) : v'.Booked where
  recorded hidle := by
    rw [hflows.outflows, hflows.reserved]
    exact h.recorded fun hrec => hidle (hrecording.mpr hrec)
  pending hrec := by
    rw [hflows.outflows, hflows.reserved]
    exact h.pending (hrecording.mp hrec)
  inflow := by
    rw [hflows.inflows]
    exact h.inflow
  settled hsome := by
    rw [hflows.inflows] at hsome
    exact ⟨hflows.settled (h.settled hsome).1, hactive hsome (h.settled hsome).2⟩

/-- The only task decides. -/
theorem recording_iff (hworked : v.Worked) {tid : Nat} {t : SettlementTask} (ht : v.task tid = some t) :
    v.Recording ↔ t.phase.isRecording = true := by
  constructor
  · rintro ⟨i, u, hu, hphase⟩
    obtain rfl := hworked.single i tid (by rw [hu]; rfl) (by rw [ht]; rfl)
    rw [ht] at hu
    obtain rfl := Option.some.inj hu
    exact hphase
  · exact fun hphase => ⟨tid, t, ht, hphase⟩

theorem recording_setTask (hworked : v.Worked) {tid : Nat} {t t' : SettlementTask}
    (ht : v.task tid = some t) (htask : v'.task = Function.update v.task tid (some t')) :
    v'.Recording ↔ t'.phase.isRecording = true := by
  constructor
  · rintro ⟨i, u, hu, hphase⟩
    rw [htask] at hu
    by_cases hi : i = tid
    · rw [hi, Function.update_self] at hu
      obtain rfl := Option.some.inj hu
      exact hphase
    · rw [Function.update_of_ne hi] at hu
      exact absurd (hworked.single i tid (by rw [hu]; rfl) (by rw [ht]; rfl)) hi
  · intro hphase
    refine ⟨tid, t', ?_, hphase⟩
    rw [htask]
    exact Function.update_self ..

theorem not_recording_of_idle (h : ∀ i, v.task i = none) : ¬ v.Recording := by
  rintro ⟨i, t, ht, -⟩
  rw [h i] at ht
  cases ht

/-- The task goes on without recording anything. -/
theorem Booked.of_task (h : v.Booked) (hworked : v.Worked) {tid : Nat} {t t' : SettlementTask}
    (ht : v.task tid = some t) (htask : v'.task = Function.update v.task tid (some t'))
    (hfrom : t.phase.isRecording = false) (hto : t'.phase.isRecording = false)
    (hflows : SameFlows v.history v'.history) (hactive : v'.active = v.active) : v'.Booked := by
  refine h.of_same hflows ?_ fun _ hnone => hactive.trans hnone
  rw [recording_setTask hworked ht htask, recording_iff hworked ht, hfrom, hto]

theorem Booked.noteSettled (h : v.Booked) (windowPassed : Bool) : (v.noteSettled windowPassed).Booked :=
  h.of_same ⟨rfl, rfl, rfl, fun _ => rfl⟩ Iff.rfl fun _ hnone => hnone

theorem Booked.settle (h : v.Booked) (tracked : Nat → Bool) : (v.settle tracked).Booked :=
  h.of_same sameFlows_close Iff.rfl fun _ hnone => hnone

/-- A terminal path takes the proposal from the active ones and records what it brings. -/
theorem Booked.receive (h : v.Booked) {inflow : Option (String × String)}
    (hactive : inflow.isSome = true → v.active.isSome = true)
    (hsettled : inflow.isSome = true → v.history.settled = true) :
    (v.receive inflow).deactivate.Booked where
  recorded := h.recorded
  pending := h.pending
  inflow := by
    cases inflow with
    | none => exact h.inflow
    | some flow =>
      have none_before : v.history.inflows = [] := by
        by_contra hsome
        have some_active := hactive rfl
        rw [(h.settled hsome).2] at some_active
        cases some_active
      change (flow :: v.history.inflows).length ≤ 1
      rw [none_before]
      exact le_refl 1
  settled hsome := by
    refine ⟨?_, rfl⟩
    cases inflow with
    | none => exact (h.settled hsome).1
    | some flow => exact hsettled rfl

end ProposalView

namespace SettlementExecutor

variable {D : Type} [ValuedAmount D] [SignatureCrates] {x : SettlementExecutor D} {pid : String}

open ProposalView

/-- Capacity is newly reserved only for a proposal it never was reserved for before, with a
liquidity manager there, and no task or process ends before it has recorded the outflow; a result
`Terminal` is only taken for an active proposal that settled; and a proposal whose inflow was
recorded is not handed in as an open one again. -/
def BooksFlows (x : SettlementExecutor D) : ExecutorEvent D → Prop
  | .proposalCreated p _ => (x.view p.proposalId).IsNew → (x.history p.proposalId).inflows ≠ [] →
      p.settledAt.isSome = true
  | .latchStep tid => ∀ t step, x.tasks.lookup tid = some t → t.phase = .latching step →
      (x.tracker.tryReservePending t.proposalId).1 = .ok true →
        x.liquidityManager.isSome = true ∧ (x.history t.proposalId).reserved = false
  | .dropTask tid => ∀ t, x.tasks.lookup tid = some t → t.phase.isRecording = false
  | .collect tid _ => ∀ t, x.tasks.lookup tid = some t → t.phase = .finished .terminal →
      t.proposalId ∈ x.activeSettlements → (x.history t.proposalId).settled = true
  | .restart .. => ∀ tid t, x.tasks.lookup tid = some t → t.phase.isRecording = false
  | _ => True

/-- What moves a task on from the latch and changes the record has newly reserved it. -/
theorem newlyReserves {e : ExecutorEvent D} {tid : Nat} {t : SettlementTask} {step : StepContext}
    (h : x.Numbered) (hrestart : e.isRestart = false) (ht : x.tasks.lookup tid = some t)
    (hfrom : t.phase = .latching step) (hmoved : (x.apply e).tasks.lookup tid ≠ some t)
    (hrecord : (x.apply e).tracker.settlementOrders ≠ x.tracker.settlementOrders) :
    e = .latchStep tid ∧ (x.tracker.tryReservePending t.proposalId).1 = .ok true := by
  have turn := isTurn_of_moved h hrestart ht hmoved
  rw [hfrom] at turn
  cases e with
  | latchStep i =>
    obtain rfl : i = tid := turn
    refine ⟨rfl, ?_⟩
    obtain ⟨q, state, phase⟩ := t
    obtain rfl : phase = .latching step := hfrom
    by_contra hnot
    refine hrecord ?_
    change (x.latchStep i).tracker.settlementOrders = _
    unfold latchStep
    rw [ht]
    dsimp only
    split
    · rfl
    · rfl
    · rename_i hreserve
      exact absurd (congrArg Prod.fst hreserve) hnot
  | dropTask i =>
    refine absurd ?_ hrecord
    change (x.dropTask i).tracker.settlementOrders = _
    unfold dropTask
    split <;> rfl
  | _ => exact turn.elim

omit [ValuedAmount D] [SignatureCrates] in
theorem sameFlows_take {v : ProposalView D} {final : SettlementState} :
    SameFlows v.history (v.take final).history := by
  unfold ProposalView.take
  split
  · exact ⟨rfl, rfl, rfl, id⟩
  · exact .refl _

omit [ValuedAmount D] [SignatureCrates] in
theorem active_take {v : ProposalView D} {final : SettlementState} :
    (v.take final).active.isSome = v.active.isSome := by
  unfold ProposalView.take
  split
  · rename_i hnone
    change v.active.isSome = v.active.isSome
    rfl
  · rename_i hsome
    rw [hsome]
    rfl

omit [ValuedAmount D] [SignatureCrates] in
/-- Only a `Terminal` result brings an inflow. -/
theorem booked_result {now : Int} {final : SettlementState} {v v' : ProposalView D}
    {result : AdvanceResult} (h : v.Booked)
    (hsettled : result = .terminal → v.active.isSome = true → v.history.settled = true)
    (step : ResultStep x pid now final v result v') : v'.Booked := by
  cases step with
  | kept f =>
    refine h.of_same (.refl _) Iff.rfl fun _ hnone => ?_
    change v.active.map f = none
    rw [hnone]
    rfl
  | rejected => exact h.of_same (.refl _) Iff.rfl fun _ _ => rfl
  | terminal inflow hinflow =>
    have received := h.receive hinflow fun hsome => hsettled rfl (hinflow hsome)
    exact received.of_same (.refl _) Iff.rfl fun _ _ => rfl
  | givenUp =>
    unfold ProposalView.giveUp
    dsimp only
    split
    · exact h.of_same ⟨rfl, rfl, rfl, id⟩ Iff.rfl fun _ _ => rfl
    · exact h.of_same ⟨rfl, rfl, rfl, id⟩ Iff.rfl fun _ _ => rfl

/-- A task that moves on from the latch with its record newly reserved. -/
theorem latched_newly {e : ExecutorEvent D} {v : ProposalView D} {tid : Nat} {t t' : SettlementTask}
    {step : StepContext} {entry : SettlementOrderEntry D} (horderly : x.Orderly)
    (hv : v = (x.apply e).view t.proposalId) (ht : x.tasks.lookup tid = some t)
    (hfrom : t.phase = .latching step) (hafter : v.task tid = some t')
    (hentry : (x.view t.proposalId).record = some entry) (hrecord : v.record ≠ some entry)
    (hmoved : t' ≠ t) :
    e = .latchStep tid ∧ (x.tracker.tryReservePending t.proposalId).1 = .ok true := by
  subst hv
  obtain ⟨hlookup, -⟩ := taskOf_eq_some.mp hafter
  refine newlyReserves horderly.numbered ?_ ht hfrom (fun same => ?_) fun same => ?_
  · cases hrestart : e.isRestart with
    | false => rfl
    | true =>
      cases e with
      | restart => cases hlookup
      | _ => cases hrestart
  · exact hmoved (Option.some.inj (hlookup.symm.trans same))
  · refine hrecord ?_
    rw [← hentry]
    exact congrArg (AList.lookup t.proposalId) same

theorem booked_step {e : ExecutorEvent D} {v : ProposalView D} (horderly : x.Orderly)
    (hv : v = (x.apply e).view pid) (hbooks : x.BooksFlows e) (h : (x.view pid).Booked)
    (step : ProposalStep x pid e v) : v.Booked := by
  have hworked := horderly.worked pid
  have later := worked_step hworked step
  cases step with
  | settledBefore => exact h.of_same ⟨rfl, rfl, rfl, fun _ => rfl⟩ Iff.rfl fun _ hnone => hnone
  | refused => exact h.of_same (.refl _) Iff.rfl fun _ hnone => hnone
  | implausible hpid hnew sent =>
    split <;> exact h.of_same ⟨rfl, rfl, rfl, id⟩ Iff.rfl fun _ hnone => hnone
  | aborted hpid hnew hrfq hstatus hleave sent =>
    split <;> exact h.of_same ⟨rfl, rfl, rfl, id⟩ Iff.rfl fun _ hnone => hnone
  | expired => exact h.of_same ⟨rfl, rfl, rfl, id⟩ Iff.rfl fun _ hnone => hnone
  | @resumed p f hpid hnew hrecord =>
    refine h.of_same ⟨rfl, rfl, rfl, id⟩ Iff.rfl fun hsome _ => ?_
    subst hpid
    rw [hv]
    exact active_of_settledAt hnew (hbooks hnew hsome)
  | @adopted p f hpid hnew hrecord id through htracked =>
    refine h.of_same ⟨rfl, rfl, rfl, fun h => h⟩ Iff.rfl fun hsome _ => ?_
    subst hpid
    rw [hv]
    exact active_of_settledAt hnew (hbooks hnew hsome)
  | @settled p now hpid inflow hinflow =>
    have closed := (h.noteSettled (x.config.settleWindowPassed p now)).settle
      fun id => id ∈ x.tracker.orders
    have received := closed.receive hinflow fun _ => sameFlows_close.settled rfl
    exact received.of_same (.refl _) Iff.rfl fun _ _ => rfl
  | ended => exact h.of_same ⟨rfl, rfl, rfl, id⟩ Iff.rfl fun _ _ => rfl
  | found hactive =>
    refine h.of_same (.refl _) Iff.rfl fun _ hnone => ?_
    rw [hactive] at hnone
    cases hnone
  | @spawned fresh state hactive hprogress =>
    have started : Function.update (x.view pid).task x.nextTask (some ⟨pid, state, .ready⟩) x.nextTask
        = some ⟨pid, state, .ready⟩ := Function.update_self ..
    have idle (i : Nat) : (x.view pid).task i = none := by
      rw [← Option.not_isSome_iff_eq_none]
      intro hi
      rcases hworked.marked i hi with hmarked | hclosed
      · exact hprogress hmarked
      · rw [hworked.inactive hclosed] at hactive
        cases hactive
    refine h.of_same (.refl _) ?_ fun _ hnone => hnone
    rw [recording_iff later started, iff_false_right (not_recording_of_idle idle)]
    exact Bool.false_ne_true
  | moved ht hfrom hto =>
    exact h.of_task hworked ht rfl hfrom.not_recording hto.not_recording (.refl _) rfl
  | called ht hfrom =>
    exact h.of_task hworked ht rfl hfrom.not_recording rfl ⟨rfl, rfl, rfl, id⟩ rfl
  | readvanced ht hfrom =>
    exact h.of_task hworked ht rfl hfrom.not_recording rfl ⟨rfl, rfl, rfl, id⟩ rfl
  | committed ht hfrom => exact h.of_task hworked ht rfl hfrom.not_recording rfl (.refl _) rfl
  | @latched e tid t step entry ht hfrom hentry hreserved =>
    obtain ⟨hlookup, rfl⟩ := taskOf_eq_some.mp ht
    have relatched : some { entry with reserved := true } ≠ some entry := by
      intro same
      rw [← Option.some.inj same] at hreserved
      cases hreserved
    have went_on : ({ t with
        phase := if (x.view t.proposalId).managed then .recording step else .acting step } :
          SettlementTask) ≠ t := by
      intro same
      rw [← same] at hfrom
      dsimp only at hfrom
      split at hfrom <;> cases hfrom
    obtain ⟨rfl, hnew⟩ :=
      latched_newly horderly hv hlookup hfrom (Function.update_self ..) hentry relatched went_on
    obtain ⟨managed, unreserved⟩ := hbooks t step hlookup hfrom hnew
    have idle : ¬ (x.view t.proposalId).Recording := by
      rw [recording_iff hworked ht, hfrom]
      exact Bool.false_ne_true
    have none_yet : (x.history t.proposalId).outflows = [] := by
      have count := h.recorded idle
      rw [show (x.view t.proposalId).history.reserved = false from unreserved] at count
      exact List.length_eq_zero_iff.mp count
    refine ⟨fun hidle => absurd ?_ hidle, fun _ => ⟨rfl, none_yet⟩, h.inflow, h.settled⟩
    rw [recording_setTask hworked ht rfl, if_pos (show (x.view t.proposalId).managed = true from managed)]
    rfl
  | recorded ht hfrom outflow =>
    have recording : (x.view pid).Recording := by
      rw [recording_iff hworked ht, hfrom]
      rfl
    obtain ⟨reserved, none_yet⟩ := h.pending recording
    refine ⟨fun _ => ?_, fun hrec => ?_, h.inflow, h.settled⟩
    · change (outflow :: (x.view pid).history.outflows).length = if (x.view pid).history.reserved then 1 else 0
      rw [none_yet, reserved]
      rfl
    · rw [recording_setTask hworked ht rfl] at hrec
      cases hrec
  | refusing ht hfrom =>
    exact h.of_task hworked ht rfl hfrom.not_recording rfl ⟨rfl, rfl, rfl, id⟩ rfl
  | refusalSent ht hfrom => exact h.of_task hworked ht rfl (by rw [hfrom]; rfl) rfl (.refl _) rfl
  | foundSettled ht hfrom hstatus =>
    refine h.of_task hworked ht rfl (by rw [hfrom]; rfl) rfl ?_ rfl
    exact ⟨sameFlows_close.outflows, sameFlows_close.inflows, sameFlows_close.reserved,
      fun _ => sameFlows_close.settled rfl⟩
  | foundEnded ht hfrom hstatus =>
    exact h.of_task hworked ht rfl (by rw [hfrom]; rfl) rfl ⟨rfl, rfl, rfl, id⟩ rfl
  | dropped ht hfrom =>
    exact h.of_task hworked ht rfl (hbooks _ (taskOf_eq_some.mp ht).1) rfl (.refl _) rfl
  | @collected tid now t result v ht hphase hresult =>
    have finished : ¬ (x.view pid).Recording := by
      rw [recording_iff hworked ht, hphase]
      exact Bool.false_ne_true
    have idle : ¬ ((((x.view pid).setTask tid none).endProgress).take t.state).Recording := by
      refine not_recording_of_idle fun i => ?_
      rw [task_take]
      exact hworked.no_task ht i
    have flows : SameFlows (x.view pid).history
        ((((x.view pid).setTask tid none).endProgress).take t.state).history :=
      sameFlows_take (v := ((x.view pid).setTask tid none).endProgress)
    have active : ((((x.view pid).setTask tid none).endProgress).take t.state).active.isSome
        = (x.view pid).active.isSome :=
      active_take (v := ((x.view pid).setTask tid none).endProgress)
    have taken : ((((x.view pid).setTask tid none).endProgress).take t.state).Booked := by
      refine h.of_same flows (iff_of_false idle finished) fun _ hnone => ?_
      rw [← Option.not_isSome_iff_eq_none, active, hnone]
      exact Bool.false_ne_true
    have told : (((((x.view pid).setTask tid none).endProgress).take t.state).tell result).Booked :=
      taken.of_same ⟨rfl, rfl, rfl, id⟩ Iff.rfl fun _ hnone => hnone
    refine booked_result told (fun hterminal hsome => flows.settled ?_) hresult
    obtain ⟨hlookup, rfl⟩ := taskOf_eq_some.mp ht
    rw [hterminal] at hphase
    exact hbooks t hlookup hphase (AList.lookup_isSome.mp (active.symm.trans hsome))
  | collectedDropped ht hphase =>
    refine h.of_same (.refl _) (iff_of_false (not_recording_of_idle (hworked.no_task ht)) ?_)
      fun _ hnone => hnone
    rw [recording_iff hworked ht, hphase]
    exact Bool.false_ne_true
  | released => exact h.of_same (.refl _) Iff.rfl fun _ hnone => hnone
  | allocation => exact h.of_same ⟨rfl, rfl, rfl, id⟩ Iff.rfl fun _ hnone => hnone
  | unconfirmed hactive hstage =>
    split <;> exact h.of_same ⟨rfl, rfl, rfl, id⟩ Iff.rfl fun _ _ => rfl
  | reconciled => exact h.of_same (.refl _) Iff.rfl fun _ hnone => hnone
  | restarted hactive htask hprogress hreleasing hcommitted hrecord hhistory hrestart =>
    have idle : ¬ (x.view pid).Recording := by
      rintro ⟨i, t, ht, hphase⟩
      cases e with
      | restart =>
        rw [hbooks i t (taskOf_eq_some.mp ht).1] at hphase
        cases hphase
      | _ => cases hrestart
    refine h.of_same ?_ (iff_of_false (not_recording_of_idle htask) idle) fun _ _ => hactive
    rw [hhistory]
    exact ⟨rfl, rfl, rfl, id⟩

/-! ## Runs -/

/-- The outflow of the proposal is recorded once its capacity is reserved, by the task that has
reserved it, and an inflow at most once and only for a settlement. -/
structure FlowsFollow (x : SettlementExecutor D) (pid : String) : Prop where
  outflow : (∀ tid t, x.tasks.lookup tid = some t → t.proposalId = pid → t.phase.isRecording = false) →
    (x.history pid).outflows.length = if (x.history pid).reserved then 1 else 0
  pending : ∀ tid t, x.tasks.lookup tid = some t → t.proposalId = pid → t.phase.isRecording = true →
    (x.history pid).reserved = true ∧ (x.history pid).outflows = []
  inflow : (x.history pid).inflows.length ≤ 1
  settled : (x.history pid).inflows ≠ [] → (x.history pid).settled = true

omit [ValuedAmount D] [SignatureCrates] in
theorem Booked.flowsFollow (h : (x.view pid).Booked) : x.FlowsFollow pid where
  outflow hidle := by
    refine h.recorded ?_
    rintro ⟨tid, t, ht, hphase⟩
    obtain ⟨hlookup, hpid⟩ := taskOf_eq_some.mp ht
    rw [hidle tid t hlookup hpid] at hphase
    cases hphase
  pending tid t hlookup hpid hphase :=
    h.pending ⟨tid, t, taskOf_eq_some.mpr ⟨hlookup, hpid⟩, hphase⟩
  inflow := h.inflow
  settled hsome := (h.settled hsome).1

/-- In every run, restarts included, whose steps keep to `BooksFlows`, the recorded flows follow
the reservations and the settlements. -/
theorem flows_follow {x₀ : SettlementExecutor D} (hstart : x₀.JustStarted)
    (hnew : x₀.history pid = .empty D)
    (run : Reachable (fun x e => x.Allowed e ∧ x.BooksFlows e) apply x₀ x) : x.FlowsFollow pid := by
  have fresh : (x₀.view pid).history = .empty D := hnew
  have idle : ¬ (x₀.view pid).Recording := by
    refine not_recording_of_idle fun i => ?_
    rw [Option.eq_none_iff_forall_ne_some]
    intro t ht
    have found := (taskOf_eq_some.mp ht).1
    rw [hstart.tasks] at found
    cases found
  have base : (x₀.view pid).Booked := by
    refine ⟨fun _ => ?_, fun hrec => absurd hrec idle, ?_, fun hsome => ?_⟩
    · rw [fresh]
      rfl
    · rw [fresh]
      exact Nat.zero_le 1
    · rw [fresh] at hsome
      exact absurd rfl hsome
  have inv : x.Orderly ∧ (x.view pid).Booked := by
    refine run.invariant (fun y => y.Orderly ∧ (y.view pid).Booked) ⟨hstart.orderly, base⟩
      fun y e inv hallowed => ?_
    obtain ⟨orderly, booked⟩ := inv
    refine ⟨orderly_apply_any orderly e, ?_⟩
    rcases steps_apply pid orderly.numbered.free e (fun _ => hallowed.1) with same | step
    · rw [same]
      exact booked
    · exact booked_step orderly rfl hallowed.2 booked step
  exact Booked.flowsFollow inv.2

end SettlementExecutor

/-! ## A settlement that failed -/

namespace SettlementExecutor

section Example

local instance bookingCrates : SignatureCrates := signedCrates

/-- The server has given the settlement up. -/
def failedStatus : SettlementStatus :=
  { feeDue with stage := 12, buyerNextAction := 0, sellerNextAction := 0 }

/-- The task of the purchase finds that it failed, and its result is collected. -/
def foundFailed : SettlementExecutor Int :=
  [.beginStep 0, .answerStep 0 (.ok failedStatus) 0, .actStep 0 (.ok "") 0, .collect 0 0].foldl apply
    purchasing

/-- The purchase is reserved by its task and then settles. -/
def settledPurchase : SettlementExecutor Int :=
  [.beginStep 0, .answerStep 0 (.ok feeDue) 0, .commitStep 0 0 noDigits, .latchStep 0, .recordStep 0,
    .settled purchase 0].foldl apply purchasing

/-- The purchase failed, and its inflow is recorded. -/
theorem books_failed_purchase :
    fundedBidding.JustStarted ∧ fundedBidding.history "p" = .empty Int ∧
      Reachable Allowed apply fundedBidding foundFailed ∧ ¬ foundFailed.FlowsFollow "p" := by
  refine ⟨justStarted_fundedBidding, rfl, ?_, fun follows => ?_⟩
  · have started : Reachable Allowed apply fundedBidding purchasing :=
      .step (.step .start trivial) trivial
    exact started.foldl ⟨trivial, trivial, trivial, trivial, trivial⟩
  · have unsettled : (foundFailed.history "p").settled = false := by decide +kernel
    have received : (foundFailed.history "p").inflows ≠ [] := by decide +kernel
    rw [follows.settled received] at unsettled
    cases unsettled

theorem flows_follow_settledPurchase : settledPurchase.FlowsFollow "p" := by
  have plain : True ∧ True := ⟨trivial, trivial⟩
  have adopted : fundedBidding.BooksFlows (.proposalCreated purchase (quietFeed fundedBidding)) :=
    fun _ hsome => absurd rfl hsome
  have started : Reachable (fun x e => x.Allowed e ∧ x.BooksFlows e) apply fundedBidding purchasing :=
    .step (.step .start ⟨trivial, adopted⟩) plain
  refine flows_follow justStarted_fundedBidding rfl (started.foldl ⟨plain, plain, plain, ?_, plain, plain,
    trivial⟩)
  refine ⟨trivial, fun t step ht _ _ => ?_⟩
  rw [proposalId_of_lookup "p" (by decide +kernel) ht]
  decide +kernel

end Example

end SettlementExecutor

end BookAgent.AgentLogic
