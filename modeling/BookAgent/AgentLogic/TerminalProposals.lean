import BookAgent.AgentLogic.ExecutorFrame

/-!
# Terminal proposals and their tasks

A proposal that is completed or rejected is not worked again in the same process, and no
proposal is ever worked by two tasks at once.
-/

namespace BookAgent.AgentLogic

open BookAgent.Lib

namespace ProposalView

variable {D : Type} {v v' : ProposalView D}

def Closed (v : ProposalView D) : Prop := v.completed ∨ v.rejected

/-- What holds of a proposal and its tasks. -/
structure Worked (v : ProposalView D) : Prop where
  inactive : v.Closed → v.active = none
  single : ∀ i j, (v.task i).isSome = true → (v.task j).isSome = true → i = j
  /-- A task is marked as in progress, unless the mark went with its proposal. -/
  marked : ∀ i, (v.task i).isSome = true → v.inProgress ∨ v.Closed

namespace Worked

theorem of_le (h : v.Worked) (hinactive : v'.Closed → v'.active = none)
    (htask : ∀ i, (v'.task i).isSome = true → (v.task i).isSome = true)
    (hmarked : v.inProgress ∨ v.Closed → v'.inProgress ∨ v'.Closed) : v'.Worked where
  inactive := hinactive
  single i j hi hj := h.single i j (htask i hi) (htask j hj)
  marked i hi := hmarked (h.marked i (htask i hi))

/-- Nothing that matters here changes. -/
theorem same (h : v.Worked) (hactive : v'.active.isSome = true → v.active.isSome = true)
    (hclosed : v'.Closed ↔ v.Closed)
    (htask : ∀ i, (v'.task i).isSome = true → (v.task i).isSome = true)
    (hmarked : v.inProgress → v'.inProgress) : v'.Worked := by
  refine h.of_le (fun hv => ?_) htask (Or.imp hmarked hclosed.mpr)
  have none_active := h.inactive (hclosed.mp hv)
  rw [none_active] at hactive
  exact Option.not_isSome_iff_eq_none.mp fun hsome => by cases hactive hsome

/-- Without tasks. -/
theorem idle (hinactive : v.Closed → v.active = none) (htask : ∀ i, v.task i = none) : v.Worked where
  inactive := hinactive
  single i j hi := by
    rw [htask i] at hi
    cases hi
  marked i hi := by
    rw [htask i] at hi
    cases hi

theorem no_task (h : v.Worked) {tid : Nat} {t : SettlementTask} (ht : v.task tid = some t) (i : Nat) :
    (v.setTask tid none).task i = none := by
  unfold setTask
  by_cases hi : i = tid
  · rw [hi]
    exact Function.update_self ..
  · refine (Function.update_of_ne hi _ _).trans (Option.not_isSome_iff_eq_none.mp fun hsome => ?_)
    exact hi (h.single i tid hsome (by rw [ht]; rfl))

end Worked

theorem isSome_task_setTask {tid i : Nat} {t t' : SettlementTask} (ht : v.task tid = some t)
    (hi : ((v.setTask tid (some t')).task i).isSome = true) : (v.task i).isSome = true := by
  by_cases htid : i = tid
  · rw [htid, ht]
    rfl
  · have same : (v.setTask tid (some t')).task i = v.task i := Function.update_of_ne htid _ _
    rw [same] at hi
    exact hi

theorem isSome_task_eraseTask {tid i : Nat} (hi : ((v.setTask tid none).task i).isSome = true) :
    (v.task i).isSome = true := by
  by_cases htid : i = tid
  · rw [htid, show (v.setTask tid none).task tid = none from Function.update_self ..] at hi
    cases hi
  · have same : (v.setTask tid none).task i = v.task i := Function.update_of_ne htid _ _
    rw [same] at hi
    exact hi

end ProposalView

namespace SettlementExecutor

variable {D : Type} [ValuedAmount D] [SignatureCrates] {x : SettlementExecutor D} {pid : String}

open ProposalView

omit [ValuedAmount D] [SignatureCrates] in
/-- A result leaves the tasks as they are. -/
theorem task_result {now : Int} {final : SettlementState} {v v' : ProposalView D}
    {result : AdvanceResult} (step : ResultStep x pid now final v result v') : v'.task = v.task := by
  cases step with
  | kept => rfl
  | rejected => rfl
  | terminal => rfl
  | givenUp =>
    unfold ProposalView.giveUp
    dsimp only
    split
    · rfl
    · rfl

omit [ValuedAmount D] [SignatureCrates] in
theorem task_take (v : ProposalView D) (state : SettlementState) : (v.take state).task = v.task := by
  unfold ProposalView.take
  split
  · rfl
  · rfl

omit [ValuedAmount D] [SignatureCrates] in
/-- A result ends the only task there was. -/
theorem worked_result {now : Int} {final : SettlementState} {v v' : ProposalView D}
    {result : AdvanceResult} (hinactive : v.Closed → v.active = none) (hnone : ∀ i, v.task i = none)
    (step : ResultStep x pid now final v result v') : v'.Worked := by
  have idle (v' : ProposalView D) (htask : v'.task = v.task)
      (hv : v'.Closed → v'.active = none) : v'.Worked :=
    .idle hv fun i => htask ▸ hnone i
  have htask := task_result step
  cases step with
  | kept f hresult hstage =>
    refine idle _ htask fun hv => ?_
    rw [hinactive hv]
    rfl
  | rejected => exact idle _ htask fun _ => rfl
  | terminal inflow hinflow => exact idle _ htask fun _ => rfl
  | givenUp hgives => exact idle _ htask fun _ => rfl

theorem worked_step {e : ExecutorEvent D} {v : ProposalView D} (h : (x.view pid).Worked)
    (step : ProposalStep x pid e v) : v.Worked := by
  cases step with
  | settledBefore hpid hnew window =>
    exact h.of_le (fun _ => hnew.1) (fun _ hi => hi) fun _ => .inr (.inl trivial)
  | refused hpid hnew =>
    exact h.of_le (fun _ => hnew.1) (fun _ hi => hi) fun _ => .inr (.inr trivial)
  | implausible hpid hnew sent =>
    split
    · exact h.of_le (fun _ => hnew.1) (fun _ hi => hi) fun _ => .inr (.inr trivial)
    · exact h.of_le (fun _ => hnew.1) (fun _ hi => hi) id
  | aborted hpid hnew hrfq hstatus hleave sent =>
    split
    · exact h.of_le (fun _ => hnew.1) (fun _ hi => hi) fun _ => .inr (.inr trivial)
    · exact h.of_le (fun _ => hnew.1) (fun _ hi => hi) id
  | expired hpid hnew =>
    exact h.of_le (fun _ => hnew.1) (fun _ hi => hi) fun _ => .inr (.inr trivial)
  | resumed hpid hnew hrecord =>
    exact h.of_le (fun hv => (hv.elim hnew.2.1 hnew.2.2).elim) (fun _ hi => hi) id
  | adopted hpid hnew hrecord id through htracked =>
    exact h.of_le (fun hv => (hv.elim hnew.2.1 hnew.2.2).elim) (fun _ hi => hi) fun hv => hv
  | settled hpid inflow hinflow =>
    exact h.of_le (fun _ => rfl) (fun _ hi => hi) fun _ => .inr (.inl trivial)
  | ended => exact h.of_le (fun _ => rfl) (fun _ hi => hi) fun _ => .inr (.inr trivial)
  | found hactive =>
    exact h.same (fun _ => by rw [hactive]; rfl) Iff.rfl (fun _ hi => hi) id
  | @spawned fresh state hactive hprogress =>
    have unmarked (i : Nat) : ¬ ((x.view pid).task i).isSome = true := by
      intro hi
      rcases h.marked i hi with hmarked | hclosed
      · exact hprogress hmarked
      · rw [h.inactive hclosed] at hactive
        cases hactive
    have only (i : Nat) (hi : (Function.update (x.view pid).task x.nextTask
        (some ⟨pid, state, .ready⟩) i).isSome = true) : i = x.nextTask := by
      by_contra hne
      rw [Function.update_of_ne hne] at hi
      exact unmarked i hi
    exact ⟨h.inactive, fun i j hi hj => (only i hi).trans (only j hj).symm, fun _ _ => .inl trivial⟩
  | moved ht hfrom hto => exact h.same id Iff.rfl (fun _ => isSome_task_setTask ht) id
  | called ht hfrom => exact h.same id Iff.rfl (fun _ => isSome_task_setTask ht) id
  | readvanced ht hfrom => exact h.same id Iff.rfl (fun _ => isSome_task_setTask ht) id
  | committed ht hfrom => exact h.same id Iff.rfl (fun _ => isSome_task_setTask ht) id
  | latched ht hfrom hentry hreserved =>
    exact h.same id Iff.rfl (fun _ => isSome_task_setTask ht) id
  | recorded ht hfrom outflow => exact h.same id Iff.rfl (fun _ => isSome_task_setTask ht) id
  | refusing ht hfrom => exact h.same id Iff.rfl (fun _ => isSome_task_setTask ht) id
  | refusalSent ht hfrom => exact h.same id Iff.rfl (fun _ => isSome_task_setTask ht) id
  | foundSettled ht hfrom hstatus =>
    exact h.same id Iff.rfl (fun _ => isSome_task_setTask ht) id
  | foundEnded ht hfrom hstatus => exact h.same id Iff.rfl (fun _ => isSome_task_setTask ht) id
  | dropped ht hfrom => exact h.same id Iff.rfl (fun _ => isSome_task_setTask ht) id
  | @collected tid now t result v ht hphase hresult =>
    have untasked : ∀ i, (((((x.view pid).setTask tid none).endProgress).take t.state).tell
        result).task i = none := by
      intro i
      have gone := h.no_task ht i
      unfold ProposalView.take
      split <;> exact gone
    refine worked_result ?_ untasked hresult
    have hinactive := h.inactive
    unfold ProposalView.take
    split <;> rename_i hactive
    · exact fun _ => hactive
    · intro hclosed
      have none_active : (x.view pid).active = none := hinactive hclosed
      have some_active : (x.view pid).active = _ := hactive
      rw [none_active] at some_active
      cases some_active
  | @collectedDropped tid now t ht hphase =>
    exact .idle h.inactive (h.no_task ht)
  | released hreleasing => exact h.same id Iff.rfl (fun _ hi => hi) id
  | allocation => exact h.same id Iff.rfl (fun _ hi => hi) id
  | unconfirmed hactive hstage =>
    split
    · exact h.of_le (fun _ => rfl) (fun _ hi => hi) fun _ => .inr (.inr trivial)
    · exact h.of_le (fun _ => rfl) (fun _ hi => hi) id
  | reconciled => exact h.same id Iff.rfl (fun _ hi => hi) id
  | restarted hactive htask hprogress hreleasing hcommitted hrecord hhistory hrestart =>
    exact .idle (fun _ => hactive) htask

/-- A task is a task that was there, or one just started on an active proposal. -/
theorem task_step {e : ExecutorEvent D} {v : ProposalView D} (step : ProposalStep x pid e v) {i : Nat}
    (hi : (v.task i).isSome = true) :
    ((x.view pid).task i).isSome = true ∨
      (i = x.nextTask ∧ (∃ fresh, e = .spawn pid fresh) ∧ (x.view pid).active.isSome = true) := by
  cases step with
  | @spawned fresh state hactive hprogress =>
    by_cases hnew : i = x.nextTask
    · exact .inr ⟨hnew, ⟨fresh, rfl⟩, by rw [hactive]; rfl⟩
    · have same : Function.update (x.view pid).task x.nextTask (some ⟨pid, state, .ready⟩) i
          = (x.view pid).task i := Function.update_of_ne hnew _ _
      rw [← same]
      exact .inl hi
  | moved ht hfrom hto => exact .inl (isSome_task_setTask ht hi)
  | called ht hfrom => exact .inl (isSome_task_setTask ht hi)
  | readvanced ht hfrom => exact .inl (isSome_task_setTask ht hi)
  | committed ht hfrom => exact .inl (isSome_task_setTask ht hi)
  | latched ht hfrom hentry hreserved => exact .inl (isSome_task_setTask ht hi)
  | recorded ht hfrom outflow => exact .inl (isSome_task_setTask ht hi)
  | refusing ht hfrom => exact .inl (isSome_task_setTask ht hi)
  | refusalSent ht hfrom => exact .inl (isSome_task_setTask ht hi)
  | foundSettled ht hfrom hstatus => exact .inl (isSome_task_setTask ht hi)
  | foundEnded ht hfrom hstatus => exact .inl (isSome_task_setTask ht hi)
  | dropped ht hfrom => exact .inl (isSome_task_setTask ht hi)
  | @collected tid now t result v ht hphase hresult =>
    have kept : v.task = ((x.view pid).setTask tid none).task :=
      (task_result hresult).trans (task_take _ _)
    rw [kept] at hi
    exact .inl (isSome_task_eraseTask hi)
  | collectedDropped ht hphase => exact .inl (isSome_task_eraseTask hi)
  | implausible hpid hnew sent => split at hi <;> exact .inl hi
  | aborted hpid hnew hrfq hstatus hleave sent => split at hi <;> exact .inl hi
  | unconfirmed hactive hstage => split at hi <;> exact .inl hi
  | restarted hactive htask =>
    rw [htask i] at hi
    cases hi
  | settledBefore => exact .inl hi
  | refused => exact .inl hi
  | expired => exact .inl hi
  | resumed => exact .inl hi
  | adopted => exact .inl hi
  | settled => exact .inl hi
  | ended => exact .inl hi
  | found => exact .inl hi
  | released => exact .inl hi
  | allocation => exact .inl hi
  | reconciled => exact .inl hi

/-- In one process a proposal that is completed or rejected stays so. -/
theorem closed_step {e : ExecutorEvent D} {v : ProposalView D} (hrestart : e.isRestart = false)
    (h : (x.view pid).Closed) (step : ProposalStep x pid e v) : v.Closed := by
  cases step with
  | settledBefore => exact h.imp (fun _ => trivial) id
  | refused => exact .inr trivial
  | implausible hpid hnew sent => exact (h.elim hnew.2.1 hnew.2.2).elim
  | aborted hpid hnew => exact (h.elim hnew.2.1 hnew.2.2).elim
  | expired => exact .inr trivial
  | resumed => exact h
  | adopted => exact h
  | settled => exact .inl trivial
  | ended => exact .inr trivial
  | found => exact h
  | spawned => exact h
  | moved => exact h
  | called => exact h
  | readvanced => exact h
  | committed => exact h
  | latched => exact h
  | recorded => exact h
  | refusing => exact h
  | refusalSent => exact h
  | foundSettled => exact h
  | foundEnded => exact h
  | dropped => exact h
  | @collected tid now t result v ht hphase hresult =>
    have taken : ((((x.view pid).setTask tid none).endProgress).take t.state).Closed := by
      unfold ProposalView.take
      split <;> exact h
    cases hresult with
    | kept => exact taken
    | rejected => exact .inr trivial
    | terminal => exact .inl trivial
    | givenUp => exact .inr trivial
  | collectedDropped => exact h
  | released => exact h
  | allocation => exact h
  | unconfirmed hactive hstage =>
    split
    · exact .inr trivial
    · exact h
  | reconciled => exact h
  | restarted hactive htask hprogress hreleasing hcommitted hrecord hhistory hres =>
    rw [hrestart] at hres
    cases hres

/-! ## Runs of one process -/

/-- Everything but a restart. -/
def WithinProcess (_ : SettlementExecutor D) (e : ExecutorEvent D) : Prop := e.isRestart = false

/-- No proposal is active or worked yet. -/
structure JustStarted (x : SettlementExecutor D) : Prop where
  active : x.activeSettlements = ∅
  inProgress : x.inProgress = ∅
  tasks : x.tasks = ∅

omit [SignatureCrates] in
theorem justStarted_start (config : SettlementConfig) (startTimeMs : Nat)
    (privateKey : Except String (List UInt8)) (lm : Option LiquidityManager) :
    JustStarted (start D config startTimeMs privateKey lm) :=
  ⟨rfl, rfl, rfl⟩

theorem justStarted_restart (completed rejected : List String) (cutoffMs : Nat)
    (config : SettlementConfig) (privateKey : Except String (List UInt8))
    (lm : Option LiquidityManager) :
    JustStarted (x.restart completed rejected cutoffMs config privateKey lm) :=
  ⟨rfl, rfl, rfl⟩

/-- No task has a number still to be given out. -/
def Numbered (x : SettlementExecutor D) : Prop := ∀ tid ∈ x.tasks, tid < x.nextTask

omit [ValuedAmount D] [SignatureCrates] in
theorem Numbered.free (h : x.Numbered) : x.tasks.lookup x.nextTask = none :=
  AList.lookup_eq_none.mpr fun hmem => absurd (h _ hmem) (Nat.lt_irrefl _)

omit [ValuedAmount D] [SignatureCrates] in
theorem mem_tasks_iff {tid : Nat} : tid ∈ x.tasks ↔ ∃ pid, ((x.view pid).task tid).isSome = true := by
  constructor
  · intro hmem
    obtain ⟨t, ht⟩ := Pool.mem_iff_lookup.mp hmem
    refine ⟨t.proposalId, ?_⟩
    rw [show (x.view t.proposalId).task tid = some t from taskOf_own ht]
    rfl
  · rintro ⟨pid, hpid⟩
    obtain ⟨t, ht⟩ := Option.isSome_iff_exists.mp hpid
    exact Pool.mem_iff_lookup.mpr ⟨t, (taskOf_eq_some.mp ht).1⟩

/-- Within a process an event leaves what is held of a proposal, or takes a step on it. -/
theorem Numbered.steps (h : x.Numbered) (pid : String) {e : ExecutorEvent D}
    (hrestart : e.isRestart = false) : x.Steps pid e (x.apply e) := by
  refine steps_apply pid h.free e fun hres => ?_
  rw [hrestart] at hres
  cases hres

theorem numbered_apply (h : x.Numbered) (e : ExecutorEvent D) (hrestart : e.isRestart = false) :
    (x.apply e).Numbered := by
  intro tid hmem
  obtain ⟨pid, hpid⟩ := mem_tasks_iff.mp hmem
  have origin : tid ∈ x.tasks ∨ (tid = x.nextTask ∧ ∃ fresh, e = .spawn pid fresh) := by
    rcases h.steps pid hrestart with same | step
    · rw [same] at hpid
      exact .inl (mem_tasks_iff.mpr ⟨pid, hpid⟩)
    · rcases task_step step hpid with hold | ⟨hnew, hspawn, -⟩
      · exact .inl (mem_tasks_iff.mpr ⟨pid, hold⟩)
      · exact .inr ⟨hnew, hspawn⟩
  by_cases hspawn : ∃ q fresh, e = .spawn q fresh
  · obtain ⟨q, fresh, rfl⟩ := hspawn
    rcases nextTask_spawnTask (x := x) q fresh with same | next
    · have unchanged : x.apply (.spawn q fresh) = x := same
      rw [unchanged] at hmem ⊢
      exact h tid hmem
    · have hnext : (x.apply (.spawn q fresh)).nextTask = x.nextTask + 1 := next
      rw [hnext]
      rcases origin with hold | ⟨rfl, -⟩
      · exact Nat.lt_succ_of_lt (h tid hold)
      · exact Nat.lt_succ_self _
  · have keeps := keeps_apply (x := x) e hrestart fun q fresh he => hspawn ⟨q, fresh, he⟩
    rw [keeps.nextTask]
    rcases origin with hold | ⟨-, fresh, he⟩
    · exact h tid hold
    · exact absurd ⟨pid, fresh, he⟩ hspawn

/-- What holds in every state of a process. -/
structure Orderly (x : SettlementExecutor D) : Prop where
  numbered : x.Numbered
  worked : ∀ pid, (x.view pid).Worked

theorem orderly_apply (h : x.Orderly) (e : ExecutorEvent D) (hrestart : x.WithinProcess e) :
    (x.apply e).Orderly where
  numbered := numbered_apply h.numbered e hrestart
  worked pid := by
    rcases h.numbered.steps pid hrestart with same | step
    · rw [same]
      exact h.worked pid
    · exact worked_step (h.worked pid) step

omit [ValuedAmount D] [SignatureCrates] in
theorem JustStarted.orderly (h : x.JustStarted) : x.Orderly where
  numbered tid hmem := by
    rw [h.tasks] at hmem
    exact absurd hmem (AList.notMem_empty tid)
  worked pid := by
    refine .idle (fun _ => ?_) fun i => ?_
    · change x.activeSettlements.lookup pid = none
      rw [h.active]
      rfl
    · change x.taskOf pid i = none
      unfold taskOf
      rw [h.tasks]
      rfl

/-- A restart starts a process. -/
theorem orderly_apply_any (h : x.Orderly) (e : ExecutorEvent D) : (x.apply e).Orderly := by
  cases hrestart : e.isRestart with
  | false => exact orderly_apply h e hrestart
  | true =>
    cases e with
    | restart => exact (justStarted_restart ..).orderly
    | _ => cases hrestart

/-- What the later states of a process keep of a proposal that is completed or rejected. -/
theorem closed_run (h : x.Orderly) (hclosed : (x.view pid).Closed) {y : SettlementExecutor D}
    (run : Reachable WithinProcess apply x y) :
    y.Orderly ∧ (y.view pid).Closed ∧
      ∀ i, ((y.view pid).task i).isSome = true → ((x.view pid).task i).isSome = true := by
  refine run.invariant (fun y => y.Orderly ∧ (y.view pid).Closed ∧
    ∀ i, ((y.view pid).task i).isSome = true → ((x.view pid).task i).isSome = true)
    ⟨h, hclosed, fun _ hi => hi⟩ fun y e inv hrestart => ?_
  obtain ⟨orderly, closed, kept⟩ := inv
  refine ⟨orderly_apply orderly e hrestart, ?_⟩
  rcases orderly.numbered.steps pid hrestart with same | step
  · rw [same]
    exact ⟨closed, kept⟩
  · refine ⟨closed_step hrestart closed step, fun i hi => ?_⟩
    rcases task_step step hi with hold | ⟨-, -, hactive⟩
    · exact kept i hold
    · rw [(orderly.worked pid).inactive closed] at hactive
      cases hactive

/-- In every process, a proposal that is completed or rejected stays so, is never active again
and gets no further task; and no proposal ever has two tasks. -/
theorem terminal_worked_by_one {x₀ : SettlementExecutor D} (hstart : x₀.JustStarted)
    (run : Reachable WithinProcess apply x₀ x) :
    (∀ pid, pid ∈ x.completedProposals ∨ pid ∈ x.rejectedProposals →
      ∀ y, Reachable WithinProcess apply x y →
        (pid ∈ y.completedProposals ∨ pid ∈ y.rejectedProposals) ∧ pid ∉ y.activeSettlements ∧
          ∀ tid t, y.tasks.lookup tid = some t → t.proposalId = pid →
            ∃ t', x.tasks.lookup tid = some t' ∧ t'.proposalId = pid) ∧
      ∀ i j t t', x.tasks.lookup i = some t → x.tasks.lookup j = some t' →
        t.proposalId = t'.proposalId → i = j := by
  have orderly : x.Orderly := run.invariant _ hstart.orderly fun y e h he => orderly_apply h e he
  constructor
  · intro pid hclosed y later
    obtain ⟨yorderly, yclosed, kept⟩ := closed_run orderly hclosed later
    refine ⟨yclosed, ?_, fun tid t ht hpid => ?_⟩
    · exact AList.lookup_eq_none.mp ((yorderly.worked pid).inactive yclosed)
    · have found : (y.view pid).task tid = some t := taskOf_eq_some.mpr ⟨ht, hpid⟩
      obtain ⟨t', ht'⟩ := Option.isSome_iff_exists.mp (kept tid (by rw [found]; rfl))
      exact ⟨t', taskOf_eq_some.mp ht'⟩
  · intro i j t t' ht ht' hpid
    refine (orderly.worked t.proposalId).single i j ?_ ?_
    · rw [show (x.view t.proposalId).task i = some t from taskOf_own ht]
      rfl
    · rw [show (x.view t.proposalId).task j = some t' from taskOf_eq_some.mpr ⟨ht', hpid.symm⟩]
      rfl

end SettlementExecutor

/-! ## A settled proposal -/

namespace SettlementExecutor

section Example

local instance earlyCrates : SignatureCrates := signedCrates

/-- The purchase is reported settled before anything else is heard of it. -/
def settledEarly : SettlementExecutor Int := bidding.apply (.settled purchase 0)

theorem terminal_worked_by_one_settledEarly :
    "p" ∈ settledEarly.completedProposals ∧
      ∀ y, Reachable WithinProcess apply settledEarly y → "p" ∉ y.activeSettlements := by
  have completed : "p" ∈ settledEarly.completedProposals := by decide +kernel
  refine ⟨completed, fun y later => ?_⟩
  have started : bidding.JustStarted := ⟨rfl, rfl, rfl⟩
  have run : Reachable WithinProcess apply bidding settledEarly := .step .start rfl
  exact ((terminal_worked_by_one started run).1 "p" (.inl completed) y later).2.1

end Example

end SettlementExecutor

end BookAgent.AgentLogic
