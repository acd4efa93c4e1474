import BookAgent.AgentLogic.ExecutorCycle

/-!
# Whose turn it is

Every event moves at most one task on, and only one that is in the phase the event is for.
All other tasks stay as they are.
-/

namespace BookAgent.AgentLogic

open BookAgent.Lib

/-- It is the turn of a task of that number in that phase. -/
def ExecutorEvent.isTurn {D : Type} (e : ExecutorEvent D) (tid : Nat) (phase : TaskPhase) : Prop :=
  match e, phase with
  | .beginStep i, .ready => i = tid
  | .answerStep i _ _, .asking _ => i = tid
  | .commitStep i _ _, .committing _ => i = tid
  | .latchStep i, .latching _ => i = tid
  | .recordStep i, .recording _ => i = tid
  | .actStep i _ _, .acting _ => i = tid
  | .refuseStep i, .refusing => i = tid
  | .allocateReturns i _, .allocating => i = tid
  | .dropTask i, phase => i = tid ∧ phase.isFinished = false
  | .collect i _, .finished _ => i = tid
  | .collect i _, .dropped => i = tid
  | _, _ => False

namespace SettlementExecutor

variable {D : Type} [ValuedAmount D] [SignatureCrates] {x y : SettlementExecutor D} {q : String}
  {e : ExecutorEvent D}

omit [SignatureCrates] in
theorem tasks_takeState {final : SettlementState} : (x.takeState q final).tasks = x.tasks := by
  unfold takeState
  split <;> rfl

/-- A task whose turn it is not stays as it is. -/
def TasksStay (e : ExecutorEvent D) (x y : SettlementExecutor D) : Prop :=
  ∀ i t, x.tasks.lookup i = some t → ¬ e.isTurn i t.phase → y.tasks.lookup i = some t

namespace TasksStay

omit [ValuedAmount D] [SignatureCrates]

theorem same (h : y.tasks = x.tasks) : TasksStay e x y := by
  intro i t ht hturn
  rw [h]
  exact ht

variable {tid : Nat} {t t' : SettlementTask}

/-- A task takes its turn. -/
theorem setTask (h : y.tasks = x.tasks) (ht : x.tasks.lookup tid = some t)
    (hturn : e.isTurn tid t.phase) : TasksStay e x (y.setTask tid t') := by
  intro i other hother hidle
  have hne : i ≠ tid := by
    rintro rfl
    rw [ht] at hother
    obtain rfl := Option.some.inj hother
    exact hidle hturn
  change (y.tasks.insert tid t').lookup i = some other
  rw [AList.lookup_insert_ne hne, h]
  exact hother

theorem endStep {result : AdvanceResult} (h : y.tasks = x.tasks) (ht : x.tasks.lookup tid = some t)
    (hturn : e.isTurn tid t.phase) : TasksStay e x (y.endStep tid t' result) := by
  unfold SettlementExecutor.endStep
  split
  · exact setTask h ht hturn
  · split
    · exact setTask h ht hturn
    · exact setTask h ht hturn

theorem spawnTask (hfree : x.tasks.lookup x.nextTask = none) {fresh : Bool} :
    TasksStay (.spawn q fresh) x (x.spawnTask q fresh) := by
  unfold SettlementExecutor.spawnTask
  split
  · exact same rfl
  · split
    · exact same rfl
    · intro i t ht hphase
      have hne : i ≠ x.nextTask := by
        rintro rfl
        rw [hfree] at ht
        cases ht
      cases fresh <;> exact (AList.lookup_insert_ne hne).trans ht

theorem beginStep : TasksStay (.beginStep tid) x (x.beginStep tid) := by
  unfold SettlementExecutor.beginStep
  split
  · rename_i ht
    exact setTask rfl ht rfl
  · exact same rfl

theorem answerStep {answer : Except String SettlementStatus} {now : Int} :
    TasksStay (.answerStep tid answer now) x (x.answerStep tid answer now) := by
  unfold SettlementExecutor.answerStep
  split
  · rename_i ht
    dsimp only
    split
    · exact endStep rfl ht rfl
    · split
      · exact endStep rfl ht rfl
      · split <;> exact setTask rfl ht rfl
  · exact same rfl

theorem commitStep [ValuedAmount D] {feeCc : ℚ} {fixed4 : ℚ → String} :
    TasksStay (.commitStep tid feeCc fixed4) x (x.commitStep tid feeCc fixed4) := by
  unfold SettlementExecutor.commitStep
  split
  · rename_i ht
    dsimp only
    split
    · exact setTask rfl ht rfl
    · split
      · exact setTask rfl ht rfl
      · split
        · exact endStep rfl ht rfl
        · exact setTask rfl ht rfl
  · exact same rfl

theorem latchStep [ValuedAmount D] : TasksStay (.latchStep tid) x (x.latchStep tid) := by
  unfold SettlementExecutor.latchStep
  split
  · rename_i ht
    dsimp only
    split
    · exact endStep rfl ht rfl
    · exact setTask rfl ht rfl
    · split <;> exact setTask rfl ht rfl
  · exact same rfl

theorem recordStep [ValuedAmount D] : TasksStay (.recordStep tid) x (x.recordStep tid) := by
  unfold SettlementExecutor.recordStep
  split
  · rename_i ht
    exact setTask rfl ht rfl
  · exact same rfl

theorem actStep [ValuedAmount D] {answer : Except String String} {now : Int} :
    TasksStay (.actStep tid answer now) x (x.actStep tid answer now) := by
  unfold SettlementExecutor.actStep
  split
  case h_2 => exact same rfl
  rename_i ht
  dsimp only
  split
  · split
    · exact setTask rfl ht rfl
    · split <;> exact endStep rfl ht rfl
  · exact endStep rfl ht rfl
  · split <;> exact endStep rfl ht rfl
  · split
    · exact endStep rfl ht rfl
    · split <;> exact endStep rfl ht rfl
  · exact endStep rfl ht rfl
  · split
    · exact endStep rfl ht rfl
    · split <;> exact endStep rfl ht rfl
  · exact endStep rfl ht rfl
  · exact endStep rfl ht rfl
  · split <;> exact endStep rfl ht rfl

theorem refuseStep : TasksStay (.refuseStep tid) x (x.refuseStep tid) := by
  unfold SettlementExecutor.refuseStep
  split
  · rename_i ht
    exact setTask rfl ht rfl
  · exact same rfl

theorem allocateReturns {answer : Except String String} :
    TasksStay (.allocateReturns tid answer) x (x.allocateReturns tid answer) := by
  unfold SettlementExecutor.allocateReturns
  split
  · rename_i ht
    dsimp only
    split <;> exact setTask rfl ht rfl
  · exact same rfl

theorem dropTask : TasksStay (.dropTask tid) x (x.dropTask tid) := by
  unfold SettlementExecutor.dropTask
  split
  · exact same rfl
  · exact same rfl
  · rename_i t hunfinished ht
    refine setTask rfl ht ⟨rfl, ?_⟩
    obtain ⟨pid, state, phase⟩ := t
    cases phase with
    | finished result => exact absurd rfl (hunfinished pid state result)
    | _ => rfl

theorem collect [ValuedAmount D] {now : Int} : TasksStay (.collect tid now) x (x.collect tid now) := by
  have erased {y : SettlementExecutor D} (hturn : ∀ t, x.tasks.lookup tid = some t →
      ExecutorEvent.isTurn (.collect tid now : ExecutorEvent D) tid t.phase)
      (h : y.tasks = x.tasks.erase tid) : TasksStay (.collect tid now) x y := by
    intro i t ht hidle
    have hne : i ≠ tid := by
      rintro rfl
      exact hidle (hturn t ht)
    rw [h, AList.lookup_erase_ne hne]
    exact ht
  unfold SettlementExecutor.collect
  split
  · rename_i q final result ht
    have own (t : SettlementTask) (hown : x.tasks.lookup tid = some t) :
        ExecutorEvent.isTurn (.collect tid now : ExecutorEvent D) tid t.phase := by
      rw [ht] at hown
      obtain rfl := Option.some.inj hown
      rfl
    let gone : SettlementExecutor D := { x with tasks := x.tasks.erase tid }.endProgress q
    have applied : (((gone.takeState q final).tell q result).applyResult q result now).tasks
        = x.tasks.erase tid := tasks_applyResult.trans tasks_takeState
    dsimp only
    split
    · exact erased own applied
    · exact erased own applied
  · rename_i q final ht
    refine erased (fun t hown => ?_) rfl
    rw [ht] at hown
    obtain rfl := Option.some.inj hown
    rfl
  · exact same rfl

end TasksStay

/-- The tasks and the completed proposals are as they were. -/
structure SameWork (x y : SettlementExecutor D) : Prop where
  tasks : y.tasks = x.tasks
  completed : y.completedProposals = x.completedProposals

omit [ValuedAmount D] [SignatureCrates] in
theorem sameWork_rejectProposal {sent : Bool} (h : SameWork x y) :
    SameWork x (y.rejectProposal q sent) := by
  unfold rejectProposal
  split
  · exact ⟨h.tasks, h.completed⟩
  · exact h

/-- Handing a proposal in starts no task, and completes it only if it comes with the time it was
settled at. -/
theorem sameWork_handleProposalCreated {p : SettlementProposal} {f : ProposalFeed D} :
    (x.handleProposalCreated p f).tasks = x.tasks ∧
      (p.settledAt = none → SameWork x (x.handleProposalCreated p f)) := by
  have same : SameWork x x := ⟨rfl, rfl⟩
  have rfq : SameWork x (x.verifyRfqProposal p).2 := by
    unfold verifyRfqProposal
    split
    · exact ⟨rfl, rfl⟩
    · split
      · exact same
      · split <;> exact ⟨rfl, rfl⟩
  have order : SameWork x (x.verifyOrderProposal p f).2 := by
    unfold verifyOrderProposal
    split
    · exact same
    · exact same
    · exact same
    · dsimp only
      split <;> exact ⟨rfl, rfl⟩
  have terms : SameWork x (x.checkTerms p f) := by
    unfold checkTerms
    split
    · split <;> rename_i heq <;> rw [heq] at rfq
      · exact sameWork_rejectProposal rfq
      · exact ⟨rfq.tasks, rfq.completed⟩
    · split <;> rename_i heq <;> rw [heq] at order
      · exact ⟨order.tasks, order.completed⟩
      · exact sameWork_rejectProposal order
      · exact order
  have vetted : SameWork x (x.vet p f) := by
    unfold vet
    dsimp only
    split_ifs
    · exact sameWork_rejectProposal same
    · exact sameWork_rejectProposal same
    · split
      · exact same
      · exact sameWork_rejectProposal same
      · exact terms
  have aborted : SameWork x (x.abortV1Settlement p f) := by
    unfold abortV1Settlement
    split
    · exact same
    · split
      · exact ⟨rfl, rfl⟩
      · dsimp only
        split <;> exact ⟨rfl, rfl⟩
  have resumed : SameWork x (x.resume p f.now) := by
    unfold resume
    split <;> exact ⟨rfl, rfl⟩
  have refused : SameWork x
      (((x.markFailed p.proposalId).releaseCommitment p.proposalId).rejectProposal p.proposalId
        f.rejectSent) := sameWork_rejectProposal ⟨rfl, rfl⟩
  unfold handleProposalCreated
  dsimp only
  split_ifs
  · exact ⟨rfl, fun _ => same⟩
  · rename_i hsettled
    refine ⟨rfl, fun hnone => ?_⟩
    rw [hnone] at hsettled
    cases hsettled
  · exact ⟨rfl, fun _ => same⟩
  · exact ⟨refused.tasks, fun _ => refused⟩
  · exact ⟨aborted.tasks, fun _ => aborted⟩
  · exact ⟨resumed.tasks, fun _ => resumed⟩
  · exact ⟨rfl, fun _ => ⟨rfl, rfl⟩⟩
  · exact ⟨vetted.tasks, fun _ => vetted⟩

/-- What a settled proposal that is new to the process is taken for. -/
theorem view_settledBefore {p : SettlementProposal} {f : ProposalFeed D}
    (hnew : (x.view p.proposalId).IsNew) (hsettled : p.settledAt.isSome = true) :
    (x.handleProposalCreated p f).view p.proposalId
      = ((x.view p.proposalId).noteSettled (x.config.settleWindowPassed p f.now)).complete := by
  unfold handleProposalCreated
  dsimp only
  rw [if_neg (isNew_iff.mp hnew), if_pos hsettled, view_complete]
  unfold noteSettled
  rw [view_note]
  rfl

/-- It is not made active. -/
theorem active_of_settledAt {p : SettlementProposal} {f : ProposalFeed D}
    (hnew : (x.view p.proposalId).IsNew) (hsettled : p.settledAt.isSome = true) :
    ((x.handleProposalCreated p f).view p.proposalId).active = none := by
  rw [view_settledBefore hnew hsettled]
  exact hnew.1

omit [SignatureCrates] in
theorem tasks_handleSettled {p : SettlementProposal} {now : Int} :
    (x.handleSettled p now).tasks = x.tasks := by
  unfold handleSettled
  simp only [clearFailed, endProgress, deactivate, complete, releaseCommitment, markSettled,
    recordSettlementInflow, noteSettled, note]

omit [SignatureCrates] in
theorem tasks_handleEnded : (x.handleEnded q).tasks = x.tasks := by
  unfold handleEnded
  simp only [clearFailed, endProgress, deactivate, reject, releaseCommitment, markFailed, note]

/-- An event moves a task on only where it is the turn of that task. -/
theorem tasksStay_apply (h : x.Numbered) (e : ExecutorEvent D) (hrestart : e.isRestart = false) :
    TasksStay e x (x.apply e) := by
  cases e with
  | proposalCreated p f => exact .same sameWork_handleProposalCreated.1
  | settled p now => exact .same tasks_handleSettled
  | ended q => exact .same tasks_handleEnded
  | contractFound q kind cid =>
    refine .same ?_
    change (x.contractFound q kind cid).tasks = x.tasks
    unfold contractFound setStage
    split
    · rfl
    · split
      · rfl
      · split <;> rfl
  | readvance q =>
    refine .same ?_
    change (x.readvance q).tasks = x.tasks
    unfold readvance
    split <;> rfl
  | spawn q fresh => exact .spawnTask h.free
  | beginStep tid => exact .beginStep
  | answerStep tid answer now => exact .answerStep
  | commitStep tid feeCc fixed4 => exact .commitStep
  | latchStep tid => exact .latchStep
  | recordStep tid => exact .recordStep
  | actStep tid answer now => exact .actStep
  | refuseStep tid => exact .refuseStep
  | allocateReturns tid answer => exact .allocateReturns
  | dropTask tid => exact .dropTask
  | collect tid now => exact .collect
  | rejectUnconfirmed q sent =>
    refine .same ?_
    change (x.rejectUnconfirmed q sent).tasks = x.tasks
    unfold rejectUnconfirmed rejectProposal
    split
    · rfl
    · split
      · dsimp only
        split <;> rfl
      · rfl
  | restart => cases hrestart
  | _ => exact .same rfl

/-- Whatever moves a task on, it was the turn of that task. -/
theorem isTurn_of_moved (h : x.Numbered) {tid : Nat} {t : SettlementTask}
    (hrestart : e.isRestart = false) (ht : x.tasks.lookup tid = some t)
    (hmoved : (x.apply e).tasks.lookup tid ≠ some t) : e.isTurn tid t.phase := by
  by_contra hidle
  exact hmoved (tasksStay_apply h e hrestart tid t ht hidle)

end SettlementExecutor

end BookAgent.AgentLogic
