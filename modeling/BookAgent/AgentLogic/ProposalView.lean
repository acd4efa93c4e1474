import BookAgent.AgentLogic.ExecutorRun

/-!
# One proposal in the executor

What the executor, its tasks and the stores it shares hold of one proposal, and that
every event is about one proposal: it leaves what is held of the others.
-/

namespace BookAgent.AgentLogic

open BookAgent.Lib

structure ProposalView (D : Type) where
  active : Option SettlementState
  completed : Prop
  rejected : Prop
  inProgress : Prop
  record : Option (SettlementOrderEntry D)
  /-- There is a liquidity manager. -/
  managed : Bool
  /-- The liquidity manager holds a commitment. -/
  committed : Prop
  /-- A release has not run yet. -/
  releasing : Prop
  task : Nat → Option SettlementTask
  history : ProposalHistory D

namespace ProposalView

variable {D : Type} (v : ProposalView D)

/-- `mark_settled`. -/
def settle (tracked : Nat → Bool) : ProposalView D :=
  { v with
    record := none
    history := v.history.close v.record tracked }

/-- `mark_failed`. -/
def lose : ProposalView D :=
  { v with
    record := none
    history := { v.history with lost := v.history.lost || v.record.isSome } }

def release : ProposalView D := { v with releasing := v.managed = true ∨ v.releasing }

def reject : ProposalView D := { v with rejected := True }

def complete : ProposalView D := { v with completed := True }

def deactivate : ProposalView D := { v with active := none }

def endProgress : ProposalView D := { v with inProgress := False }

def setTask (tid : Nat) (task : Option SettlementTask) : ProposalView D :=
  { v with task := Function.update v.task tid task }

def noteSettled (windowPassed : Bool) : ProposalView D :=
  { v with history :=
      { v.history with
        settled := true
        timely := v.history.timely || (v.history.committed && !windowPassed) } }

def cancel (windowPassed : Bool) : ProposalView D :=
  { v with history :=
      { v.history with cancels := ⟨windowPassed, v.history.committed⟩ :: v.history.cancels } }

def receive (inflow : Option (String × String)) : ProposalView D :=
  { v with history := { v.history with inflows := inflow.toList ++ v.history.inflows } }

end ProposalView

namespace SettlementExecutor

variable {D : Type} [ValuedAmount D] {x : SettlementExecutor D} {pid q : String}

/-- The liquidity manager holds a commitment under the id. -/
def hasCommitment (x : SettlementExecutor D) (pid : String) : Prop :=
  ∃ lm, x.liquidityManager = some lm ∧ lm.hasCommitment pid = true

/-- The task of that number, if it is one of the proposal. -/
def taskOf (x : SettlementExecutor D) (pid : String) (tid : Nat) : Option SettlementTask :=
  (x.tasks.lookup tid).filter fun t => decide (t.proposalId = pid)

def view (x : SettlementExecutor D) (pid : String) : ProposalView D where
  active := x.activeSettlements.lookup pid
  completed := pid ∈ x.completedProposals
  rejected := pid ∈ x.rejectedProposals
  inProgress := pid ∈ x.inProgress
  record := x.tracker.settlementOrders.lookup pid
  managed := x.liquidityManager.isSome
  committed := x.hasCommitment pid
  releasing := pid ∈ x.releases
  task := x.taskOf pid
  history := x.history pid

omit [ValuedAmount D] in
theorem taskOf_eq_some {tid : Nat} {t : SettlementTask} :
    x.taskOf pid tid = some t ↔ x.tasks.lookup tid = some t ∧ t.proposalId = pid := by
  unfold taskOf
  rw [Option.filter_eq_some_iff, decide_eq_true_eq]

omit [ValuedAmount D] in
theorem proposalId_of_lookup {tid : Nat} {t : SettlementTask} (pid : String)
    (known : (x.tasks.lookup tid).map (fun t => t.proposalId) = some pid)
    (ht : x.tasks.lookup tid = some t) : t.proposalId = pid := by
  rw [ht] at known
  exact Option.some.inj known

/-! ## Changes to one proposal, seen from it and from another -/

omit [ValuedAmount D] in
/-- Two executors that hold the same of a proposal. -/
theorem view_congr {y : SettlementExecutor D}
    (hactive : y.activeSettlements.lookup pid = x.activeSettlements.lookup pid)
    (hcompleted : pid ∈ y.completedProposals ↔ pid ∈ x.completedProposals)
    (hrejected : pid ∈ y.rejectedProposals ↔ pid ∈ x.rejectedProposals)
    (hprogress : pid ∈ y.inProgress ↔ pid ∈ x.inProgress)
    (hrecord : y.tracker.settlementOrders.lookup pid = x.tracker.settlementOrders.lookup pid)
    (hmanaged : y.liquidityManager.isSome = x.liquidityManager.isSome)
    (hcommitted : y.hasCommitment pid ↔ x.hasCommitment pid)
    (hreleasing : pid ∈ y.releases ↔ pid ∈ x.releases)
    (htask : ∀ tid, y.taskOf pid tid = x.taskOf pid tid)
    (hhistory : y.history pid = x.history pid) : y.view pid = x.view pid := by
  unfold view
  rw [hactive, propext hcompleted, propext hrejected, propext hprogress, hrecord,
    hmanaged, propext hcommitted, propext hreleasing, funext htask, hhistory]

section Own

omit [ValuedAmount D]

@[simp] theorem view_note {f : ProposalHistory D → ProposalHistory D} :
    (x.note pid f).view pid = { x.view pid with history := f (x.view pid).history } := by
  simp only [view, note, hasCommitment, Function.update_self]
  rfl

@[simp] theorem view_reject : (x.reject pid).view pid = (x.view pid).reject := by
  simp only [view, reject, hasCommitment, Finset.mem_insert, true_or]
  rfl

@[simp] theorem view_complete : (x.complete pid).view pid = (x.view pid).complete := by
  simp only [view, complete, hasCommitment, Finset.mem_insert, true_or]
  rfl

@[simp] theorem view_deactivate : (x.deactivate pid).view pid = (x.view pid).deactivate := by
  simp only [view, deactivate, hasCommitment, AList.lookup_erase]
  rfl

@[simp] theorem view_endProgress : (x.endProgress pid).view pid = (x.view pid).endProgress := by
  simp only [view, endProgress, hasCommitment, Finset.mem_erase, ne_eq, not_true_eq_false,
    false_and]
  rfl

@[simp] theorem view_clearFailed : (x.clearFailed q).view pid = x.view pid := rfl

@[simp] theorem view_setFailed {n : Nat} : (x.setFailed q n).view pid = x.view pid := rfl

@[simp] theorem view_releaseCommitment : (x.releaseCommitment pid).view pid = (x.view pid).release := by
  unfold view releaseCommitment hasCommitment ProposalView.release
  cases hlm : x.liquidityManager with
  | none =>
    simp only [Option.isSome_none, Bool.false_eq_true, if_false, false_or]
    rfl
  | some lm =>
    simp only [Option.isSome_some, if_true, List.mem_cons, true_or]
    rfl

@[simp] theorem view_setTask {tid : Nat} {task : SettlementTask} (h : task.proposalId = pid) :
    (x.setTask tid task).view pid = (x.view pid).setTask tid (some task) := by
  have tasks : (x.setTask tid task).taskOf pid = Function.update (x.taskOf pid) tid (some task) := by
    funext n
    by_cases hn : n = tid
    · subst hn
      simp only [taskOf, setTask, AList.lookup_insert, Function.update_self, Option.filter, h,
        decide_true, if_true]
    · simp only [taskOf, setTask, AList.lookup_insert_ne hn, Function.update_of_ne hn]
  unfold view ProposalView.setTask
  rw [tasks]
  rfl

/-- The task is gone. -/
theorem view_eraseTask {tid : Nat} :
    { x with tasks := x.tasks.erase tid }.view pid = (x.view pid).setTask tid none := by
  have tasks : taskOf { x with tasks := x.tasks.erase tid } pid
      = Function.update (x.taskOf pid) tid none := by
    funext n
    by_cases hn : n = tid
    · subst hn
      simp only [taskOf, AList.lookup_erase, Function.update_self, Option.filter]
    · simp only [taskOf, AList.lookup_erase_ne hn, Function.update_of_ne hn]
  unfold view ProposalView.setTask
  rw [tasks]
  rfl

theorem view_setActive {state : SettlementState} :
    { x with activeSettlements := x.activeSettlements.insert pid state }.view pid
      = { x.view pid with active := some state } := by
  simp only [view, hasCommitment, AList.lookup_insert]
  rfl

theorem view_note_ne (h : pid ≠ q) {f : ProposalHistory D → ProposalHistory D} :
    (x.note q f).view pid = x.view pid := by
  simp only [view, note, hasCommitment, Function.update_of_ne h]
  rfl

theorem view_reject_ne (h : pid ≠ q) : (x.reject q).view pid = x.view pid := by
  simp only [view, reject, hasCommitment, Finset.mem_insert, h, false_or]
  rfl

theorem view_complete_ne (h : pid ≠ q) : (x.complete q).view pid = x.view pid := by
  simp only [view, complete, hasCommitment, Finset.mem_insert, h, false_or]
  rfl

theorem view_deactivate_ne (h : pid ≠ q) : (x.deactivate q).view pid = x.view pid := by
  simp only [view, deactivate, hasCommitment, AList.lookup_erase_ne h]
  rfl

theorem view_endProgress_ne (h : pid ≠ q) : (x.endProgress q).view pid = x.view pid := by
  simp only [view, endProgress, hasCommitment, Finset.mem_erase, ne_eq, h, not_false_eq_true,
    true_and]
  rfl

theorem view_releaseCommitment_ne (h : pid ≠ q) : (x.releaseCommitment q).view pid = x.view pid := by
  unfold view releaseCommitment hasCommitment
  cases hlm : x.liquidityManager with
  | none =>
    simp only [Option.isSome_none, Bool.false_eq_true, if_false]
    rfl
  | some lm =>
    simp only [Option.isSome_some, if_true, List.mem_cons, h, false_or]
    rfl

/-- A task number that no task of the proposal has is written with a task of another. -/
theorem view_setTask_ne {tid : Nat} {task : SettlementTask} (h : task.proposalId ≠ pid)
    (hfree : x.taskOf pid tid = none) : (x.setTask tid task).view pid = x.view pid := by
  refine view_congr rfl Iff.rfl Iff.rfl Iff.rfl rfl rfl Iff.rfl Iff.rfl (fun n => ?_) rfl
  by_cases hn : n = tid
  · subst hn
    rw [hfree]
    simp only [taskOf, setTask, AList.lookup_insert, Option.filter, h, decide_false,
      Bool.false_eq_true, if_false]
  · simp only [taskOf, setTask, AList.lookup_insert_ne hn]

theorem view_eraseTask_ne {tid : Nat} (hfree : x.taskOf pid tid = none) :
    { x with tasks := x.tasks.erase tid }.view pid = x.view pid := by
  refine view_congr rfl Iff.rfl Iff.rfl Iff.rfl rfl rfl Iff.rfl Iff.rfl (fun n => ?_) rfl
  by_cases hn : n = tid
  · subst hn
    rw [hfree]
    simp only [taskOf, AList.lookup_erase, Option.filter]
  · simp only [taskOf, AList.lookup_erase_ne hn]

theorem view_setActive_ne (h : pid ≠ q) {state : SettlementState} :
    { x with activeSettlements := x.activeSettlements.insert q state }.view pid = x.view pid :=
  view_congr (AList.lookup_insert_ne h) Iff.rfl Iff.rfl Iff.rfl rfl rfl Iff.rfl Iff.rfl
    (fun _ => rfl) rfl

end Own

/-! ### The tracker -/

/-- Ending a settlement drops its record, and no other. -/
theorem lookup_settlementOrders_markSettled (t : OrderTracker D) :
    (t.markSettled q).settlementOrders.lookup pid
      = if pid = q then none else t.settlementOrders.lookup pid := by
  unfold OrderTracker.markSettled
  cases hq : t.settlementOrders.lookup q with
  | none =>
    by_cases h : pid = q
    · rw [if_pos h, h]
      exact hq
    · rw [if_neg h]
  | some e =>
    dsimp only
    split
    · exact Pool.lookup_erase_eq_ite _ q pid
    · rw [OrderTracker.settlementOrders_modifyOrder]
      exact Pool.lookup_erase_eq_ite _ q pid

theorem lookup_settlementOrders_markFailed (t : OrderTracker D) :
    (t.markFailed q).settlementOrders.lookup pid
      = if pid = q then none else t.settlementOrders.lookup pid := by
  unfold OrderTracker.markFailed
  cases hq : t.settlementOrders.lookup q with
  | none =>
    by_cases h : pid = q
    · rw [if_pos h, h]
      exact hq
    · rw [if_neg h]
  | some e =>
    dsimp only
    split
    · exact Pool.lookup_erase_eq_ite _ q pid
    · rw [OrderTracker.settlementOrders_modifyOrder]
      exact Pool.lookup_erase_eq_ite _ q pid

@[simp] theorem view_markSettled : (x.markSettled pid).view pid
    = (x.view pid).settle fun id => id ∈ x.tracker.orders := by
  unfold markSettled view hasCommitment ProposalView.settle
  dsimp only
  rw [lookup_settlementOrders_markSettled, if_pos rfl]
  simp only [note, Function.update_self]
  rfl

@[simp] theorem view_markFailed : (x.markFailed pid).view pid = (x.view pid).lose := by
  have recorded : x.tracker.hasSettlementOrder pid
      = (x.tracker.settlementOrders.lookup pid).isSome := by
    rw [Bool.eq_iff_iff, AList.lookup_isSome]
    exact decide_eq_true_iff
  unfold markFailed view hasCommitment ProposalView.lose
  rw [recorded]
  dsimp only
  rw [lookup_settlementOrders_markFailed, if_pos rfl]
  simp only [note, Function.update_self]
  rfl

theorem view_markSettled_ne (h : pid ≠ q) : (x.markSettled q).view pid = x.view pid := by
  refine view_congr rfl Iff.rfl Iff.rfl Iff.rfl ?_ rfl Iff.rfl Iff.rfl (fun _ => rfl)
    (Function.update_of_ne h _ _)
  exact (lookup_settlementOrders_markSettled x.tracker).trans (if_neg h)

theorem view_markFailed_ne (h : pid ≠ q) : (x.markFailed q).view pid = x.view pid := by
  refine view_congr rfl Iff.rfl Iff.rfl Iff.rfl ?_ rfl Iff.rfl Iff.rfl (fun _ => rfl)
    (Function.update_of_ne h _ _)
  exact (lookup_settlementOrders_markFailed x.tracker).trans (if_neg h)

end SettlementExecutor

end BookAgent.AgentLogic
