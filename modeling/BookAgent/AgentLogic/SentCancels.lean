import BookAgent.AgentLogic.LeftReservations

/-!
# Cancels and allocations

A proposal that is given up before its allocation is cancelled on the server. The executor
goes by the stage it knows, which is behind the ledger until it has taken the result of the
allocate call.
-/

namespace BookAgent.AgentLogic

open BookAgent.Lib

theorem told_close {D : Type} {h : ProposalHistory D} {entry : Option (SettlementOrderEntry D)}
    {tracked : Nat → Bool} : (h.close entry tracked).told = h.told := by
  unfold ProposalHistory.close
  split
  · rfl
  · split <;> rfl

theorem cancels_close {D : Type} {h : ProposalHistory D} {entry : Option (SettlementOrderEntry D)}
    {tracked : Nat → Bool} : (h.close entry tracked).cancels = h.cancels := by
  unfold ProposalHistory.close
  split
  · rfl
  · split <;> rfl

namespace ProposalView

variable {D : Type} {v v' : ProposalView D}

/-- Once the executor is told of the allocation, the entry and the tasks are past it. -/
structure Staged (v : ProposalView D) : Prop where
  active : v.history.told = true → ∀ s, v.active = some s → isPreAllocationStage s.stage = false
  task : v.history.told = true → ∀ i t, v.task i = some t → isPreAllocationStage t.state.stage = false

/-- After the allocation a cancel is only sent past the settle window. -/
def Spared (v : ProposalView D) : Prop :=
  ∀ c ∈ v.history.cancels, c.committed = true → c.settleWindowPassed = true

namespace Staged

theorem untold (h : v.history.told = false) : v.Staged := by
  constructor
  · intro htold
    rw [h] at htold
    cases htold
  · intro htold
    rw [h] at htold
    cases htold

/-- Nothing is told, entries are as they were, and so are the states of the tasks. -/
theorem of_le (h : v.Staged) (htold : v'.history.told = true → v.history.told = true)
    (hactive : ∀ s, v'.active = some s → v.active = some s)
    (htask : ∀ i t, v'.task i = some t → ∃ t', v.task i = some t' ∧ t'.state = t.state) :
    v'.Staged where
  active ht s hs := h.active (htold ht) s (hactive s hs)
  task ht i t hi := by
    obtain ⟨t', ht', hstate⟩ := htask i t hi
    rw [← hstate]
    exact h.task (htold ht) i t' ht'

/-- A task moves on. -/
theorem of_setTask (h : v.Staged) {tid : Nat} {t : SettlementTask} {phase : TaskPhase}
    (ht : v.task tid = some t) (htold : v'.history.told = true → v.history.told = true)
    (hactive : v'.active = v.active)
    (htask : v'.task = Function.update v.task tid (some { t with phase := phase })) : v'.Staged := by
  refine h.of_le htold (fun s hs => hactive ▸ hs) fun i u hu => ?_
  rw [htask] at hu
  by_cases hi : i = tid
  · rw [hi, Function.update_self] at hu
    obtain rfl := Option.some.inj hu
    exact ⟨t, hi ▸ ht, rfl⟩
  · rw [Function.update_of_ne hi] at hu
    exact ⟨u, hu, rfl⟩

end Staged

end ProposalView

namespace SettlementExecutor

variable {D : Type} [ValuedAmount D] [SignatureCrates] {x : SettlementExecutor D} {pid : String}

open ProposalView

omit [SignatureCrates] in
/-- A result that tells of the allocation leaves an entry past it, where the entry was past it if
the executor had been told before. -/
theorem stage_applyResult {result : AdvanceResult} {now : Int} {told : Bool} {s' : SettlementState}
    (hs' : (x.applyResult pid result now).activeSettlements.lookup pid = some s')
    (htells : result.tells told = true)
    (hold : told = true → ∀ s, x.activeSettlements.lookup pid = some s →
      isPreAllocationStage s.stage = false) : isPreAllocationStage s'.stage = false := by
  have failed (count : Nat) (htold : told = true)
      (hs' : (x.applyFailure pid count now).activeSettlements.lookup pid = some s') :
      isPreAllocationStage s'.stage = false := by
    unfold applyFailure at hs'
    split at hs'
    · rw [activeSettlements_giveUp, AList.lookup_erase] at hs'
      cases hs'
    · exact hold htold s' hs'
  cases result with
  | stepCompleted stage dvpProposalCid dvpCid allocationCid =>
    have allocated : stage = .allocated := by cases stage <;> first | rfl | cases htells
    have active : (x.setStage pid fun s => (AdvanceResult.stepCompleted stage dvpProposalCid dvpCid
        allocationCid).applyToState s).activeSettlements.lookup pid = some s' := hs'
    unfold setStage at active
    split at active
    · rename_i hnone
      rw [hnone] at active
      cases active
    · rw [AList.lookup_insert] at active
      obtain rfl := Option.some.inj active
      rw [allocated]
      rfl
  | preconfirmed => cases htells
  | rejected =>
    have gone : (x.activeSettlements.erase pid).lookup pid = some s' := hs'
    rw [AList.lookup_erase] at gone
    cases gone
  | terminal =>
    have gone : (x.activeSettlements.erase pid).lookup pid = some s' := hs'
    rw [AList.lookup_erase] at gone
    cases gone
  | wait => exact hold htells s' hs'
  | error e => exact failed _ htells hs'
  | timeout => exact failed _ htells hs'
  | needsAllocate => exact hold htells s' hs'

omit [SignatureCrates] in
theorem activeSettlements_collect {tid : Nat} {now : Int} {t : SettlementTask} {result : AdvanceResult}
    (ht : x.tasks.lookup tid = some t) (hphase : t.phase = .finished result) :
    (x.collect tid now).activeSettlements =
      (((({ x with tasks := x.tasks.erase tid }.endProgress t.proposalId).takeState t.proposalId
        t.state).tell t.proposalId result).applyResult t.proposalId result now).activeSettlements := by
  obtain ⟨q, state, phase⟩ := t
  obtain rfl : phase = .finished result := hphase
  unfold collect
  rw [ht]
  dsimp only
  split <;> rfl

omit [SignatureCrates] in
/-- What `take` makes of an entry has the stage of the task. -/
theorem stage_takeState {final s : SettlementState}
    (hs : (x.takeState pid final).activeSettlements.lookup pid = some s) :
    s.stage = final.stage ∧ pid ∈ x.activeSettlements := by
  unfold takeState at hs
  split at hs
  · rename_i hnone
    have gone : x.activeSettlements.lookup pid = some s := hs
    rw [hnone] at gone
    cases gone
  · rename_i state hactive
    rw [AList.lookup_insert] at hs
    obtain rfl := Option.some.inj hs
    exact ⟨rfl, Pool.mem_iff_lookup.mpr ⟨state, hactive⟩⟩

omit [SignatureCrates] in
theorem stage_collect (h : (x.view pid).Staged) {tid : Nat} {now : Int} {t : SettlementTask}
    {result : AdvanceResult} (ht : x.taskOf pid tid = some t) (hphase : t.phase = .finished result)
    (htells : result.tells (x.history pid).told = true) {s : SettlementState}
    (hs : (x.collect tid now).activeSettlements.lookup pid = some s) :
    isPreAllocationStage s.stage = false := by
  obtain ⟨hlookup, rfl⟩ := taskOf_eq_some.mp ht
  rw [activeSettlements_collect hlookup hphase] at hs
  refine stage_applyResult hs htells fun htold s' hs' => ?_
  rw [(stage_takeState hs').1]
  exact h.task htold tid t ht

omit [ValuedAmount D] [SignatureCrates] in
theorem told_result {now : Int} {final : SettlementState} {v v' : ProposalView D}
    {result : AdvanceResult} (step : ResultStep x pid now final v result v') :
    v'.history.told = v.history.told := by
  cases step with
  | kept => rfl
  | rejected => rfl
  | terminal => rfl
  | givenUp =>
    unfold ProposalView.giveUp
    dsimp only
    split <;> rfl

/-- A collection is a step like the others once the entry it leaves is known. -/
theorem staged_step {e : ExecutorEvent D} {v : ProposalView D} (hworked : (x.view pid).Worked)
    (hv : v = (x.apply e).view pid) (h : (x.view pid).Staged) (step : ProposalStep x pid e v) :
    v.Staged := by
  cases step with
  | settledBefore => exact h.of_le id (fun _ hs => hs) fun i t hi => ⟨t, hi, rfl⟩
  | refused => exact h.of_le id (fun _ hs => hs) fun i t hi => ⟨t, hi, rfl⟩
  | implausible hpid hnew sent =>
    split <;> exact h.of_le id (fun _ hs => hs) fun i t hi => ⟨t, hi, rfl⟩
  | aborted hpid hnew hrfq hstatus hleave sent =>
    split <;> exact h.of_le id (fun _ hs => hs) fun i t hi => ⟨t, hi, rfl⟩
  | expired => exact h.of_le id (fun _ hs => hs) fun i t hi => ⟨t, hi, rfl⟩
  | resumed => exact .untold rfl
  | adopted => exact .untold rfl
  | settled hpid inflow hinflow =>
    refine h.of_le (fun htold => ?_) (fun _ hs => by cases hs) fun i t hi => ⟨t, hi, rfl⟩
    change (ProposalHistory.close _ _ _).told = true at htold
    rw [told_close] at htold
    exact htold
  | ended => exact h.of_le id (fun _ hs => by cases hs) fun i t hi => ⟨t, hi, rfl⟩
  | @found kind cid state hactive =>
    refine ⟨fun htold s hs => ?_, h.task⟩
    obtain rfl := Option.some.inj hs
    have stage : (addContract state kind cid).stage = state.stage := by cases kind <;> rfl
    rw [stage]
    exact h.active htold state hactive
  | @spawned fresh state hactive hprogress =>
    refine ⟨h.active, fun htold i t hi => ?_⟩
    have found : Function.update (x.view pid).task x.nextTask (some ⟨pid, state, .ready⟩) i = some t := hi
    by_cases hnew : i = x.nextTask
    · rw [hnew, Function.update_self] at found
      obtain rfl := Option.some.inj found
      exact h.active htold state hactive
    · rw [Function.update_of_ne hnew] at found
      exact h.task htold i t found
  | moved ht hfrom hto => exact h.of_setTask ht id rfl rfl
  | called ht hfrom => exact h.of_setTask ht id rfl rfl
  | readvanced ht hfrom => exact .untold rfl
  | committed ht hfrom => exact h.of_setTask ht id rfl rfl
  | latched ht hfrom hentry hreserved => exact h.of_setTask ht id rfl rfl
  | recorded ht hfrom outflow => exact h.of_setTask ht id rfl rfl
  | refusing ht hfrom => exact h.of_setTask ht id rfl rfl
  | refusalSent ht hfrom => exact h.of_setTask ht id rfl rfl
  | foundSettled ht hfrom hstatus =>
    refine h.of_setTask ht (fun htold => ?_) rfl rfl
    change (ProposalHistory.close _ _ _).told = true at htold
    rw [told_close] at htold
    exact htold
  | foundEnded ht hfrom hstatus => exact h.of_setTask ht id rfl rfl
  | dropped ht hfrom => exact h.of_setTask ht id rfl rfl
  | @collected tid now t result v ht hphase hresult =>
    have told : v.history.told = result.tells (x.history pid).told := by
      rw [told_result hresult]
      unfold ProposalView.take
      split <;> rfl
    refine ⟨fun htold s hs => ?_, fun _ i u hu => ?_⟩
    · subst hv
      exact stage_collect h ht hphase (told ▸ htold) hs
    · have left : v.task = ((x.view pid).setTask tid none).task :=
        (task_result hresult).trans (task_take _ _)
      rw [left, hworked.no_task ht i] at hu
      cases hu
  | @collectedDropped tid now t ht hphase =>
    refine ⟨h.active, fun _ i u hu => ?_⟩
    have none_left : ((x.view pid).setTask tid none).endProgress.task i = none := hworked.no_task ht i
    rw [none_left] at hu
    cases hu
  | released => exact h.of_le id (fun _ hs => hs) fun i t hi => ⟨t, hi, rfl⟩
  | allocation => exact h.of_le id (fun _ hs => hs) fun i t hi => ⟨t, hi, rfl⟩
  | unconfirmed hactive hstage =>
    split <;> exact h.of_le id (fun _ hs => by cases hs) fun i t hi => ⟨t, hi, rfl⟩
  | reconciled => exact h.of_le id (fun _ hs => hs) fun i t hi => ⟨t, hi, rfl⟩
  | restarted hactive htask hprogress hreleasing hcommitted hrecord hhistory hrestart =>
    refine .untold ?_
    rw [hhistory]

/-! ## Allocations on the ledger -/

omit [ValuedAmount D] [SignatureCrates] in
theorem committed_take (v : ProposalView D) (final : SettlementState) :
    (v.take final).history.committed = v.history.committed := by
  unfold ProposalView.take
  split <;> rfl

/-- An event other than the commit leaves it as it is whether the allocation has committed. -/
theorem committed_step {e : ExecutorEvent D} {v : ProposalView D} (step : ProposalStep x pid e v)
    (he : ∀ q, e ≠ .allocationCommits q) :
    v.history.committed = (x.view pid).history.committed := by
  have closed {h : ProposalHistory D} {entry : Option (SettlementOrderEntry D)} {tracked : Nat → Bool} :
      (h.close entry tracked).committed = h.committed := by
    unfold ProposalHistory.close
    split
    · rfl
    · split <;> rfl
  cases step with
  | implausible => split <;> rfl
  | aborted => split <;> rfl
  | settled => exact closed
  | foundSettled => exact closed
  | @collected tid now t result v ht hphase hresult =>
    have taken : (((((x.view pid).setTask tid none).endProgress).take t.state).tell
        result).history.committed = (x.view pid).history.committed :=
      committed_take (((x.view pid).setTask tid none).endProgress) t.state
    rw [← taken]
    cases hresult with
    | kept => rfl
    | rejected => rfl
    | terminal => rfl
    | givenUp =>
      unfold ProposalView.giveUp
      dsimp only
      split <;> rfl
  | allocation => exact absurd rfl (he pid)
  | unconfirmed => split <;> rfl
  | restarted hactive htask hprogress hreleasing hcommitted hrecord hhistory => rw [hhistory]
  | _ => rfl

theorem committed_apply (h : x.Numbered) {e : ExecutorEvent D} (hrestart : e.isRestart = false)
    (he : ∀ q, e ≠ .allocationCommits q) :
    ((x.apply e).history pid).committed = (x.history pid).committed := by
  rcases h.steps pid hrestart with same | step
  · exact congrArg (fun v => v.history.committed) same
  · exact committed_step step he

/-! ## Cancels -/

/-- A proposal whose allocation has committed is only given up before its settle window has passed
when the executor has been told of the allocation, and only aborted when the server knows
of it. -/
def Aware (x : SettlementExecutor D) : ExecutorEvent D → Prop
  | .collect tid now => ∀ t result, x.tasks.lookup tid = some t → t.phase = .finished result →
      x.givesUp t.proposalId result = true → t.proposalId ∈ x.activeSettlements →
        (x.history t.proposalId).committed = true →
          (x.history t.proposalId).told = true ∨
            x.config.settleWindowPassed t.state.proposal now = true
  | .proposalCreated p f => ∀ status, x.config.rfqV2Only = true → (x.view p.proposalId).IsNew →
      f.status = .ok status → (x.history p.proposalId).committed = true →
        v1SettlementLeaveAlone status (x.config.isBuyer p) = true ∨
          x.config.settleWindowPassed p f.now = true
  | _ => True

omit [ValuedAmount D] [SignatureCrates] in
theorem isPreAllocation_take {v : ProposalView D} {final : SettlementState}
    (h : (v.take final).isPreAllocation = true) :
    v.active.isSome = true ∧ isPreAllocationStage final.stage = true := by
  unfold ProposalView.take at h
  split at h
  · rename_i hnone
    unfold ProposalView.isPreAllocation at h
    have gone : v.lose.release.active = none := hnone
    rw [gone] at h
    cases h
  · rename_i state hactive
    rw [hactive]
    exact ⟨rfl, h⟩

omit [ValuedAmount D] [SignatureCrates] in
theorem spared_cancel {v : ProposalView D} (h : v.Spared) {windowPassed : Bool}
    (hwindow : v.history.committed = true → windowPassed = true) : (v.cancel windowPassed).Spared := by
  intro c hc hcommitted
  rcases List.mem_cons.mp hc with rfl | hold
  · exact hwindow hcommitted
  · exact h c hold hcommitted

theorem spared_step {e : ExecutorEvent D} {v : ProposalView D} (hstaged : (x.view pid).Staged)
    (haware : x.Aware e) (h : (x.view pid).Spared) (step : ProposalStep x pid e v) : v.Spared := by
  cases step with
  | @aborted p f status hpid hnew hrfq hstatus hleave sent =>
    subst hpid
    have cancelled : ((x.view p.proposalId).cancel (x.config.settleWindowPassed p f.now)).Spared := by
      refine spared_cancel h fun hcommitted => ?_
      rcases haware status hrfq hnew hstatus hcommitted with hknown | hpassed
      · rw [hleave] at hknown
        cases hknown
      · exact hpassed
    split <;> exact cancelled
  | expired => exact spared_cancel h fun _ => rfl
  | settled =>
    unfold ProposalView.Spared
    change ∀ c ∈ (ProposalHistory.close _ _ _).cancels, _
    rw [cancels_close]
    exact h
  | foundSettled =>
    unfold ProposalView.Spared
    change ∀ c ∈ (ProposalHistory.close _ _ _).cancels, _
    rw [cancels_close]
    exact h
  | @collected tid now t result v ht hphase hresult =>
    have taken : (((((x.view pid).setTask tid none).endProgress).take t.state).tell result).Spared := by
      unfold ProposalView.take
      split <;> exact h
    cases hresult with
    | kept => exact taken
    | rejected => exact taken
    | terminal => exact taken
    | givenUp hgives =>
      unfold ProposalView.giveUp
      dsimp only
      split
      · rename_i hpre
        refine spared_cancel taken fun hcommitted => ?_
        obtain ⟨hactive, hstage⟩ := isPreAllocation_take hpre
        obtain ⟨hlookup, rfl⟩ := taskOf_eq_some.mp ht
        have committed : (x.history t.proposalId).committed = true :=
          (committed_take (((x.view t.proposalId).setTask tid none).endProgress) t.state).symm.trans
            hcommitted
        rcases haware t result hlookup hphase hgives (AList.lookup_isSome.mp hactive) committed with
          htold | hpassed
        · rw [hstaged.task htold tid t ht] at hstage
          cases hstage
        · exact hpassed
      · exact taken
  | implausible hpid hnew sent => split <;> exact h
  | unconfirmed hactive hstage => split <;> exact h
  | restarted hactive htask hprogress hreleasing hcommitted hrecord hhistory hrestart =>
    unfold ProposalView.Spared
    rw [hhistory]
    exact h
  | _ => exact h

/-- In every run, restarts included, whose steps keep to `Aware`, no cancel is sent for a proposal
within its settle window once its allocation has committed. -/
theorem never_cancels_allocated {x₀ : SettlementExecutor D} (hstart : x₀.JustStarted)
    (hnew : x₀.history pid = .empty D)
    (run : Reachable (fun x e => x.Allowed e ∧ x.Aware e) apply x₀ x) :
    ∀ c ∈ (x.history pid).cancels, c.committed = true → c.settleWindowPassed = true := by
  have told : (x₀.view pid).history.told = false := congrArg ProposalHistory.told hnew
  have cancels : (x₀.view pid).history.cancels = [] := congrArg ProposalHistory.cancels hnew
  have base : (x₀.view pid).Spared := by
    intro c hc
    rw [cancels] at hc
    cases hc
  have inv : x.Orderly ∧ (x.view pid).Staged ∧ (x.view pid).Spared := by
    refine run.invariant (fun y => y.Orderly ∧ (y.view pid).Staged ∧ (y.view pid).Spared)
      ⟨hstart.orderly, .untold told, base⟩ fun y e inv hallowed => ?_
    obtain ⟨orderly, staged, spared⟩ := inv
    refine ⟨orderly_apply_any orderly e, ?_⟩
    rcases steps_apply pid orderly.numbered.free e (fun _ => hallowed.1) with same | step
    · rw [same]
      exact ⟨staged, spared⟩
    · exact ⟨staged_step (orderly.worked pid) rfl staged step, spared_step staged hallowed.2 spared step⟩
  exact inv.2.2

end SettlementExecutor

/-! ## An allocate call that times out -/

namespace SettlementExecutor

section Example

local instance cancellingCrates : SignatureCrates := signedCrates

/-- `purchase`, with a time from which its windows run. -/
def agedPurchase : SettlementProposal := { purchase with createdAt := some 0 }

/-- The counterparty has allocated, and the buyer is to. -/
def allocateDue : SettlementStatus where
  stage := 8
  buyerNextAction := 6
  sellerNextAction := 7
  dvpProcessingFeeBuyer := some stepConfirmed
  dvpProcessingFeeSeller := some stepConfirmed
  allocationProcessingFeeBuyer := some stepConfirmed
  allocationProcessingFeeSeller := some stepConfirmed
  allocationBuyer := none
  allocationSeller := some stepConfirmed
  settlement := none

/-- The purchase is adopted, and its allocate call is out. -/
def allocating : SettlementExecutor Int :=
  [.proposalCreated agedPurchase (quietFeed bidding), .contractFound "p" .dvp "d", .spawn "p" false,
    .beginStep 0, .answerStep 0 (.ok allocateDue) 100, .commitStep 0 0 noDigits, .latchStep 0,
    .actStep 0 (.ok "") 100].foldl apply bidding

/-- The allocation commits. The call reports it, or runs into its timeout. -/
def answered (answer : Except String String) : SettlementExecutor Int :=
  (allocating.apply (.allocationCommits "p")).apply (.allocateReturns 0 answer)

/-- The next task finds the allocation window passed. -/
def advancedLate (answer : Except String String) : SettlementExecutor Int :=
  ((((answered answer).apply (.collect 0 700)).apply (.spawn "p" false)).apply (.beginStep 1)).apply
    (.answerStep 1 (.ok allocateDue) 30000)

def gaveUp (answer : Except String String) : SettlementExecutor Int :=
  (advancedLate answer).apply (.collect 1 30000)

def timedOut : Except String String := .error "Allocate timed out after 600s"

theorem called_allocating : (allocating.history "p").called = true := by decide +kernel

theorem reachable_allocating :
    Reachable (fun x e => x.Allowed e ∧ x.Aware e) apply bidding allocating := by
  have notV2 (p : SettlementProposal) (f : ProposalFeed Int) : bidding.Aware (.proposalCreated p f) :=
    fun _ hrfq => Bool.noConfusion hrfq
  have plain : True ∧ True := ⟨trivial, trivial⟩
  exact Reachable.start.foldl
    ⟨⟨trivial, notV2 _ _⟩, plain, plain, plain, plain, plain, plain, plain, trivial⟩

/-- The purchase is given up for its allocation window and cancelled within its settle window, with
the allocation on the ledger. -/
theorem cancels_allocated :
    bidding.JustStarted ∧ bidding.history "p" = .empty Int ∧
      Reachable Allowed apply bidding (gaveUp timedOut) ∧
      ⟨false, true⟩ ∈ ((gaveUp timedOut).history "p").cancels := by
  refine ⟨⟨rfl, rfl, rfl⟩, rfl, ?_, by decide +kernel⟩
  have calling := reachable_allocating.mono fun _ _ h => h.1
  exact .step (.step (.step (.step (.step (.step (.step calling called_allocating) trivial) trivial)
    trivial) trivial) trivial) trivial

theorem never_cancels_allocated_told :
    ((gaveUp (.ok "a")).history "p").committed = true ∧
      ∀ c ∈ ((gaveUp (.ok "a")).history "p").cancels, c.committed = true →
        c.settleWindowPassed = true := by
  let reported := allocating.apply (.allocationCommits "p")
  have returns : reported.Allowed (.allocateReturns 0 (.ok "a")) := by
    intro t ht
    rw [proposalId_of_lookup "p" (by decide +kernel) ht]
    decide +kernel
  -- the result of the call is no failure
  have succeeded : (answered (.ok "a")).Aware (.collect 0 700) := by
    intro t result ht hphase hgives
    have finished : (answered (.ok "a")).tasks.lookup 0 = some ⟨"p",
        { SettlementState.new agedPurchase true with dvpCid := some "d" },
        .finished (.stepCompleted .allocated none none (some "a"))⟩ := rfl
    rw [finished] at ht
    obtain rfl := Option.some.inj ht
    obtain rfl := TaskPhase.finished.inj hphase
    cases hgives
  have told : (advancedLate (.ok "a")).Aware (.collect 1 30000) := by
    intro t result ht _ _ _ _
    rw [proposalId_of_lookup "p" (by decide +kernel) ht]
    exact .inl (by decide +kernel)
  have start : bidding.JustStarted := ⟨rfl, rfl, rfl⟩
  have plain : True ∧ True := ⟨trivial, trivial⟩
  have run : Reachable (fun x e => x.Allowed e ∧ x.Aware e) apply bidding (gaveUp (.ok "a")) :=
    .step (.step (.step (.step (.step (.step (.step reachable_allocating
      ⟨called_allocating, trivial⟩) ⟨returns, trivial⟩) ⟨trivial, succeeded⟩) plain) plain) plain)
        ⟨trivial, told⟩
  exact ⟨by decide +kernel, never_cancels_allocated start rfl run⟩

end Example

end SettlementExecutor

end BookAgent.AgentLogic
