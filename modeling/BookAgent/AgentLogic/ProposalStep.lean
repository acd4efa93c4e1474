import BookAgent.AgentLogic.AgreedTrades
import BookAgent.AgentLogic.ProposalView

/-!
# What an event does to one proposal

`ProposalStep` says once what an event may change of what is held of a proposal. Every
event either leaves a proposal as it is or takes one of these steps on it, so what is to
hold of each proposal in every state need only be checked against the steps.
-/

namespace BookAgent.AgentLogic

open BookAgent.Lib

/-! ## The result of a task -/

namespace ProposalView

variable {D : Type}

/-- `takeState`. -/
def take (v : ProposalView D) (final : SettlementState) : ProposalView D :=
  match v.active with
  | none => v.lose.release
  | some state => { v with active := some (SettlementExecutor.mergeState final state) }

def tell (v : ProposalView D) (result : AdvanceResult) : ProposalView D :=
  { v with history := { v.history with told := result.tells v.history.told } }

def isPreAllocation (v : ProposalView D) : Bool :=
  match v.active with
  | none => false
  | some state => isPreAllocationStage state.stage

/-- `giveUp`. -/
def giveUp (v : ProposalView D) (windowPassed : Bool) : ProposalView D :=
  let cancelled := if v.isPreAllocation then v.cancel windowPassed else v
  cancelled.release.lose.reject.deactivate

end ProposalView

/-- A failure that leaves no retries. -/
def SettlementExecutor.givesUp {D : Type} (x : SettlementExecutor D) (pid : String) :
    AdvanceResult → Bool
  | .error e => decide (x.config.maxRetries ≤ x.countError pid e)
  | .timeout => decide (x.config.maxRetries ≤ x.retryCount pid + 1)
  | _ => false

/-- What applying a result does to the view, once the state of the task is taken over. -/
inductive ResultStep {D : Type} (x : SettlementExecutor D) (pid : String) (now : Int)
    (final : SettlementState) (v : ProposalView D) : AdvanceResult → ProposalView D → Prop
  | kept {result : AdvanceResult} (f : SettlementState → SettlementState)
      (hresult : result ≠ .terminal ∧ result ≠ .rejected)
      (hstage : ∀ s, isPreAllocationStage (f s).stage = true →
        isPreAllocationStage s.stage = true ∨ ∀ told, result.tells told = false) :
      ResultStep x pid now final v result { v with active := v.active.map f }
  | rejected : ResultStep x pid now final v .rejected v.release.reject.deactivate
  | terminal (inflow : Option (String × String))
      (hinflow : inflow.isSome = true → v.active.isSome = true) :
      ResultStep x pid now final v .terminal (v.receive inflow).release.complete.deactivate
  | givenUp {result : AdvanceResult} (hgives : x.givesUp pid result = true) :
      ResultStep x pid now final v result
        (v.giveUp (x.config.settleWindowPassed final.proposal now))

/-! ## Steps -/

/-- Not met before, or forgotten. -/
def ProposalView.IsNew {D : Type} (v : ProposalView D) : Prop :=
  v.active = none ∧ ¬ v.completed ∧ ¬ v.rejected

/-- Phases a task is in without anything being owed to or taken from the proposal. -/
def TaskPhase.Plain : TaskPhase → Prop
  | .ready | .asking _ | .committing _ | .latching _ | .acting _ | .allocating => True
  | .recording _ | .refusing | .dropped => False
  | .finished result => result ≠ .terminal ∧ result ≠ .rejected

inductive ProposalStep {D : Type} [ValuedAmount D] [SignatureCrates] (x : SettlementExecutor D)
    (pid : String) : ExecutorEvent D → ProposalView D → Prop
  -- the proposal is handed in
  | settledBefore {p : SettlementProposal} {f : ProposalFeed D} (hpid : p.proposalId = pid)
      (hnew : (x.view pid).IsNew) (windowPassed : Bool) :
      ProposalStep x pid (.proposalCreated p f) ((x.view pid).noteSettled windowPassed).complete
  | refused {p : SettlementProposal} {f : ProposalFeed D} (hpid : p.proposalId = pid)
      (hnew : (x.view pid).IsNew) : ProposalStep x pid (.proposalCreated p f) (x.view pid).reject
  | implausible {p : SettlementProposal} {f : ProposalFeed D} (hpid : p.proposalId = pid)
      (hnew : (x.view pid).IsNew) (sent : Bool) :
      ProposalStep x pid (.proposalCreated p f)
        (if sent then (x.view pid).lose.release.reject else (x.view pid).lose.release)
  | aborted {p : SettlementProposal} {f : ProposalFeed D} {status : SettlementStatus}
      (hpid : p.proposalId = pid) (hnew : (x.view pid).IsNew)
      (hrfq : x.config.rfqV2Only = true) (hstatus : f.status = .ok status)
      (hleave : v1SettlementLeaveAlone status (x.config.isBuyer p) = false) (sent : Bool) :
      ProposalStep x pid (.proposalCreated p f)
        (if sent then ((x.view pid).cancel (x.config.settleWindowPassed p f.now)).lose.reject
          else (x.view pid).cancel (x.config.settleWindowPassed p f.now))
  | expired {p : SettlementProposal} {f : ProposalFeed D} (hpid : p.proposalId = pid)
      (hnew : (x.view pid).IsNew) :
      ProposalStep x pid (.proposalCreated p f) ((x.view pid).lose.reject.cancel true)
  | resumed {p : SettlementProposal} {f : ProposalFeed D} (hpid : p.proposalId = pid)
      (hnew : (x.view pid).IsNew) (hrecord : (x.view pid).record.isSome = true) :
      ProposalStep x pid (.proposalCreated p f)
        { x.view pid with
          active := some (.new p (x.config.isBuyer p))
          history := { (x.view pid).history with told := false } }
  | adopted {p : SettlementProposal} {f : ProposalFeed D} (hpid : p.proposalId = pid)
      (hnew : (x.view pid).IsNew) (hrecord : (x.view pid).record = none) (orderId : Nat)
      (throughOrder : Bool)
      (htracked : throughOrder = true →
        orderId ∈ f.trackerSeen.orders ∨
          orderId ∈ (x.handleProposalCreated p f).tracker.orders) :
      ProposalStep x pid (.proposalCreated p f)
        { x.view pid with
          active := some (.new p (x.config.isBuyer p))
          record := some ⟨orderId, Amount.parseOrZero p.baseQuantity, false⟩
          history := { (x.view pid).history with
            told := false
            adopted := if (x.view pid).history.closed then (x.view pid).history.adopted
              else if throughOrder then some (orderId, Amount.parseOrZero p.baseQuantity)
              else none } }
  -- the server reports its end
  | settled {p : SettlementProposal} {now : Int} (hpid : p.proposalId = pid)
      (inflow : Option (String × String))
      (hinflow : inflow.isSome = true → (x.view pid).active.isSome = true) :
      ProposalStep x pid (.settled p now)
        (((((((x.view pid).noteSettled (x.config.settleWindowPassed p now)).settle
          fun id => id ∈ x.tracker.orders).receive inflow).release).complete).deactivate).endProgress
  | ended : ProposalStep x pid (.ended pid)
      ((x.view pid).lose.release.reject.deactivate).endProgress
  | found {kind : ContractKind} {cid : String} {state : SettlementState}
      (hactive : (x.view pid).active = some state) :
      ProposalStep x pid (.contractFound pid kind cid)
        { x.view pid with active := some (SettlementExecutor.addContract state kind cid) }
  -- its tasks
  | spawned {fresh : Bool} {state : SettlementState} (hactive : (x.view pid).active = some state)
      (hprogress : ¬ (x.view pid).inProgress) :
      ProposalStep x pid (.spawn pid fresh)
        { (x.view pid).setTask x.nextTask (some ⟨pid, state, .ready⟩) with inProgress := True }
  | moved {e : ExecutorEvent D} {tid : Nat} {t : SettlementTask} {phase : TaskPhase}
      (ht : x.taskOf pid tid = some t) (hfrom : t.phase.Plain) (hto : phase.Plain) :
      ProposalStep x pid e ((x.view pid).setTask tid (some { t with phase := phase }))
  | called {e : ExecutorEvent D} {tid : Nat} {t : SettlementTask}
      (ht : x.taskOf pid tid = some t) (hfrom : t.phase.Plain) :
      ProposalStep x pid e
        { (x.view pid).setTask tid (some { t with phase := .allocating }) with
          history := { (x.view pid).history with called := true } }
  | readvanced {e : ExecutorEvent D} {tid : Nat} {t : SettlementTask} {state : SettlementState}
      (ht : x.taskOf pid tid = some t) (hfrom : t.phase.Plain) :
      ProposalStep x pid e
        { (x.view pid).setTask tid (some { t with state := state, phase := .ready }) with
          history := { (x.view pid).history with told := false } }
  | committed {e : ExecutorEvent D} {tid : Nat} {t : SettlementTask} {step : StepContext}
      (ht : x.taskOf pid tid = some t) (hfrom : t.phase.Plain) :
      ProposalStep x pid e
        { (x.view pid).setTask tid (some { t with phase := .latching step }) with committed := True }
  | latched {e : ExecutorEvent D} {tid : Nat} {t : SettlementTask} {step : StepContext}
      {entry : SettlementOrderEntry D} (ht : x.taskOf pid tid = some t)
      (hfrom : t.phase = .latching step) (hentry : (x.view pid).record = some entry)
      (hreserved : entry.reserved = false) :
      ProposalStep x pid e
        { (x.view pid).setTask tid (some { t with
            phase := if (x.view pid).managed then .recording step else .acting step }) with
          record := some { entry with reserved := true }
          history := { (x.view pid).history with reserved := true } }
  | recorded {e : ExecutorEvent D} {tid : Nat} {t : SettlementTask} {step : StepContext}
      (ht : x.taskOf pid tid = some t) (hfrom : t.phase = .recording step)
      (outflow : String × D) :
      ProposalStep x pid e
        { (x.view pid).setTask tid (some { t with phase := .acting step }) with
          history := { (x.view pid).history with
            outflows := outflow :: (x.view pid).history.outflows } }
  | refusing {e : ExecutorEvent D} {tid : Nat} {t : SettlementTask}
      (ht : x.taskOf pid tid = some t) (hfrom : t.phase.Plain) :
      ProposalStep x pid e ((x.view pid).lose.setTask tid (some { t with phase := .refusing }))
  | refusalSent {e : ExecutorEvent D} {tid : Nat} {t : SettlementTask}
      (ht : x.taskOf pid tid = some t) (hfrom : t.phase = .refusing) :
      ProposalStep x pid e
        ((x.view pid).setTask tid (some { t with phase := .finished .rejected }))
  | foundSettled {tid : Nat} {answer : Except String String} {now : Int} {t : SettlementTask}
      {step : StepContext} (ht : x.taskOf pid tid = some t) (hfrom : t.phase = .acting step)
      (hstatus : step.status.stage = stageSettled) :
      ProposalStep x pid (.actStep tid answer now)
        ((((x.view pid).noteSettled (x.config.settleWindowPassed t.state.proposal now)).settle
          fun id => id ∈ x.tracker.orders).setTask tid
            (some { t with phase := .finished .terminal }))
  | foundEnded {tid : Nat} {answer : Except String String} {now : Int} {t : SettlementTask}
      {step : StepContext} (ht : x.taskOf pid tid = some t) (hfrom : t.phase = .acting step)
      (hstatus : step.status.stage ≠ stageSettled) :
      ProposalStep x pid (.actStep tid answer now)
        ((x.view pid).lose.setTask tid (some { t with phase := .finished .terminal }))
  | dropped {tid : Nat} {t : SettlementTask} (ht : x.taskOf pid tid = some t)
      (hfrom : ∀ result, t.phase ≠ .finished result) :
      ProposalStep x pid (.dropTask tid)
        ((x.view pid).setTask tid (some { t with phase := .dropped }))
  -- their results
  | collected {tid : Nat} {now : Int} {t : SettlementTask} {result : AdvanceResult}
      {v : ProposalView D} (ht : x.taskOf pid tid = some t) (hphase : t.phase = .finished result)
      (hresult : ResultStep x pid now t.state
        (((((x.view pid).setTask tid none).endProgress).take t.state).tell result) result v) :
      ProposalStep x pid (.collect tid now) v
  | collectedDropped {tid : Nat} {now : Int} {t : SettlementTask} (ht : x.taskOf pid tid = some t)
      (hphase : t.phase = .dropped) :
      ProposalStep x pid (.collect tid now) ((x.view pid).setTask tid none).endProgress
  -- and the rest
  | released {releasing : Prop} (hreleasing : (x.view pid).releasing) :
      ProposalStep x pid (.runRelease pid)
        { x.view pid with releasing := releasing, committed := False }
  | allocation : ProposalStep x pid (.allocationCommits pid)
      { x.view pid with history := { (x.view pid).history with committed := true } }
  | unconfirmed {sent : Bool} {state : SettlementState} (hactive : (x.view pid).active = some state)
      (hstage : state.stage = .proposalReceived) :
      ProposalStep x pid (.rejectUnconfirmed pid sent)
        (if sent then (x.view pid).release.lose.reject.deactivate
          else (x.view pid).release.lose.deactivate)
  | reconciled {liveIds : List String} :
      ProposalStep x pid (.reconcile liveIds) { x.view pid with committed := False }
  | restarted {e : ExecutorEvent D} {v : ProposalView D} (hactive : v.active = none)
      (htask : ∀ tid, v.task tid = none) (hprogress : ¬ v.inProgress) (hreleasing : ¬ v.releasing)
      (hcommitted : ¬ v.committed)
      (hrecord : v.record = (x.view pid).record.map fun e =>
        { e with quantity := Amount.parseOrZero (Amount.print e.quantity) })
      (hhistory : v.history = { (x.view pid).history with told := false })
      (hrestart : e.isRestart = true) : ProposalStep x pid e v

namespace SettlementExecutor

variable {D : Type} [ValuedAmount D] [SignatureCrates] {x : SettlementExecutor D} {pid : String}

/-- The event leaves what is held of the proposal, or takes a step on it. -/
def Steps (x : SettlementExecutor D) (pid : String) (e : ExecutorEvent D) (y : SettlementExecutor D) :
    Prop :=
  y.view pid = x.view pid ∨ ProposalStep x pid e (y.view pid)

/-! ## Handing a proposal in -/

omit [ValuedAmount D] [SignatureCrates] in
theorem isNew_iff : (x.view pid).IsNew ↔
    ¬ (pid ∈ x.activeSettlements ∨ pid ∈ x.completedProposals ∨ pid ∈ x.rejectedProposals) := by
  unfold ProposalView.IsNew view
  rw [AList.lookup_eq_none, not_or, not_or]

omit [ValuedAmount D] [SignatureCrates] in
theorem view_rejectProposal (hactive : (x.view pid).active = none) {sent : Bool} :
    (x.rejectProposal pid sent).view pid = if sent then (x.view pid).reject else x.view pid := by
  unfold rejectProposal
  cases sent with
  | false => rfl
  | true =>
    simp only [if_true, view_deactivate, view_reject]
    unfold ProposalView.deactivate ProposalView.reject
    rw [hactive]

omit [ValuedAmount D] [SignatureCrates] in
theorem view_rejectProposal_ne {q : String} (h : pid ≠ q) {sent : Bool} :
    (x.rejectProposal q sent).view pid = x.view pid := by
  unfold rejectProposal
  split
  · rw [view_deactivate_ne h, view_reject_ne h]
  · rfl

omit [SignatureCrates] in
theorem view_adopt {p : SettlementProposal} {id : Nat} {through : Bool}
    (hrecord : (x.view p.proposalId).record = none) :
    (x.adopt p id through).view p.proposalId
      = { x.view p.proposalId with
          active := some (.new p (x.config.isBuyer p))
          record := some ⟨id, Amount.parseOrZero p.baseQuantity, false⟩
          history := { (x.view p.proposalId).history with
            told := false
            adopted := if (x.view p.proposalId).history.closed then
                (x.view p.proposalId).history.adopted
              else if through then some (id, Amount.parseOrZero p.baseQuantity)
              else none } } := by
  have record : (x.adopt p id through).tracker.settlementOrders.lookup p.proposalId
      = some ⟨id, Amount.parseOrZero p.baseQuantity, false⟩ := lookup_settlementOrders_adopt hrecord
  unfold view
  rw [record]
  unfold adopt
  simp only [note, hasCommitment, AList.lookup_insert, Function.update_self]
  rfl

omit [SignatureCrates] in
theorem view_adopt_ne {p : SettlementProposal} {id : Nat} {through : Bool}
    (h : pid ≠ p.proposalId) : (x.adopt p id through).view pid = x.view pid := by
  refine view_congr (AList.lookup_insert_ne h) Iff.rfl Iff.rfl Iff.rfl ?_ rfl Iff.rfl Iff.rfl
    (fun _ => rfl) (Function.update_of_ne h _ _)
  change (x.tracker.recordSettlementOrder p.proposalId id _).settlementOrders.lookup pid = _
  unfold OrderTracker.recordSettlementOrder
  split
  · rfl
  · exact AList.lookup_insert_ne h

omit [SignatureCrates] [ValuedAmount D] in
/-- The checks of the terms consult the trades and the tracker, and keep what is held of
any proposal. -/
theorem view_verifyRfqProposal {p : SettlementProposal} :
    (x.verifyRfqProposal p).2.view pid = x.view pid := by
  unfold verifyRfqProposal
  split
  · rfl
  · split
    · rfl
    · split <;> rfl

theorem view_verifyOrderProposal {p : SettlementProposal} {f : ProposalFeed D} :
    (x.verifyOrderProposal p f).2.view pid = x.view pid := by
  unfold verifyOrderProposal
  split
  · rfl
  · rfl
  · rfl
  · dsimp only
    have same : view { x with tracker :=
        (verifyUserOrder x.tracker p x.config.partyId ‹Nat› f).2 } pid = x.view pid :=
      view_congr rfl Iff.rfl Iff.rfl Iff.rfl (by rw [settlementOrders_verifyUserOrder]) rfl
        Iff.rfl Iff.rfl (fun _ => rfl) rfl
    split <;> exact same

/-- An order that is accepted was tracked when it was verified. -/
theorem tracked_of_accepted {p : SettlementProposal} {f : ProposalFeed D} {id : Nat}
    (h : (x.verifyOrderProposal p f).1 = .accepted id) :
    id ∈ f.trackerSeen.orders ∨ id ∈ (x.verifyOrderProposal p f).2.tracker.orders := by
  unfold verifyOrderProposal at h ⊢
  cases hseen : f.trackerSeen.verifySettlement p x.config.partyId f.instant with
  | accepted found =>
    rw [hseen] at h
    cases h
    obtain ⟨-, order, horder, -⟩ := OrderTracker.verifySettlement_accepted hseen
    exact .inl (Pool.mem_iff_lookup.mpr ⟨order, horder⟩)
  | rejected reason =>
    rw [hseen] at h
    cases h
  | placementInFlight found =>
    rw [hseen] at h
    cases h
  | needServerLookup found =>
    rw [hseen] at h
    obtain ⟨hfound, -⟩ := OrderTracker.verifySettlement_lookup hseen
    dsimp only at h ⊢
    cases huser : verifyUserOrder x.tracker p x.config.partyId found f with
    | mk verdict t =>
      rw [huser] at h
      cases verdict with
      | verified other =>
        cases h
        have hverdict : (verifyUserOrder x.tracker p x.config.partyId found f).1 = .verified id :=
          congrArg Prod.fst huser
        obtain ⟨rfl, order, horder, -⟩ := verifyUserOrder_verified hverdict hfound
        rw [huser] at horder
        exact .inr (Pool.mem_iff_lookup.mpr ⟨order, horder⟩)
      | rejected => cases h
      | lookupFailed => cases h

theorem view_handleProposalCreated_ne {p : SettlementProposal} {f : ProposalFeed D}
    (h : pid ≠ p.proposalId) : (x.handleProposalCreated p f).view pid = x.view pid := by
  have terms : (x.checkTerms p f).view pid = x.view pid := by
    unfold checkTerms
    split
    · have kept : (x.verifyRfqProposal p).2.view pid = x.view pid := view_verifyRfqProposal
      split <;> rename_i heq <;> rw [heq] at kept
      · rw [view_rejectProposal_ne h, kept]
      · rw [view_adopt_ne h, kept]
    · have kept : (x.verifyOrderProposal p f).2.view pid = x.view pid := view_verifyOrderProposal
      split <;> rename_i heq <;> rw [heq] at kept
      · rw [view_adopt_ne h, kept]
      · rw [view_rejectProposal_ne h, kept]
      · exact kept
  have vetted : (x.vet p f).view pid = x.view pid := by
    unfold vet
    dsimp only
    split_ifs
    · exact view_rejectProposal_ne h
    · exact view_rejectProposal_ne h
    · split
      · rfl
      · exact view_rejectProposal_ne h
      · exact terms
  have aborted : (x.abortV1Settlement p f).view pid = x.view pid := by
    unfold abortV1Settlement
    split
    · rfl
    · split
      · exact view_reject_ne h
      · unfold notifyServerCancel
        dsimp only
        split
        · rw [view_reject_ne h, view_markFailed_ne h, view_note_ne h]
        · exact view_note_ne h
        · exact view_note_ne h
  have resumed : (x.resume p f.now).view pid = x.view pid := by
    unfold resume notifyServerCancel
    split
    · rw [view_note_ne h, view_reject_ne h, view_markFailed_ne h]
    · exact (view_setActive_ne h).trans (view_note_ne h)
  unfold handleProposalCreated
  dsimp only
  split_ifs
  · rfl
  · unfold noteSettled
    rw [view_complete_ne h, view_note_ne h]
  · rfl
  · rw [view_rejectProposal_ne h, view_releaseCommitment_ne h, view_markFailed_ne h]
  · exact aborted
  · exact resumed
  · exact view_adopt_ne h
  · exact vetted

/-! A proposal that is not met yet. -/

section New

variable {p : SettlementProposal} {f : ProposalFeed D} (hnew : (x.view p.proposalId).IsNew)
include hnew

theorem steps_refuse : x.Steps p.proposalId (.proposalCreated p f)
    (x.rejectProposal p.proposalId f.rejectSent) := by
  unfold Steps
  rw [view_rejectProposal hnew.1]
  split
  · exact .inr (.refused rfl hnew)
  · exact .inl rfl

theorem steps_abort (hrfq : x.config.rfqV2Only = true) :
    x.Steps p.proposalId (.proposalCreated p f) (x.abortV1Settlement p f) := by
  unfold abortV1Settlement
  split
  · exact .inl rfl
  · rename_i status hstatus
    split_ifs with hleave
    · refine .inr ?_
      rw [view_reject]
      exact .refused rfl hnew
    · have hleave : v1SettlementLeaveAlone status (x.config.isBuyer p) = false :=
        Bool.not_eq_true _ ▸ hleave
      refine .inr ?_
      dsimp only
      split
      · rw [view_reject, view_markFailed]
        unfold notifyServerCancel
        rw [view_note]
        exact .aborted rfl hnew hrfq hstatus hleave true
      all_goals
        unfold notifyServerCancel
        rw [view_note]
        exact .aborted rfl hnew hrfq hstatus hleave false

theorem steps_resume (hrecord : x.tracker.hasSettlementOrder p.proposalId = true) :
    x.Steps p.proposalId (.proposalCreated p f) (x.resume p f.now) := by
  refine .inr ?_
  unfold resume
  split_ifs with hpassed
  · unfold notifyServerCancel
    rw [view_note, view_reject, view_markFailed]
    have hconfig : ((x.markFailed p.proposalId).reject p.proposalId).config.settleWindowPassed p f.now
        = true := hpassed
    rw [hconfig]
    exact .expired rfl hnew
  · let y := x.note p.proposalId fun h => { h with told := false }
    let state := SettlementState.new p (x.config.isBuyer p)
    have active :
        { y with activeSettlements := y.activeSettlements.insert p.proposalId state }.view p.proposalId
          = { y.view p.proposalId with active := some state } := view_setActive
    rw [view_note] at active
    have step := ProposalStep.resumed (f := f) rfl hnew
      (AList.lookup_isSome.mpr (of_decide_eq_true hrecord))
    rw [← active] at step
    exact step

theorem steps_adopt (hrecord : x.tracker.hasSettlementOrder p.proposalId = false) {y z : SettlementExecutor D}
    {id : Nat} {through : Bool} (hy : y.view p.proposalId = x.view p.proposalId)
    (hconfig : y.config = x.config) (hz : z = y.adopt p id through)
    (htracked : through = true → id ∈ f.trackerSeen.orders ∨
      id ∈ (x.handleProposalCreated p f).tracker.orders) :
    x.Steps p.proposalId (.proposalCreated p f) z := by
  have unrecorded : (x.view p.proposalId).record = none :=
    AList.lookup_eq_none.mpr (of_decide_eq_false hrecord)
  refine .inr ?_
  rw [hz, view_adopt (hy ▸ unrecorded), hy, hconfig]
  exact .adopted rfl hnew unrecorded id through htracked

end New

omit [SignatureCrates] in
theorem orders_adopt {p : SettlementProposal} {id : Nat} {through : Bool} :
    (x.adopt p id through).tracker.orders = x.tracker.orders := by
  change (x.tracker.recordSettlementOrder p.proposalId id _).orders = _
  unfold OrderTracker.recordSettlementOrder
  split <;> rfl

theorem config_verifyOrderProposal {p : SettlementProposal} {f : ProposalFeed D} :
    (x.verifyOrderProposal p f).2.config = x.config := by
  unfold verifyOrderProposal
  split
  · rfl
  · rfl
  · rfl
  · dsimp only
    split <;> rfl

omit [SignatureCrates] [ValuedAmount D] in
theorem config_verifyRfqProposal {p : SettlementProposal} :
    (x.verifyRfqProposal p).2.config = x.config := by
  unfold verifyRfqProposal
  split
  · rfl
  · split
    · rfl
    · split <;> rfl

theorem steps_checkTerms {p : SettlementProposal} {f : ProposalFeed D}
    (hnew : (x.view p.proposalId).IsNew)
    (hrecord : x.tracker.hasSettlementOrder p.proposalId = false)
    (hterms : x.handleProposalCreated p f = x.checkTerms p f) :
    x.Steps p.proposalId (.proposalCreated p f) (x.checkTerms p f) := by
  have refused (y : SettlementExecutor D) (hy : y.view p.proposalId = x.view p.proposalId) :
      x.Steps p.proposalId (.proposalCreated p f) (y.rejectProposal p.proposalId f.rejectSent) := by
    have step := steps_refuse (f := f) hnew
    unfold Steps at step ⊢
    rw [view_rejectProposal hnew.1] at step
    rw [view_rejectProposal (hy ▸ hnew.1), hy]
    exact step
  cases hmatch : p.orderMatch with
  | none =>
    have kept : (x.verifyRfqProposal p).2.view p.proposalId = x.view p.proposalId :=
      view_verifyRfqProposal
    have config := config_verifyRfqProposal (x := x) (p := p)
    cases hverify : x.verifyRfqProposal p with
    | mk verified y =>
      rw [hverify] at kept config
      cases verified with
      | false =>
        have hcheck : x.checkTerms p f = y.rejectProposal p.proposalId f.rejectSent := by
          unfold checkTerms
          rw [hmatch, hverify]
        rw [hcheck]
        exact refused y kept
      | true =>
        have hcheck : x.checkTerms p f = y.adopt p 0 false := by
          unfold checkTerms
          rw [hmatch, hverify]
        exact steps_adopt hnew hrecord kept config hcheck fun h => by cases h
  | some om =>
    have kept : (x.verifyOrderProposal p f).2.view p.proposalId = x.view p.proposalId :=
      view_verifyOrderProposal
    have config := config_verifyOrderProposal (x := x) (p := p) (f := f)
    cases hverify : x.verifyOrderProposal p f with
    | mk verdict y =>
      rw [hverify] at kept config
      cases verdict with
      | accepted id =>
        have hcheck : x.checkTerms p f = y.adopt p id true := by
          unfold checkTerms
          rw [hmatch, hverify]
        refine steps_adopt hnew hrecord kept config hcheck fun _ => ?_
        have tracked := tracked_of_accepted (congrArg Prod.fst hverify)
        rw [hterms, hcheck, orders_adopt]
        rw [hverify] at tracked
        exact tracked
      | rejected =>
        have hcheck : x.checkTerms p f = y.rejectProposal p.proposalId f.rejectSent := by
          unfold checkTerms
          rw [hmatch, hverify]
        rw [hcheck]
        exact refused y kept
      | held =>
        have hcheck : x.checkTerms p f = y := by
          unfold checkTerms
          rw [hmatch, hverify]
        rw [hcheck]
        exact .inl kept

theorem steps_vet {p : SettlementProposal} {f : ProposalFeed D}
    (hnew : (x.view p.proposalId).IsNew)
    (hrecord : x.tracker.hasSettlementOrder p.proposalId = false)
    (hvet : x.handleProposalCreated p f = x.vet p f) :
    x.Steps p.proposalId (.proposalCreated p f) (x.vet p f) := by
  unfold vet at hvet ⊢
  dsimp only at hvet ⊢
  split_ifs at hvet ⊢ with hdown hfull
  · exact steps_refuse hnew
  · exact steps_refuse hnew
  · split at hvet
    · exact .inl rfl
    · exact steps_refuse hnew
    · exact steps_checkTerms hnew hrecord hvet

/-- A proposal is handed in: it is not met yet, or nothing happens. -/
theorem steps_proposalCreated (p : SettlementProposal) (f : ProposalFeed D) :
    x.Steps pid (.proposalCreated p f) (x.handleProposalCreated p f) := by
  by_cases hpid : p.proposalId = pid
  case neg => exact .inl (view_handleProposalCreated_ne (Ne.symm hpid))
  subst hpid
  generalize hy : x.handleProposalCreated p f = y
  have hhandle := hy
  unfold handleProposalCreated at hy
  dsimp only at hy
  split_ifs at hy with hmet hsettled hours himplausible hrfq hrecorded hfree
  · exact .inl (by rw [← hy])
  all_goals
    have hnew : (x.view p.proposalId).IsNew := isNew_iff.mpr hmet
    rw [← hy] at hhandle ⊢
  · refine .inr ?_
    rw [view_complete]
    unfold noteSettled
    rw [view_note]
    exact .settledBefore rfl hnew _
  · exact .inl rfl
  · have step := ProposalStep.implausible (p := p) (f := f) rfl hnew f.rejectSent
    refine .inr ?_
    have inactive : (((x.markFailed p.proposalId).releaseCommitment p.proposalId).view
        p.proposalId).active = none := by
      rw [view_releaseCommitment, view_markFailed]
      exact hnew.1
    rw [view_rejectProposal inactive, view_releaseCommitment, view_markFailed]
    exact step
  · exact steps_abort hnew hrfq
  · exact steps_resume hnew hrecorded
  · exact steps_adopt hnew (Bool.not_eq_true _ ▸ hrecorded) rfl rfl rfl fun h => by cases h
  · exact steps_vet hnew (Bool.not_eq_true _ ▸ hrecorded) hhandle

/-! ## The steps of a task -/

section Task

variable {tid : Nat} {t : SettlementTask} {e : ExecutorEvent D}

omit [SignatureCrates] [ValuedAmount D] in
theorem taskOf_own (ht : x.tasks.lookup tid = some t) : x.taskOf t.proposalId tid = some t :=
  taskOf_eq_some.mpr ⟨ht, rfl⟩

omit [SignatureCrates] [ValuedAmount D] in
theorem taskOf_other (ht : x.tasks.lookup tid = some t) (hpid : t.proposalId ≠ pid) :
    x.taskOf pid tid = none := by
  rw [Option.eq_none_iff_forall_ne_some]
  intro t' ht'
  obtain ⟨hlookup, hown⟩ := taskOf_eq_some.mp ht'
  rw [ht] at hlookup
  obtain rfl := Option.some.inj hlookup
  exact hpid hown

omit [SignatureCrates] [ValuedAmount D] in
/-- A task of another proposal is written, and nothing else held of this one changed. -/
theorem view_setTask_other {y : SettlementExecutor D} {task : SettlementTask}
    (ht : x.tasks.lookup tid = some t) (hpid : t.proposalId ≠ pid) (hy : y.view pid = x.view pid)
    (htask : task.proposalId = t.proposalId) : (y.setTask tid task).view pid = x.view pid := by
  have free : y.taskOf pid tid = none := by
    have same : y.taskOf pid = x.taskOf pid := congrArg ProposalView.task hy
    rw [same]
    exact taskOf_other ht hpid
  rw [view_setTask_ne (htask ▸ hpid) free, hy]

theorem steps_setPhase {phase : TaskPhase} (ht : x.tasks.lookup tid = some t)
    (hfrom : t.phase.Plain) (hto : phase.Plain) : x.Steps pid e (x.setPhase tid t phase) := by
  by_cases hpid : t.proposalId = pid
  · subst hpid
    refine .inr ?_
    unfold setPhase
    rw [view_setTask rfl]
    exact .moved (taskOf_own ht) hfrom hto
  · exact .inl (view_setTask_ne hpid (taskOf_other ht hpid))

/-- The end of a step: an allocation, the next step, or a result other than the two that
end the proposal. -/
theorem steps_endStep {result : AdvanceResult} (ht : x.tasks.lookup tid = some t)
    (hfrom : t.phase.Plain) (hresult : result ≠ .terminal ∧ result ≠ .rejected) :
    x.Steps pid e (x.endStep tid t result) := by
  have readvanced : x.Steps pid e ((x.note t.proposalId fun h => { h with told := false }).setTask tid
      { t with state := result.applyToState t.state, phase := .ready }) := by
    by_cases hpid : t.proposalId = pid
    · subst hpid
      refine .inr ?_
      rw [view_setTask rfl, view_note]
      exact .readvanced (taskOf_own ht) hfrom
    · exact .inl (view_setTask_other ht hpid (view_note_ne (Ne.symm hpid)) rfl)
  have called : x.Steps pid e
      ((x.note t.proposalId fun h => { h with called := true }).setPhase tid t .allocating) := by
    by_cases hpid : t.proposalId = pid
    · subst hpid
      refine .inr ?_
      unfold setPhase
      rw [view_setTask rfl, view_note]
      exact .called (taskOf_own ht) hfrom
    · exact .inl (view_setTask_other ht hpid (view_note_ne (Ne.symm hpid)) rfl)
  unfold endStep
  split
  · exact called
  · split
    · exact readvanced
    · exact steps_setPhase ht hfrom hresult

theorem steps_beginStep : x.Steps pid e (x.beginStep tid) := by
  unfold beginStep
  split
  · rename_i ht
    exact steps_setPhase ht trivial trivial
  · exact .inl rfl

theorem steps_answerStep (answer : Except String SettlementStatus) (now : Int) :
    x.Steps pid e (x.answerStep tid answer now) := by
  unfold answerStep
  split
  · rename_i ht
    dsimp only
    split
    · exact steps_endStep ht trivial ⟨nofun, nofun⟩
    · split
      · exact steps_endStep ht trivial ⟨nofun, nofun⟩
      · split
        · exact steps_setPhase ht trivial trivial
        · exact steps_setPhase ht trivial trivial
  · exact .inl rfl

omit [SignatureCrates] [ValuedAmount D] in
/-- The liquidity manager takes a commitment for one proposal. -/
theorem view_commit {lm lm' : LiquidityManager} {q other token : String} {amount feeCc : ℚ}
    (hlm : x.liquidityManager = some lm) (hcommit : lm.tryCommit q token amount feeCc = .ok lm') :
    view { x with liquidityManager := some lm' } other
      = { x.view other with committed := other = q ∨ (x.view other).committed } := by
  obtain ⟨-, rfl⟩ := LiquidityManager.tryCommit_ok hcommit
  unfold view hasCommitment
  dsimp only
  rw [hlm]
  simp only [Option.some.injEq, exists_eq_left', Option.isSome_some]
  by_cases hq : other = q
  · subst hq
    simp only [LiquidityManager.hasCommitment_commit, true_or]
    rfl
  · rw [LiquidityManager.hasCommitment_commit_ne hq]
    simp only [hq, false_or]
    rfl

theorem steps_commitStep (feeCc : ℚ) (fixed4 : ℚ → String) :
    x.Steps pid e (x.commitStep tid feeCc fixed4) := by
  unfold commitStep
  split
  case h_2 => exact .inl rfl
  rename_i q state step ht
  dsimp only
  split
  · exact steps_setPhase ht trivial trivial
  · rename_i lm hlm
    split
    · exact steps_setPhase ht trivial trivial
    · split
      · exact steps_endStep ht trivial ⟨nofun, nofun⟩
      · rename_i lm' hcommit
        have committed (other : String) : view { x with liquidityManager := some lm' } other
            = { x.view other with committed := other = q ∨ (x.view other).committed } :=
          view_commit hlm hcommit
        by_cases hpid : q = pid
        · subst hpid
          refine .inr ?_
          unfold setPhase
          rw [view_setTask rfl, committed]
          simp only [true_or]
          exact .committed (taskOf_own ht) trivial
        · refine .inl (view_setTask_other ht hpid ?_ rfl)
          rw [committed]
          simp only [Ne.symm hpid, false_or]

omit [SignatureCrates] in
/-- A reservation that succeeds latches the record of its proposal, and only that. -/
theorem tryReservePending_ok {tracker tracker' : OrderTracker D} {q : String}
    (h : tracker.tryReservePending q = (.ok true, tracker')) :
    ∃ entry, tracker.settlementOrders.lookup q = some entry ∧ entry.reserved = false ∧
      tracker'.settlementOrders = tracker.settlementOrders.insert q { entry with reserved := true } := by
  unfold OrderTracker.tryReservePending at h
  split at h
  · cases h
  · rename_i entry hentry
    split at h
    · cases h
    · rename_i hreserved
      split at h
      · cases h
      · obtain rfl := (Prod.mk.inj h).2
        refine ⟨entry, hentry, Bool.not_eq_true _ ▸ hreserved, ?_⟩
        unfold OrderTracker.reserveEntry
        rw [OrderTracker.settlementOrders_modifyOrder]

theorem steps_latchStep : x.Steps pid e (x.latchStep tid) := by
  unfold latchStep
  split
  case h_2 => exact .inl rfl
  rename_i q state step ht
  dsimp only
  split
  · exact steps_endStep ht trivial ⟨nofun, nofun⟩
  · exact steps_setPhase ht trivial trivial
  · rename_i tracker' hreserve
    obtain ⟨entry, hentry, hreserved, hrecords⟩ := tryReservePending_ok hreserve
    by_cases hpid : q = pid
    · subst hpid
      have latched : view { x.note q fun h => { h with reserved := true } with tracker := tracker' } q
          = { x.view q with
              record := some { entry with reserved := true }
              history := { (x.view q).history with reserved := true } } := by
        simp only [view, hrecords, AList.lookup_insert, note, hasCommitment, Function.update_self]
        rfl
      have step := ProposalStep.latched (e := e) (taskOf_own ht) rfl hentry hreserved
      refine .inr ?_
      unfold setPhase
      split <;> rename_i hlm
      · rw [view_setTask rfl, latched]
        rw [if_pos (show (x.view q).managed = true from hlm)] at step
        exact step
      · rw [view_setTask rfl, latched]
        rw [if_neg (show ¬ (x.view q).managed = true from hlm)] at step
        exact step
    · have kept : view { x.note q fun h => { h with reserved := true } with tracker := tracker' } pid
          = x.view pid := by
        refine view_congr rfl Iff.rfl Iff.rfl Iff.rfl ?_ rfl Iff.rfl Iff.rfl (fun _ => rfl)
          (Function.update_of_ne (Ne.symm hpid) _ _)
        rw [hrecords]
        exact AList.lookup_insert_ne (Ne.symm hpid)
      split
      · exact .inl (view_setTask_other ht hpid kept rfl)
      · exact .inl (view_setTask_other ht hpid kept rfl)

theorem steps_recordStep : x.Steps pid e (x.recordStep tid) := by
  unfold recordStep
  split
  case h_2 => exact .inl rfl
  rename_i q state step ht
  dsimp only
  by_cases hpid : q = pid
  · subst hpid
    refine .inr ?_
    unfold setPhase
    rw [view_setTask rfl, view_note]
    exact .recorded (taskOf_own ht) rfl _
  · exact .inl (view_setTask_other ht hpid (view_note_ne (Ne.symm hpid)) rfl)

theorem steps_actStep (answer : Except String String) (now : Int) :
    x.Steps pid (.actStep tid answer now) (x.actStep tid answer now) := by
  unfold actStep
  split
  case h_2 => exact .inl rfl
  rename_i q state step ht
  dsimp only
  split
  · split
    · by_cases hpid : q = pid
      · subst hpid
        refine .inr ?_
        unfold setPhase
        rw [view_setTask rfl, view_markFailed]
        exact .refusing (taskOf_own ht) trivial
      · exact .inl (view_setTask_other ht hpid (view_markFailed_ne (Ne.symm hpid)) rfl)
    · split <;> exact steps_endStep ht trivial ⟨nofun, nofun⟩
  · exact steps_endStep ht trivial ⟨nofun, nofun⟩
  · split <;> exact steps_endStep ht trivial ⟨nofun, nofun⟩
  · split
    · exact steps_endStep ht trivial ⟨nofun, nofun⟩
    · split <;> exact steps_endStep ht trivial ⟨nofun, nofun⟩
  · exact steps_endStep ht trivial ⟨nofun, nofun⟩
  · split
    · exact steps_endStep ht trivial ⟨nofun, nofun⟩
    · split <;> exact steps_endStep ht trivial ⟨nofun, nofun⟩
  · exact steps_endStep ht trivial ⟨nofun, nofun⟩
  · exact steps_endStep ht trivial ⟨nofun, nofun⟩
  · split <;> rename_i hstage
    · by_cases hpid : q = pid
      · subst hpid
        refine .inr ?_
        change ProposalStep x q _ ((setPhase _ tid _ (.finished .terminal)).view q)
        unfold setPhase noteSettled
        rw [view_setTask rfl, view_markSettled, view_note]
        exact .foundSettled (taskOf_own ht) rfl hstage
      · have kept : ((x.noteSettled { state.proposal with proposalId := q } now).markSettled q).view pid
            = x.view pid :=
          (view_markSettled_ne (Ne.symm hpid)).trans (view_note_ne (Ne.symm hpid))
        exact .inl (view_setTask_other ht hpid kept rfl)
    · by_cases hpid : q = pid
      · subst hpid
        refine .inr ?_
        change ProposalStep x q _ ((setPhase _ tid _ (.finished .terminal)).view q)
        unfold setPhase
        rw [view_setTask rfl, view_markFailed]
        exact .foundEnded (taskOf_own ht) rfl hstage
      · exact .inl (view_setTask_other ht hpid (view_markFailed_ne (Ne.symm hpid)) rfl)

theorem steps_refuseStep : x.Steps pid e (x.refuseStep tid) := by
  unfold refuseStep
  split
  case h_2 => exact .inl rfl
  rename_i q state ht
  by_cases hpid : q = pid
  · subst hpid
    refine .inr ?_
    unfold setPhase
    rw [view_setTask rfl]
    exact .refusalSent (taskOf_own ht) rfl
  · exact .inl (view_setTask_other ht hpid rfl rfl)

theorem steps_allocateReturns (answer : Except String String) :
    x.Steps pid e (x.allocateReturns tid answer) := by
  unfold allocateReturns
  split
  case h_2 => exact .inl rfl
  rename_i q state ht
  dsimp only
  split <;> exact steps_setPhase ht trivial ⟨nofun, nofun⟩

theorem steps_dropTask : x.Steps pid (.dropTask tid) (x.dropTask tid) := by
  unfold dropTask
  split
  · exact .inl rfl
  · exact .inl rfl
  · rename_i t hdone ht
    by_cases hpid : t.proposalId = pid
    · subst hpid
      refine .inr ?_
      unfold setPhase
      rw [view_setTask rfl]
      refine .dropped (taskOf_own ht) fun result hresult => ?_
      obtain ⟨q, state, phase⟩ := t
      obtain rfl : phase = .finished result := hresult
      exact hdone _ _ _ rfl
    · exact .inl (view_setTask_other ht hpid rfl rfl)

theorem steps_readvance (q : String) : x.Steps pid (.readvance q) (x.readvance q) := by
  unfold readvance
  split <;> exact .inl rfl

theorem steps_spawnTask {fresh : Bool} (hfree : x.tasks.lookup x.nextTask = none) (q : String) :
    x.Steps pid (.spawn q fresh) (x.spawnTask q fresh) := by
  unfold spawnTask
  split
  · exact .inl rfl
  · rename_i state hactive
    split
    · exact .inl rfl
    · rename_i hprogress
      have written : { (if fresh then x.clearFailed q else x) with
            tasks := (if fresh then x.clearFailed q else x).tasks.insert
              (if fresh then x.clearFailed q else x).nextTask ⟨q, state, .ready⟩
            nextTask := (if fresh then x.clearFailed q else x).nextTask + 1
            inProgress := insert q (if fresh then x.clearFailed q else x).inProgress }.view pid
          = { (x.setTask x.nextTask ⟨q, state, .ready⟩).view pid with
              inProgress := pid ∈ insert q x.inProgress } := by
        split <;> rfl
      unfold Steps
      dsimp only
      rw [written]
      by_cases hpid : q = pid
      · subst hpid
        refine .inr ?_
        rw [view_setTask rfl]
        simp only [Finset.mem_insert, true_or]
        exact .spawned hactive hprogress
      · refine .inl ?_
        have unowned : x.taskOf pid x.nextTask = none := by
          unfold taskOf
          rw [hfree]
          rfl
        rw [view_setTask_ne (by exact hpid) unowned]
        simp only [Finset.mem_insert, Ne.symm hpid, false_or]
        rfl

end Task

/-! ## Results -/

section Result

variable {q : String} {result : AdvanceResult}

omit [SignatureCrates]

theorem view_takeState (final : SettlementState) :
    (x.takeState pid final).view pid = (x.view pid).take final := by
  unfold takeState ProposalView.take
  have active : (x.view pid).active = x.activeSettlements.lookup pid := rfl
  rw [active]
  cases x.activeSettlements.lookup pid with
  | none =>
    dsimp only
    rw [view_releaseCommitment, view_markFailed]
  | some state => exact view_setActive

theorem view_takeState_ne (h : pid ≠ q) (final : SettlementState) :
    (x.takeState q final).view pid = x.view pid := by
  unfold takeState
  split
  · rw [view_releaseCommitment_ne h, view_markFailed_ne h]
  · exact view_setActive_ne h

omit [ValuedAmount D] in
theorem view_tell : (x.tell pid result).view pid = (x.view pid).tell result := view_note

omit [ValuedAmount D] in
theorem view_setStage (f : SettlementState → SettlementState) :
    (x.setStage pid f).view pid = { x.view pid with active := (x.view pid).active.map f } := by
  unfold setStage
  have active : (x.view pid).active = x.activeSettlements.lookup pid := rfl
  rw [active]
  cases hactive : x.activeSettlements.lookup pid with
  | none =>
    unfold view
    rw [hactive]
    rfl
  | some state => exact view_setActive

omit [ValuedAmount D] in
theorem view_setStage_ne (h : pid ≠ q) (f : SettlementState → SettlementState) :
    (x.setStage q f).view pid = x.view pid := by
  unfold setStage
  split
  · rfl
  · exact view_setActive_ne h

omit [ValuedAmount D] in
/-- Only an active proposal brings an inflow. -/
theorem settlementInflow_active (h : (x.settlementInflow pid).isSome = true) :
    (x.view pid).active.isSome = true := by
  unfold settlementInflow at h
  split at h
  · rename_i state _ hactive
    unfold view
    rw [hactive]
    rfl
  · cases h

theorem view_giveUp (now : Int) : (x.giveUp pid now).view pid
    = (x.view pid).giveUp (x.windowPassed pid now) := by
  unfold giveUp ProposalView.giveUp
  dsimp only
  rw [view_clearFailed, view_deactivate, view_reject, view_markFailed, view_releaseCommitment]
  have pre : (x.view pid).isPreAllocation = x.isPreAllocation pid := rfl
  rw [pre]
  unfold cancelIfPreAllocation
  rw [view_note]
  split <;> rfl

theorem activeSettlements_giveUp (now : Int) :
    (x.giveUp q now).activeSettlements = x.activeSettlements.erase q := by
  unfold giveUp cancelIfPreAllocation
  simp only [clearFailed, deactivate, reject, markFailed, releaseCommitment, note]

theorem view_giveUp_ne (h : pid ≠ q) (now : Int) : (x.giveUp q now).view pid = x.view pid := by
  unfold giveUp cancelIfPreAllocation
  dsimp only
  rw [view_clearFailed, view_deactivate_ne h, view_reject_ne h, view_markFailed_ne h,
    view_releaseCommitment_ne h, view_note_ne h]

theorem view_applyResult_ne (h : pid ≠ q) (now : Int) :
    (x.applyResult q result now).view pid = x.view pid := by
  have failed (count : Nat) : (x.applyFailure q count now).view pid = x.view pid := by
    unfold applyFailure
    split
    · exact view_giveUp_ne h now
    · rfl
  unfold applyResult
  split
  · rw [view_clearFailed, view_setStage_ne h]
  · rw [view_clearFailed, view_setStage_ne h]
  · rw [view_clearFailed, view_deactivate_ne h, view_reject_ne h, view_releaseCommitment_ne h]
  · unfold recordSettlementInflow
    rw [view_clearFailed, view_deactivate_ne h, view_complete_ne h, view_releaseCommitment_ne h,
      view_note_ne h]
  · rfl
  · exact failed _
  · exact failed _
  · rfl

/-- The result is applied to a state whose window is that of the task's own. -/
theorem resultStep_applyResult {y : SettlementExecutor D} {final : SettlementState} {now : Int}
    (hgives : ∀ result, y.givesUp pid result = x.givesUp pid result)
    (hwindow : (y.view pid).active.isSome = true →
      y.windowPassed pid now = x.config.settleWindowPassed final.proposal now) :
    ResultStep x pid now final (y.view pid) result ((y.applyResult pid result now).view pid) := by
  have same : { y.view pid with active := (y.view pid).active.map id } = y.view pid := by
    rw [Option.map_id]
    rfl
  have given (h : y.givesUp pid result = true) :
      ResultStep x pid now final (y.view pid) result ((y.giveUp pid now).view pid) := by
    rw [view_giveUp]
    have window : (y.view pid).giveUp (y.windowPassed pid now)
        = (y.view pid).giveUp (x.config.settleWindowPassed final.proposal now) := by
      cases hactive : (y.view pid).active with
      | none =>
        have pre : (y.view pid).isPreAllocation = false := by
          unfold ProposalView.isPreAllocation
          rw [hactive]
        unfold ProposalView.giveUp
        rw [pre]
        rfl
      | some state => rw [hwindow (by rw [hactive]; rfl)]
    rw [window]
    exact .givenUp (hgives result ▸ h)
  have kept (h : result ≠ .terminal ∧ result ≠ .rejected) :
      ResultStep x pid now final (y.view pid) result (y.view pid) := by
    have step : ResultStep x pid now final (y.view pid) result
        { y.view pid with active := (y.view pid).active.map id } := .kept id h fun s hs => .inl hs
    rw [same] at step
    exact step
  cases result with
  | stepCompleted stage a b c =>
    change ResultStep x pid now final (y.view pid) _ ((y.setStage pid _).view pid)
    rw [view_setStage]
    refine .kept _ ⟨nofun, nofun⟩ fun s hs => .inr fun told => ?_
    cases stage <;> first | rfl | cases hs
  | preconfirmed =>
    change ResultStep x pid now final (y.view pid) _ ((y.setStage pid _).view pid)
    rw [view_setStage]
    exact .kept _ ⟨nofun, nofun⟩ fun s hs => .inr fun told => rfl
  | rejected =>
    unfold applyResult
    rw [view_clearFailed, view_deactivate, view_reject, view_releaseCommitment]
    exact .rejected
  | terminal =>
    unfold applyResult recordSettlementInflow
    dsimp only
    rw [view_clearFailed, view_deactivate, view_complete, view_releaseCommitment, view_note]
    exact .terminal _ settlementInflow_active
  | wait => exact kept ⟨nofun, nofun⟩
  | error error =>
    change ResultStep x pid now final (y.view pid) _ ((y.applyFailure pid _ now).view pid)
    unfold applyFailure
    split
    · exact given (decide_eq_true ‹_›)
    · exact kept ⟨nofun, nofun⟩
  | timeout =>
    change ResultStep x pid now final (y.view pid) _ ((y.applyFailure pid _ now).view pid)
    unfold applyFailure
    split
    · exact given (decide_eq_true ‹_›)
    · exact kept ⟨nofun, nofun⟩
  | needsAllocate cid => exact kept ⟨nofun, nofun⟩

omit [ValuedAmount D] in
/-- What collecting reads of the executor besides the view is as it was. -/
theorem givesUp_congr {y : SettlementExecutor D} (hconfig : y.config = x.config)
    (hfailed : y.failedSettlements = x.failedSettlements) (result : AdvanceResult) :
    y.givesUp pid result = x.givesUp pid result := by
  unfold givesUp countError retryCount
  rw [hconfig, hfailed]

theorem config_takeState (final : SettlementState) : (x.takeState q final).config = x.config ∧
    (x.takeState q final).failedSettlements = x.failedSettlements := by
  unfold takeState
  split <;> exact ⟨rfl, rfl⟩

end Result

theorem steps_collect (tid : Nat) (now : Int) :
    x.Steps pid (.collect tid now) (x.collect tid now) := by
  unfold collect
  split
  · rename_i q final result ht
    let gone : SettlementExecutor D := { x with tasks := x.tasks.erase tid }.endProgress q
    let taken := (gone.takeState q final).tell q result
    have cleared : ((if cidSinceFound result final (x.activeSettlements.lookup q) &&
          decide (q ∈ (taken.applyResult q result now).activeSettlements)
        then (taken.applyResult q result now).clearFailed q
        else taken.applyResult q result now).view pid)
        = (taken.applyResult q result now).view pid := by
      split <;> rfl
    unfold Steps
    dsimp only
    rw [cleared]
    by_cases hpid : q = pid
    · subst hpid
      have hgone : gone.view q = ((x.view q).setTask tid none).endProgress := by
        rw [view_endProgress, view_eraseTask]
      have htaken : taken.view q
          = ((((x.view q).setTask tid none).endProgress).take final).tell result := by
        rw [view_tell, view_takeState, hgone]
      refine .inr (.collected (taskOf_own ht) rfl ?_)
      rw [← htaken]
      refine resultStep_applyResult ?_ ?_
      · exact givesUp_congr (config_takeState final).1 (config_takeState final).2
      · intro hactive
        unfold windowPassed
        have config : taken.config = x.config := (config_takeState final).1
        rw [config]
        have active : taken.activeSettlements.lookup q
            = (((((x.view q).setTask tid none).endProgress).take final).tell result).active :=
          congrArg ProposalView.active htaken
        rw [htaken] at hactive
        rw [active]
        unfold ProposalView.take at hactive ⊢
        split at hactive <;> rename_i hold
        · have none_active : (((x.view q).setTask tid none).endProgress).lose.release.active
              = none := hold
          unfold ProposalView.tell at hactive
          rw [none_active] at hactive
          cases hactive
        · rfl
    · have free : x.taskOf pid tid = none := taskOf_other ht hpid
      refine .inl ?_
      rw [view_applyResult_ne (Ne.symm hpid)]
      refine (view_note_ne (Ne.symm hpid)).trans ((view_takeState_ne (Ne.symm hpid) final).trans ?_)
      rw [view_endProgress_ne (Ne.symm hpid), view_eraseTask_ne free]
  · rename_i q state ht
    by_cases hpid : q = pid
    · subst hpid
      refine .inr ?_
      rw [view_endProgress, view_eraseTask]
      exact .collectedDropped (taskOf_own ht) rfl
    · refine .inl ?_
      rw [view_endProgress_ne (Ne.symm hpid), view_eraseTask_ne (taskOf_other ht hpid)]
  · exact .inl rfl

/-! ## The other events -/

omit [SignatureCrates] in
theorem steps_settled [SignatureCrates] (p : SettlementProposal) (now : Int) :
    x.Steps pid (.settled p now) (x.handleSettled p now) := by
  unfold handleSettled noteSettled recordSettlementInflow
  dsimp only
  by_cases hpid : p.proposalId = pid
  · subst hpid
    refine .inr ?_
    rw [view_clearFailed, view_endProgress, view_deactivate, view_complete, view_releaseCommitment,
      view_note, view_markSettled, view_note]
    refine .settled rfl _ fun hinflow => ?_
    have active := settlementInflow_active hinflow
    rw [view_markSettled, view_note] at active
    exact active
  · have hne := Ne.symm hpid
    refine .inl ?_
    rw [view_clearFailed, view_endProgress_ne hne, view_deactivate_ne hne, view_complete_ne hne,
      view_releaseCommitment_ne hne, view_note_ne hne, view_markSettled_ne hne, view_note_ne hne]

theorem steps_ended (q : String) : x.Steps pid (.ended q) (x.handleEnded q) := by
  unfold handleEnded
  dsimp only
  by_cases hpid : q = pid
  · subst hpid
    refine .inr ?_
    rw [view_clearFailed, view_endProgress, view_deactivate, view_reject, view_releaseCommitment,
      view_markFailed]
    exact .ended
  · have hne := Ne.symm hpid
    refine .inl ?_
    rw [view_clearFailed, view_endProgress_ne hne, view_deactivate_ne hne, view_reject_ne hne,
      view_releaseCommitment_ne hne, view_markFailed_ne hne]

theorem steps_contractFound (q : String) (kind : ContractKind) (cid : String) :
    x.Steps pid (.contractFound q kind cid) (x.contractFound q kind cid) := by
  unfold contractFound
  split
  · exact .inl rfl
  · rename_i state hactive
    split
    · exact .inl rfl
    · by_cases hpid : q = pid
      · subst hpid
        refine .inr ?_
        rw [view_clearFailed, view_setStage]
        have active : (x.view q).active = some state := hactive
        rw [active]
        exact .found hactive
      · exact .inl (view_setStage_ne (Ne.symm hpid) _)

theorem steps_rejectUnconfirmed (q : String) (sent : Bool) :
    x.Steps pid (.rejectUnconfirmed q sent) (x.rejectUnconfirmed q sent) := by
  unfold rejectUnconfirmed
  split
  · exact .inl rfl
  · rename_i state hactive
    split
    case isFalse => exact .inl rfl
    rename_i hstage
    dsimp only
    by_cases hpid : q = pid
    · subst hpid
      refine .inr ?_
      have step : ProposalStep x q (.rejectUnconfirmed q sent)
          (if sent then (x.view q).release.lose.reject.deactivate
            else (x.view q).release.lose.deactivate) := .unconfirmed hactive hstage
      cases sent with
      | true =>
        rw [if_pos rfl]
        unfold rejectProposal
        rw [if_pos rfl, view_deactivate, view_reject, view_markFailed, view_releaseCommitment]
        exact step
      | false =>
        rw [if_neg Bool.false_ne_true, view_deactivate, view_markFailed, view_releaseCommitment]
        exact step
    · have hne := Ne.symm hpid
      refine .inl ?_
      split
      · rw [view_rejectProposal_ne hne, view_markFailed_ne hne, view_releaseCommitment_ne hne]
      · rw [view_deactivate_ne hne, view_markFailed_ne hne, view_releaseCommitment_ne hne]

theorem steps_runRelease (q : String) : x.Steps pid (.runRelease q) (x.runRelease q) := by
  by_cases hmem : q ∈ x.releases
  case neg =>
    refine .inl (view_congr rfl Iff.rfl Iff.rfl Iff.rfl rfl ?_ ?_ ?_ (fun _ => rfl) rfl)
    · unfold runRelease
      rw [if_neg hmem]
    · unfold runRelease hasCommitment
      rw [if_neg hmem]
    · unfold runRelease
      rw [List.erase_of_not_mem hmem]
  by_cases hpid : q = pid
  · subst hpid
    refine .inr ?_
    have released : (x.runRelease q).view q
        = { x.view q with releasing := q ∈ x.releases.erase q, committed := False } := by
      have none_left : ¬ (x.runRelease q).hasCommitment q := by
        unfold runRelease hasCommitment
        rw [if_pos hmem]
        rintro ⟨lm, hlm, hcommitted⟩
        obtain ⟨lm', -, rfl⟩ := Option.map_eq_some_iff.mp hlm
        rw [LiquidityManager.hasCommitment_release] at hcommitted
        cases hcommitted
      have managed : (x.runRelease q).liquidityManager.isSome = x.liquidityManager.isSome := by
        unfold runRelease
        rw [if_pos hmem, Option.isSome_map]
      unfold view
      rw [eq_false none_left, managed]
      rfl
    rw [released]
    exact .released hmem
  · refine .inl (view_congr rfl Iff.rfl Iff.rfl Iff.rfl rfl ?_ ?_ ?_ (fun _ => rfl) rfl)
    · unfold runRelease
      rw [if_pos hmem, Option.isSome_map]
    · unfold runRelease hasCommitment
      rw [if_pos hmem]
      cases x.liquidityManager with
      | none => rfl
      | some lm =>
        simp only [Option.map_some, Option.some.injEq, exists_eq_left']
        rw [LiquidityManager.hasCommitment_release_ne (Ne.symm hpid)]
    · unfold runRelease
      exact List.mem_erase_of_ne (Ne.symm hpid)

theorem steps_allocationCommits (q : String) :
    x.Steps pid (.allocationCommits q) (x.note q fun h => { h with committed := true }) := by
  by_cases hpid : q = pid
  · subst hpid
    refine .inr ?_
    rw [view_note]
    exact .allocation
  · exact .inl (view_note_ne (Ne.symm hpid))

omit [SignatureCrates] in
theorem settlementOrders_applyOrders (t : OrderTracker D) (e : OrderEvent) :
    (t.applyOrders e).settlementOrders = t.settlementOrders := by
  cases e with
  | track => rfl
  | submitFailed => rfl
  | placing => rfl
  | placed market =>
    change (t.dropPlacement market).settlementOrders = _
    unfold OrderTracker.dropPlacement
    split
    · rfl
    · split <;> rfl
  | cancel id => exact OrderTracker.settlementOrders_modifyOrder
  | cancelAll => rfl

theorem steps_orders (e : OrderEvent) :
    x.Steps pid (.orders e) { x with tracker := x.tracker.applyOrders e } :=
  .inl (view_congr rfl Iff.rfl Iff.rfl Iff.rfl (by rw [settlementOrders_applyOrders]) rfl Iff.rfl
    Iff.rfl (fun _ => rfl) rfl)

theorem steps_balances (updates : List (String × ℚ)) :
    x.Steps pid (.balances updates) { x with
      liquidityManager := x.liquidityManager.map fun lm => lm.updateTokenBalances updates } := by
  refine .inl (view_congr rfl Iff.rfl Iff.rfl Iff.rfl rfl Option.isSome_map ?_ Iff.rfl
    (fun _ => rfl) rfl)
  unfold hasCommitment
  cases x.liquidityManager with
  | none => rfl
  | some lm =>
    simp only [Option.map_some, Option.some.injEq, exists_eq_left']
    rw [LiquidityManager.hasCommitment_updateTokenBalances]

theorem steps_reconcile (liveIds : List String) :
    x.Steps pid (.reconcile liveIds) { x with
      liquidityManager := x.liquidityManager.map fun lm => lm.retainCommitments liveIds } := by
  let y : SettlementExecutor D := { x with
    liquidityManager := x.liquidityManager.map fun lm => lm.retainCommitments liveIds }
  have kept : y.hasCommitment pid → x.hasCommitment pid := by
    rintro ⟨lm, hlm, hcommitted⟩
    obtain ⟨lm', hlm', rfl⟩ := Option.map_eq_some_iff.mp hlm
    exact ⟨lm', hlm', LiquidityManager.hasCommitment_of_retainCommitments hcommitted⟩
  have reconciled : y.view pid = { x.view pid with committed := y.hasCommitment pid } := by
    have managed : y.liquidityManager.isSome = x.liquidityManager.isSome := Option.isSome_map
    unfold view
    rw [managed]
    rfl
  change y.view pid = x.view pid ∨ ProposalStep x pid _ (y.view pid)
  rw [reconciled]
  by_cases hcommitted : y.hasCommitment pid
  · refine .inl ?_
    rw [eq_true hcommitted, ← eq_true (kept hcommitted)]
    rfl
  · refine .inr ?_
    rw [eq_false hcommitted]
    exact .reconciled

theorem steps_restart {completed rejected : List String} {cutoffMs : Nat} {config : SettlementConfig}
    {privateKey : Except String (List UInt8)} {liquidityManager : Option LiquidityManager}
    (hfresh : ∀ lm, liquidityManager = some lm → ∀ pid, lm.hasCommitment pid = false) :
    x.Steps pid (.restart completed rejected cutoffMs config privateKey liquidityManager)
      (x.restart completed rejected cutoffMs config privateKey liquidityManager) := by
  refine .inr (.restarted rfl (fun tid => ?_) (Finset.notMem_empty pid) (List.not_mem_nil) ?_ ?_
    rfl rfl)
  · rfl
  · rintro ⟨lm, hlm, hcommitted⟩
    rw [hfresh lm hlm] at hcommitted
    cases hcommitted
  · have restored := Pool.lookup_insertAll_toPairs (p := x.tracker.settlementOrders) (k := pid)
      (f := fun _ (e : SettlementOrderEntry D) =>
        ({ e with quantity := Amount.parseOrZero (Amount.print e.quantity) } : SettlementOrderEntry D))
    refine Eq.trans ?_ restored
    change (Pool.insertAll ∅ (List.map _ (List.map _ _))).lookup pid = _
    rw [List.map_map]
    rfl

variable (pid) in
/-- Whatever happens, a proposal stays as it is or takes a step. -/
theorem steps_apply (hfree : x.tasks.lookup x.nextTask = none) (e : ExecutorEvent D)
    (hallowed : e.isRestart = true → x.Allowed e) : x.Steps pid e (x.apply e) := by
  cases e with
  | proposalCreated p f => exact steps_proposalCreated p f
  | settled p now => exact steps_settled p now
  | ended q => exact steps_ended q
  | contractFound q kind cid => exact steps_contractFound q kind cid
  | readvance q => exact steps_readvance q
  | spawn q fresh => exact steps_spawnTask hfree q
  | beginStep tid => exact steps_beginStep
  | answerStep tid answer now => exact steps_answerStep answer now
  | commitStep tid feeCc fixed4 => exact steps_commitStep feeCc fixed4
  | latchStep tid => exact steps_latchStep
  | recordStep tid => exact steps_recordStep
  | actStep tid answer now => exact steps_actStep answer now
  | refuseStep tid => exact steps_refuseStep
  | allocateReturns tid answer => exact steps_allocateReturns answer
  | dropTask tid => exact steps_dropTask
  | collect tid now => exact steps_collect tid now
  | runRelease q => exact steps_runRelease q
  | allocationCommits q => exact steps_allocationCommits q
  | rejectUnconfirmed q sent => exact steps_rejectUnconfirmed q sent
  | shutDown => exact .inl rfl
  | orders e => exact steps_orders e
  | trades accepted quoted => exact .inl rfl
  | balances updates => exact steps_balances updates
  | reconcile liveIds => exact steps_reconcile liveIds
  | restart completed rejected cutoffMs config privateKey liquidityManager =>
    exact steps_restart (hallowed rfl).2.2

end SettlementExecutor

end BookAgent.AgentLogic
