import BookAgent.AgentLogic.Admission

/-!
# Advancing a settlement

The task that advances a settlement (`spawn_settlement_task`, `step_until_done`,
`advance_single`), cut where it may give way to others, and what the executor makes of
its result (`collect_results`, `apply_result`).
-/

namespace BookAgent.AgentLogic

open BookAgent.Lib

/-- Whether the executor knows of the allocation after a result. -/
def AdvanceResult.tells (told : Bool) : AdvanceResult → Bool
  | .stepCompleted .allocated _ _ _ => true
  | .stepCompleted .. | .preconfirmed => false
  | _ => told

namespace SettlementExecutor

variable {D : Type} [ValuedAmount D]

def setTask (x : SettlementExecutor D) (tid : Nat) (task : SettlementTask) : SettlementExecutor D :=
  { x with tasks := x.tasks.insert tid task }

def setPhase (x : SettlementExecutor D) (tid : Nat) (task : SettlementTask) (phase : TaskPhase) :
    SettlementExecutor D :=
  x.setTask tid { task with phase := phase }

/-- The backoff of an active settlement that is touched, or due again, is cleared. -/
def readvance (x : SettlementExecutor D) (pid : String) : SettlementExecutor D :=
  if pid ∈ x.activeSettlements then x.clearFailed pid else x

/-- Start a task on an active settlement; `fresh` when its backoff was cleared first. -/
def spawnTask (x : SettlementExecutor D) (pid : String) (fresh : Bool) : SettlementExecutor D :=
  match x.activeSettlements.lookup pid with
  | none => x
  | some state =>
    if pid ∈ x.inProgress then x
    else
      let x := if fresh then x.clearFailed pid else x
      { x with
        tasks := x.tasks.insert x.nextTask ⟨pid, state, .ready⟩
        nextTask := x.nextTask + 1
        inProgress := insert pid x.inProgress }

/-! ## One step -/

/-- The end of a step: the task goes on with an allocation, or with the next step, or its
result is sent. -/
def endStep (x : SettlementExecutor D) (tid : Nat) (task : SettlementTask) (result : AdvanceResult) :
    SettlementExecutor D :=
  match result with
  | .needsAllocate _ =>
    (x.note task.proposalId fun h => { h with called := true }).setPhase tid task .allocating
  | result =>
    if result.shouldReadvance && !x.shuttingDown then
      (x.note task.proposalId fun h => { h with told := false }).setTask tid
        { task with state := result.applyToState task.state, phase := .ready }
    else x.setPhase tid task (.finished result)

/-- The shutdown flag is read before each step. -/
def beginStep (x : SettlementExecutor D) (tid : Nat) : SettlementExecutor D :=
  match x.tasks.lookup tid with
  | some ⟨pid, state, .ready⟩ => x.setPhase tid ⟨pid, state, .ready⟩ (.asking x.shuttingDown)
  | _ => x

/-- The error of a step that does not run. -/
def stepError (config : SettlementConfig) (state : SettlementState) (action : NextAction) (now : Int) :
    Option String :=
  let expired := state.proposal.createdAt.bind fun created =>
    deadlineExpiryError created now action (config.windows state.proposal).1
      (config.windows state.proposal).2
  expired.or (legCheck config state.proposal action)

/-- The server's report arrives. -/
def answerStep (x : SettlementExecutor D) (tid : Nat) (answer : Except String SettlementStatus)
    (now : Int) : SettlementExecutor D :=
  match x.tasks.lookup tid with
  | some ⟨pid, state, .asking shuttingDown⟩ =>
    let task : SettlementTask := ⟨pid, state, .asking shuttingDown⟩
    match answer with
    | .error e => x.endStep tid task (.error e)
    | .ok status =>
      let action := status.myAction state.isBuyer
      match stepError x.config state action now with
      | some e => x.endStep tid task (.error e)
      | none =>
        if action.reserves then x.setPhase tid task (.committing ⟨shuttingDown, status⟩)
        else x.setPhase tid task (.acting ⟨shuttingDown, status⟩)
  | _ => x

/-- `ensure_reserved`: commit liquidity, unless it is committed already; `fixed4` is `{:.4}`. -/
def commitStep (x : SettlementExecutor D) (tid : Nat) (feeCc : ℚ) (fixed4 : ℚ → String) :
    SettlementExecutor D :=
  match x.tasks.lookup tid with
  | some ⟨pid, state, .committing step⟩ =>
    let task : SettlementTask := ⟨pid, state, .committing step⟩
    match x.liquidityManager with
    | none => x.setPhase tid task (.latching step)
    | some lm =>
      if lm.hasCommitment pid then x.setPhase tid task (.latching step)
      else
        let (token, amount, _) := reservationInputs D x.config state.proposal state.isBuyer
        match lm.tryCommit pid token (ValuedAmount.value amount) feeCc with
        | .error e => x.endStep tid task (.error ("reservation failed: " ++ e.text fixed4))
        | .ok lm => { x with liquidityManager := some lm }.setPhase tid task (.latching step)
  | _ => x

/-- `ensure_reserved`: reserve the capacity of the order. -/
def latchStep (x : SettlementExecutor D) (tid : Nat) : SettlementExecutor D :=
  match x.tasks.lookup tid with
  | some ⟨pid, state, .latching step⟩ =>
    let task : SettlementTask := ⟨pid, state, .latching step⟩
    match x.tracker.tryReservePending pid with
    | (.error e, _) => x.endStep tid task (.error ("reservation failed: " ++ e.text))
    | (.ok false, _) => x.setPhase tid task (.acting step)
    | (.ok true, t) =>
      let x := { x.note pid fun h => { h with reserved := true } with tracker := t }
      if x.liquidityManager.isSome then x.setPhase tid task (.recording step)
      else x.setPhase tid task (.acting step)
  | _ => x

/-- `ensure_reserved`: record the outflow. -/
def recordStep (x : SettlementExecutor D) (tid : Nat) : SettlementExecutor D :=
  match x.tasks.lookup tid with
  | some ⟨pid, state, .recording step⟩ =>
    let (token, amount, _) := reservationInputs D x.config state.proposal state.isBuyer
    (x.note pid fun h => { h with outflows := (token, amount) :: h.outflows }).setPhase tid
      ⟨pid, state, .recording step⟩ (.acting step)
  | _ => x

/-- The action of a step. `answer` is what the backend or the server says to it: the id of
the new contract, or an error. -/
def actStep (x : SettlementExecutor D) (tid : Nat) (answer : Except String String) (now : Int) :
    SettlementExecutor D :=
  match x.tasks.lookup tid with
  | some ⟨pid, state, .acting step⟩ =>
    let task : SettlementTask := ⟨pid, state, .acting step⟩
    match step.status.myAction state.isBuyer with
    | .preconfirm =>
      if step.shuttingDown then (x.markFailed pid).setPhase tid task .refusing
      else match answer with
        | .ok _ => x.endStep tid task .preconfirmed
        | .error e => x.endStep tid task (.error ("Preconfirmation failed: " ++ e))
    -- a fee that cannot be debited is only logged
    | .payDvpFee => x.endStep tid task (.stepCompleted .dvpFeePaid none none none)
    | .createDvp => match answer with
      | .ok cid => x.endStep tid task (.stepCompleted .dvpProposed (some cid) none none)
      | .error e => x.endStep tid task (.error ("CreateDvp failed: " ++ e))
    | .acceptDvp => match state.dvpProposalCid with
      | none => x.endStep tid task (.error "No DvpProposal CID found (not yet proposed?)")
      | some _ => match answer with
        | .ok cid => x.endStep tid task (.stepCompleted .dvpAccepted none (some cid) none)
        | .error e => x.endStep tid task (.error ("AcceptDvp failed: " ++ e))
    | .payAllocFee => x.endStep tid task (.stepCompleted .allocationFeePaid none none none)
    | .allocate =>
      if step.status.counterpartyWitnessed state.isBuyer = false then x.endStep tid task .wait
      else match state.dvpCid with
        | none => x.endStep tid task (.error "No Dvp contract ID found (not yet accepted?)")
        | some cid => x.endStep tid task (.needsAllocate cid)
    | .wait | .multicallAccept => x.endStep tid task .wait
    | .none =>
      if step.status.stage = stageSettled then
        ((x.noteSettled { state.proposal with proposalId := pid } now).markSettled pid).endStep tid
          task .terminal
      else (x.markFailed pid).endStep tid task .terminal
  | _ => x

/-- The rejection sent while shutting down is answered. -/
def refuseStep (x : SettlementExecutor D) (tid : Nat) : SettlementExecutor D :=
  match x.tasks.lookup tid with
  | some ⟨pid, state, .refusing⟩ => x.setPhase tid ⟨pid, state, .refusing⟩ (.finished .rejected)
  | _ => x

/-- The allocate call returns, or the wait for it times out. -/
def allocateReturns (x : SettlementExecutor D) (tid : Nat) (answer : Except String String) :
    SettlementExecutor D :=
  match x.tasks.lookup tid with
  | some ⟨pid, state, .allocating⟩ =>
    let task : SettlementTask := ⟨pid, state, .allocating⟩
    match answer with
    | .ok cid => x.setPhase tid task (.finished (.stepCompleted .allocated none none (some cid)))
    | .error e => x.setPhase tid task (.finished (.error ("Allocate failed: " ++ e)))
  | _ => x

/-- The task panics or is aborted; a result that is sent stays. -/
def dropTask (x : SettlementExecutor D) (tid : Nat) : SettlementExecutor D :=
  match x.tasks.lookup tid with
  | some ⟨_, _, .finished _⟩ | none => x
  | some task => x.setPhase tid task .dropped

/-! ## Results -/

def retryCount (x : SettlementExecutor D) (pid : String) : Nat := (x.failedSettlements.lookup pid).getD 0

/-- The retry count an error leaves. -/
def countError (x : SettlementExecutor D) (pid error : String) : Nat :=
  if isPermanent error then x.config.maxRetries
  else if isTransient error then x.retryCount pid
  else x.retryCount pid + 1

def isPreAllocation (x : SettlementExecutor D) (pid : String) : Bool :=
  match x.activeSettlements.lookup pid with
  | none => false
  | some state => isPreAllocationStage state.stage

/-- The settle window of an active settlement has passed. -/
def windowPassed (x : SettlementExecutor D) (pid : String) (now : Int) : Bool :=
  match x.activeSettlements.lookup pid with
  | none => false
  | some state => x.config.settleWindowPassed state.proposal now

/-- The cancel of a proposal that is given up before its allocation. -/
def cancelIfPreAllocation (x : SettlementExecutor D) (pid : String) (now : Int) : SettlementExecutor D :=
  x.note pid fun h =>
    { h with cancels :=
        if x.isPreAllocation pid then ⟨x.windowPassed pid now, h.committed⟩ :: h.cancels
        else h.cancels }

/-- A proposal given up over errors or timeouts. -/
def giveUp (x : SettlementExecutor D) (pid : String) (now : Int) : SettlementExecutor D :=
  let x := x.cancelIfPreAllocation pid now
  let x := (x.releaseCommitment pid).markFailed pid
  ((x.reject pid).deactivate pid).clearFailed pid

/-- An error or timeout that leaves `count` retries counted. -/
def applyFailure (x : SettlementExecutor D) (pid : String) (count : Nat) (now : Int) :
    SettlementExecutor D :=
  if x.config.maxRetries ≤ count then x.giveUp pid now else x.setFailed pid count

def setStage (x : SettlementExecutor D) (pid : String) (f : SettlementState → SettlementState) :
    SettlementExecutor D :=
  match x.activeSettlements.lookup pid with
  | none => x
  | some state => { x with activeSettlements := x.activeSettlements.insert pid (f state) }

def applyResult (x : SettlementExecutor D) (pid : String) (result : AdvanceResult) (now : Int) :
    SettlementExecutor D :=
  match result with
  | .stepCompleted .. => (x.setStage pid fun s => result.applyToState s).clearFailed pid
  | .preconfirmed => (x.setStage pid fun s => { s with stage := .proposalReceived }).clearFailed pid
  | .rejected =>
    (((x.releaseCommitment pid).reject pid).deactivate pid).clearFailed pid
  | .terminal =>
    let x := (x.recordSettlementInflow pid).releaseCommitment pid
    ((x.complete pid).deactivate pid).clearFailed pid
  | .wait => x.setFailed pid 0
  | .error e => x.applyFailure pid (x.countError pid e) now
  | .timeout => x.applyFailure pid (x.retryCount pid + 1) now
  | .needsAllocate _ => x

/-- The state a task ends with, with the contracts found while it ran. -/
def mergeState (final state : SettlementState) : SettlementState :=
  { final with
    dvpProposalCid := final.dvpProposalCid.or state.dvpProposalCid
    dvpCid := final.dvpCid.or state.dvpCid
    allocationCid := final.allocationCid.or state.allocationCid }

/-- Take over the state of a task, or release what it reserved after its proposal ended. -/
def takeState (x : SettlementExecutor D) (pid : String) (final : SettlementState) :
    SettlementExecutor D :=
  match x.activeSettlements.lookup pid with
  | none => (x.markFailed pid).releaseCommitment pid
  | some state =>
    { x with activeSettlements := x.activeSettlements.insert pid (mergeState final state) }

/-- The error was for want of a contract that has been found since. -/
def cidSinceFound (result : AdvanceResult) (final : SettlementState) (state : Option SettlementState) :
    Bool :=
  match result, state with
  | .error e, some state =>
    (final.dvpProposalCid.isNone && state.dvpProposalCid.isSome &&
        containsText e "No DvpProposal CID found") ||
      (final.dvpCid.isNone && state.dvpCid.isSome && containsText e "No Dvp contract ID found")
  | _, _ => false

def tell (x : SettlementExecutor D) (pid : String) (result : AdvanceResult) : SettlementExecutor D :=
  x.note pid fun h => { h with told := result.tells h.told }

/-- Collect what a task has come to. No two tasks are of one proposal, so it makes no
difference that several are collected together. -/
def collect (x : SettlementExecutor D) (tid : Nat) (now : Int) : SettlementExecutor D :=
  match x.tasks.lookup tid with
  | some ⟨pid, final, .finished result⟩ =>
    let found := cidSinceFound result final (x.activeSettlements.lookup pid)
    let x := { x with tasks := x.tasks.erase tid }.endProgress pid
    let x := ((x.takeState pid final).tell pid result).applyResult pid result now
    if found && decide (pid ∈ x.activeSettlements) then x.clearFailed pid else x
  | some ⟨pid, _, .dropped⟩ => { x with tasks := x.tasks.erase tid }.endProgress pid
  | _ => x

end SettlementExecutor

end BookAgent.AgentLogic
