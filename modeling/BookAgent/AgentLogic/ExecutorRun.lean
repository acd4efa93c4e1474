import BookAgent.Lib.Run
import BookAgent.AgentLogic.SavedState
import BookAgent.AgentLogic.SettlementTask

/-!
# Runs of the executor

Proposals and updates from the stream and the poll, tasks step by step, their results,
the spawned releases, the ledger, everything else that changes the tracker or the
balances, and restarts, in any order.
-/

namespace BookAgent.AgentLogic

open BookAgent.Lib

/-- What else happens to the orders of the tracker. -/
inductive OrderEvent
  | track (orderId : Nat) (marketId : String) (orderType : Int) (price quantity : String)
      (nonce : Nat) (signature : String) (signedData : List UInt8)
  | submitFailed (submit : FailedSubmit) (now : Instant)
  | placing (marketId : String)
  | placed (marketId : String)
  | cancel (orderId : Nat)
  | cancelAll

inductive ContractKind
  | dvpProposal
  | dvp
  | allocation

inductive ExecutorEvent (D : Type)
  /-- From the stream or the poll. -/
  | proposalCreated (proposal : SettlementProposal) (feed : ProposalFeed D)
  | settled (proposal : SettlementProposal) (now : Int)
  /-- Failed or cancelled. -/
  | ended (pid : String)
  /-- Found by the on-chain sync. -/
  | contractFound (pid : String) (kind : ContractKind) (cid : String)
  /-- The proposal is to be advanced again, whether or not a task can start. -/
  | readvance (pid : String)
  | spawn (pid : String) (fresh : Bool)
  | beginStep (tid : Nat)
  | answerStep (tid : Nat) (answer : Except String SettlementStatus) (now : Int)
  | commitStep (tid : Nat) (feeCc : ℚ) (fixed4 : ℚ → String)
  | latchStep (tid : Nat)
  | recordStep (tid : Nat)
  | actStep (tid : Nat) (answer : Except String String) (now : Int)
  | refuseStep (tid : Nat)
  | allocateReturns (tid : Nat) (answer : Except String String)
  | dropTask (tid : Nat)
  | collect (tid : Nat) (now : Int)
  | runRelease (pid : String)
  /-- The agent's allocation for the proposal commits on the ledger. -/
  | allocationCommits (pid : String)
  | rejectUnconfirmed (pid : String) (sent : Bool)
  | shutDown
  | orders (e : OrderEvent)
  | trades (accepted : Option (Pool String AcceptedRfqTrade)) (quoted : Option (List QuotedTrade))
  | balances (updates : List (String × ℚ))
  /-- `retain_commitments` of the heartbeat. -/
  | reconcile (liveIds : List String)
  | restart (completed rejected : List String) (cutoffMs : Nat) (config : SettlementConfig)
      (privateKey : Except String (List UInt8)) (liquidityManager : Option LiquidityManager)

def ExecutorEvent.isRestart {D : Type} : ExecutorEvent D → Bool
  | .restart .. => true
  | _ => false

namespace OrderTracker

variable {D : Type} [Amount D]

def applyOrders (t : OrderTracker D) : OrderEvent → OrderTracker D
  | .track id market type price quantity nonce signature signedData =>
    t.trackOrder id market type price quantity nonce signature signedData
  | .submitFailed submit now => t.noteSubmitFailed submit now
  | .placing market => t.beginPlacement market
  | .placed market => t.dropPlacement market
  | .cancel id => t.cancelOrder id
  | .cancelAll => t.cancelAll

end OrderTracker

namespace SettlementExecutor

variable {D : Type} [ValuedAmount D]

/-- The `Settled` update. -/
def handleSettled (x : SettlementExecutor D) (p : SettlementProposal) (now : Int) :
    SettlementExecutor D :=
  let pid := p.proposalId
  let x := ((x.noteSettled p now).markSettled pid).recordSettlementInflow pid
  let x := ((x.releaseCommitment pid).complete pid).deactivate pid
  (x.endProgress pid).clearFailed pid

/-- The `Failed` and `Cancelled` updates. -/
def handleEnded (x : SettlementExecutor D) (pid : String) : SettlementExecutor D :=
  let x := (x.markFailed pid).releaseCommitment pid
  let x := (x.reject pid).deactivate pid
  (x.endProgress pid).clearFailed pid

/-- One proposal of `reject_unconfirmed`: active, and not yet past its receipt. -/
def rejectUnconfirmed (x : SettlementExecutor D) (pid : String) (sent : Bool) : SettlementExecutor D :=
  match x.activeSettlements.lookup pid with
  | none => x
  | some state =>
    if state.stage = .proposalReceived then
      let x := (x.releaseCommitment pid).markFailed pid
      if sent then x.rejectProposal pid true else x.deactivate pid
    else x

/-- The first contract of a kind is kept. -/
def addContract (state : SettlementState) (kind : ContractKind) (cid : String) : SettlementState :=
  match kind with
  | .dvpProposal => { state with dvpProposalCid := state.dvpProposalCid.or (some cid) }
  | .dvp => { state with dvpCid := state.dvpCid.or (some cid) }
  | .allocation => { state with allocationCid := state.allocationCid.or (some cid) }

def contractFound (x : SettlementExecutor D) (pid : String) (kind : ContractKind) (cid : String) :
    SettlementExecutor D :=
  match x.activeSettlements.lookup pid with
  | none => x
  | some state =>
    if addContract state kind cid = state then x
    else (x.setStage pid fun s => addContract s kind cid).clearFailed pid

variable [SignatureCrates]

def apply (x : SettlementExecutor D) : ExecutorEvent D → SettlementExecutor D
  | .proposalCreated p feed => x.handleProposalCreated p feed
  | .settled p now => x.handleSettled p now
  | .ended pid => x.handleEnded pid
  | .contractFound pid kind cid => x.contractFound pid kind cid
  | .readvance pid => x.readvance pid
  | .spawn pid fresh => x.spawnTask pid fresh
  | .beginStep tid => x.beginStep tid
  | .answerStep tid answer now => x.answerStep tid answer now
  | .commitStep tid feeCc fixed4 => x.commitStep tid feeCc fixed4
  | .latchStep tid => x.latchStep tid
  | .recordStep tid => x.recordStep tid
  | .actStep tid answer now => x.actStep tid answer now
  | .refuseStep tid => x.refuseStep tid
  | .allocateReturns tid answer => x.allocateReturns tid answer
  | .dropTask tid => x.dropTask tid
  | .collect tid now => x.collect tid now
  | .runRelease pid => x.runRelease pid
  | .allocationCommits pid => x.note pid fun h => { h with committed := true }
  | .rejectUnconfirmed pid sent => x.rejectUnconfirmed pid sent
  | .shutDown => { x with shuttingDown := true }
  | .orders e => { x with tracker := x.tracker.applyOrders e }
  | .trades accepted quoted => { x with acceptedRfqTrades := accepted, quotedRfqTrades := quoted }
  | .balances updates =>
    { x with liquidityManager := x.liquidityManager.map fun lm => lm.updateTokenBalances updates }
  | .reconcile liveIds =>
    { x with liquidityManager := x.liquidityManager.map fun lm => lm.retainCommitments liveIds }
  | .restart completed rejected cutoffMs config privateKey liquidityManager =>
    x.restart completed rejected cutoffMs config privateKey liquidityManager

/-- The world keeps to its part: an allocation commits only if it was called for, an
allocate call reports success only once it has, a fresh liquidity manager has no
commitments, and the two sets are saved as they are. -/
def Allowed (x : SettlementExecutor D) : ExecutorEvent D → Prop
  | .allocationCommits pid => (x.history pid).called = true
  | .allocateReturns tid (.ok _) => ∀ task, x.tasks.lookup tid = some task →
      (x.history task.proposalId).committed = true
  | .restart completed rejected _ _ _ liquidityManager =>
    (completed.Nodup ∧ completed.toFinset = x.completedProposals) ∧
      (rejected.Nodup ∧ rejected.toFinset = x.rejectedProposals) ∧
      ∀ lm, liquidityManager = some lm → ∀ pid, lm.hasCommitment pid = false
  | _ => True

/-- The executor of an agent that starts for the first time. -/
def start (D : Type) [ValuedAmount D] (config : SettlementConfig) (startTimeMs : Nat)
    (privateKey : Except String (List UInt8)) (liquidityManager : Option LiquidityManager) :
    SettlementExecutor D where
  config := config
  activeSettlements := ∅
  rejectedProposals := ∅
  completedProposals := ∅
  shuttingDown := false
  tracker := .new startTimeMs privateKey
  inProgress := ∅
  failedSettlements := ∅
  tasks := ∅
  nextTask := 0
  acceptedRfqTrades := none
  quotedRfqTrades := none
  liquidityManager := liquidityManager
  releases := []
  history _ := .empty D

end SettlementExecutor

end BookAgent.AgentLogic
