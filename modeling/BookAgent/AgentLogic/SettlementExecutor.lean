import Mathlib.Data.Finset.Insert
import Mathlib.Data.Finset.Erase
import BookAgent.Lib.ParseFloat
import BookAgent.AgentLogic.Settlement

/-!
# The settlement executor

`agent-logic/src/settlement.rs`: the executor adopts the proposals of the server that it
can verify, advances each in a task of its own, and drops them when they end. The
order tracker and the liquidity manager are shared with the tasks. What only schedules
the work (permits, backoff and hold times, jitter), feeds statistics, or tells the
buyer's fill loop of a rejection is left out, as is `cancel_settlement`, which nothing
calls.
-/

namespace BookAgent.AgentLogic

open BookAgent.Lib

/-- Trade parameters recorded when the buyer accepts a quote. -/
structure AcceptedRfqTrade where
  marketId : String
  price : String
  baseQuantity : String
  quoteQuantity : String
  /-- Whether the agent buys; the record of the source has no such field, and nothing
  reads it. -/
  weBuy : Bool
  deriving DecidableEq

/-- Trade parameters recorded when a quote is sent. -/
structure QuotedTrade where
  marketId : String
  price : String
  baseQuantity : String
  quoteQuantity : String
  /-- As in `AcceptedRfqTrade`. -/
  weBuy : Bool
  deriving DecidableEq

/-! ## Tasks -/

/-- What one step of a task goes by: the shutdown flag as the step began, and the
server's report. -/
structure StepContext where
  shuttingDown : Bool
  status : SettlementStatus

/-- Where a task stands. Between two of these it does not give way to others. -/
inductive TaskPhase
  | ready
  | asking (shuttingDown : Bool)
  /-- `ensure_reserved`, the commitment. -/
  | committing (step : StepContext)
  /-- `ensure_reserved`, the tracker. -/
  | latching (step : StepContext)
  /-- `ensure_reserved`, the outflow. -/
  | recording (step : StepContext)
  | acting (step : StepContext)
  /-- Sending the rejection of a proposal met while shutting down. -/
  | refusing
  | allocating
  | finished (result : AdvanceResult)
  /-- Panicked or aborted. -/
  | dropped

structure SettlementTask where
  proposalId : String
  /-- `local_state`. -/
  state : SettlementState
  phase : TaskPhase

/-! ## What was done for a proposal -/

/-- A server-side cancel sent for a proposal. -/
structure SentCancel where
  settleWindowPassed : Bool
  /-- The agent's allocation was on the ledger. -/
  committed : Bool
  deriving DecidableEq

/-- What the agent, the ledger and the server have done for one proposal. No code reads
it. -/
structure ProposalHistory (D : Type) where
  /-- An allocate call was made. -/
  called : Bool
  /-- The allocation is on the ledger. -/
  committed : Bool
  /-- The executor has taken the result of an allocate call, and no result or restart
  has taken its stage back since. -/
  told : Bool
  cancels : List SentCancel
  /-- Order and base quantity of the last adoption, through an order. -/
  adopted : Option (Nat × D)
  /-- `mark_failed` has dropped its record. -/
  lost : Bool
  /-- `mark_settled` has closed its record while reserved. -/
  closed : Bool
  /-- What was added to the settled quantity of which order. -/
  increases : List (Nat × D)
  /-- Reported settled. -/
  settled : Bool
  /-- Reported settled within its settle window, with the allocation on the ledger. -/
  timely : Bool
  /-- Its capacity was newly reserved. -/
  reserved : Bool
  outflows : List (String × D)
  /-- Token and amount text. -/
  inflows : List (String × String)
  deriving DecidableEq

def ProposalHistory.empty (D : Type) : ProposalHistory D where
  called := false
  committed := false
  told := false
  cancels := []
  adopted := none
  lost := false
  closed := false
  increases := []
  settled := false
  timely := false
  reserved := false
  outflows := []
  inflows := []

/-- What `mark_settled` does to a record, and so to its order. -/
def ProposalHistory.close {D : Type} (h : ProposalHistory D) (entry : Option (SettlementOrderEntry D))
    (tracked : Nat → Bool) : ProposalHistory D :=
  match entry with
  | none => h
  | some e =>
    if e.reserved = false then h
    else
      { h with
        closed := true
        increases := if tracked e.orderId then h.increases ++ [(e.orderId, e.quantity)] else h.increases }

/-! ## The executor -/

structure SettlementExecutor (D : Type) where
  config : SettlementConfig
  activeSettlements : Pool String SettlementState
  rejectedProposals : Finset String
  completedProposals : Finset String
  shuttingDown : Bool
  tracker : OrderTracker D
  inProgress : Finset String
  /-- `retry_count`. -/
  failedSettlements : Pool String Nat
  /-- `pending_results`, each with the task that is to send it. -/
  tasks : Pool Nat SettlementTask
  nextTask : Nat
  acceptedRfqTrades : Option (Pool String AcceptedRfqTrade)
  quotedRfqTrades : Option (List QuotedTrade)
  liquidityManager : Option LiquidityManager
  /-- Releases handed to a task of their own that has not run yet. -/
  releases : List String
  history : String → ProposalHistory D

/-- What the world answers while a proposal is handled. -/
structure ProposalFeed (D : Type) where
  /-- Seconds since the epoch. -/
  now : Int
  instant : Instant
  /-- The tracker when the proposal was first verified against it; tasks and orders may
  have changed it since. -/
  trackerSeen : OrderTracker D
  /-- The rejection reached the server. -/
  rejectSent : Bool
  /-- The balance of the token to allocate is stale. -/
  balanceStale : Bool
  /-- `estimate_fee_cc` of the fees. -/
  feeCc : ℚ
  /-- The live orders of the market. -/
  lookup : Except String (List Order)
  status : Except String SettlementStatus
  cancel : Except String Bool

namespace SettlementExecutor

variable {D : Type} [ValuedAmount D]

/-! ## Changes to one proposal -/

def note (x : SettlementExecutor D) (pid : String)
    (f : ProposalHistory D → ProposalHistory D) : SettlementExecutor D :=
  { x with history := Function.update x.history pid (f (x.history pid)) }

def markSettled (x : SettlementExecutor D) (pid : String) : SettlementExecutor D :=
  let noted := x.note pid fun h =>
    h.close (x.tracker.settlementOrders.lookup pid) fun id => id ∈ x.tracker.orders
  { noted with tracker := x.tracker.markSettled pid }

def markFailed (x : SettlementExecutor D) (pid : String) : SettlementExecutor D :=
  let noted := x.note pid fun h => { h with lost := h.lost || x.tracker.hasSettlementOrder pid }
  { noted with tracker := x.tracker.markFailed pid }

def releaseCommitment (x : SettlementExecutor D) (pid : String) : SettlementExecutor D :=
  { x with releases := if x.liquidityManager.isSome then pid :: x.releases else x.releases }

/-- A release that was handed over runs. -/
def runRelease (x : SettlementExecutor D) (pid : String) : SettlementExecutor D :=
  { x with
    releases := x.releases.erase pid
    liquidityManager :=
      if pid ∈ x.releases then x.liquidityManager.map fun lm => lm.release pid
      else x.liquidityManager }

/-- A report that the proposal settled has come in. -/
def noteSettled (x : SettlementExecutor D) (proposal : SettlementProposal) (now : Int) :
    SettlementExecutor D :=
  x.note proposal.proposalId fun h =>
    { h with
      settled := true
      timely := h.timely || (h.committed && !x.config.settleWindowPassed proposal now) }

/-- Ask the server to cancel; best effort. -/
def notifyServerCancel (x : SettlementExecutor D) (proposal : SettlementProposal) (now : Int) :
    SettlementExecutor D :=
  x.note proposal.proposalId fun h =>
    { h with cancels := ⟨x.config.settleWindowPassed proposal now, h.committed⟩ :: h.cancels }

/-- What a settling proposal brings, while it is still active: token and amount text. -/
def settlementInflow (x : SettlementExecutor D) (pid : String) : Option (String × String) :=
  match x.liquidityManager, x.activeSettlements.lookup pid with
  | some _, some state =>
    let token := if state.isBuyer then state.proposal.baseInstrument else state.proposal.quoteInstrument
    let amount := if state.isBuyer then state.proposal.baseQuantity else state.proposal.quoteQuantity
    if (parseF64 amount).isSome then some (tokenKey x.config token, amount) else none
  | _, _ => none

def recordSettlementInflow (x : SettlementExecutor D) (pid : String) : SettlementExecutor D :=
  x.note pid fun h => { h with inflows := (x.settlementInflow pid).toList ++ h.inflows }

def reject (x : SettlementExecutor D) (pid : String) : SettlementExecutor D :=
  { x with rejectedProposals := insert pid x.rejectedProposals }

def complete (x : SettlementExecutor D) (pid : String) : SettlementExecutor D :=
  { x with completedProposals := insert pid x.completedProposals }

def deactivate (x : SettlementExecutor D) (pid : String) : SettlementExecutor D :=
  { x with activeSettlements := x.activeSettlements.erase pid }

def setFailed (x : SettlementExecutor D) (pid : String) (retryCount : Nat) : SettlementExecutor D :=
  { x with failedSettlements := x.failedSettlements.insert pid retryCount }

def clearFailed (x : SettlementExecutor D) (pid : String) : SettlementExecutor D :=
  { x with failedSettlements := x.failedSettlements.erase pid }

def endProgress (x : SettlementExecutor D) (pid : String) : SettlementExecutor D :=
  { x with inProgress := x.inProgress.erase pid }

/-- Reject a proposal; its entry goes only once the server has the rejection. -/
def rejectProposal (x : SettlementExecutor D) (pid : String) (sent : Bool) : SettlementExecutor D :=
  if sent then (x.reject pid).deactivate pid else x

/-- Record the adoption and make the proposal active. -/
def adopt (x : SettlementExecutor D) (proposal : SettlementProposal) (orderId : Nat)
    (throughOrder : Bool) : SettlementExecutor D :=
  let pid := proposal.proposalId
  let quantity : D := Amount.parseOrZero proposal.baseQuantity
  let state := SettlementState.new proposal (x.config.isBuyer proposal)
  let noted := x.note pid fun h =>
    { h with
      told := false
      adopted := if h.closed then h.adopted
        else if throughOrder then some (orderId, quantity) else none }
  { noted with
    tracker := x.tracker.recordSettlementOrder pid orderId quantity
    activeSettlements := x.activeSettlements.insert pid state }

end SettlementExecutor

end BookAgent.AgentLogic
