import BookAgent.AgentLogic.SettlementExecutor

/-!
# The saved state

`snapshot_state` and `prune_state`, and the restore of `run_agent`: what of the
executor, the tracker and the trade records is written at shutdown and found again at
the next start. The state file reads back as it was written.
-/

namespace BookAgent.AgentLogic

open BookAgent.Lib

structure SavedAgentState where
  startTimeMs : Nat
  completedProposals : List String
  rejectedProposals : List String
  orders : List SavedTrackedOrder
  settlementOrders : List SavedSettlementOrder
  /-- By proposal id. -/
  acceptedRfqTrades : List (String × AcceptedRfqTrade)
  quotedRfqTrades : List QuotedTrade

def maxDedupSet : Nat := 1000

/-- Drop from the front what is more than the cap. -/
def capDedup (ids : List String) : List String := ids.drop (ids.length - maxDedupSet)

namespace SavedAgentState

def referencedOrderIds (s : SavedAgentState) : List Nat := s.settlementOrders.map (·.orderId)

def activeProposalIds (s : SavedAgentState) : List String := s.settlementOrders.map (·.proposalId)

/-- `prune_state`; an order is recent if its nonce is above the cutoff. -/
def prune (s : SavedAgentState) (cutoffMs : Nat) : SavedAgentState :=
  let referenced (o : SavedTrackedOrder) : Bool := decide (o.orderId ∈ s.referencedOrderIds)
  let fixed := s.orders.map fun o => if referenced o then o else { o with pendingQuantity := "0" }
  { s with
    orders := fixed.filter fun o => o.isActive || referenced o || decide (cutoffMs < o.nonce)
    completedProposals := capDedup s.completedProposals
    rejectedProposals := capDedup s.rejectedProposals
    quotedRfqTrades := []
    acceptedRfqTrades := s.acceptedRfqTrades.filter fun t => decide (t.1 ∈ s.activeProposalIds) }

end SavedAgentState

namespace SettlementExecutor

variable {D : Type} [ValuedAmount D] [SignatureCrates]

/-- `snapshot_state`; what is locked for too long is left out. `completed` and `rejected` are
the two sets in the order they happen to be iterated. -/
def snapshotWithin (x : SettlementExecutor D) (trackerFree acceptedFree quotedFree : Bool)
    (completed rejected : List String) (cutoffMs : Nat) : SavedAgentState :=
  let (startTimeMs, orders, settlementOrders) :=
    if trackerFree then x.tracker.exportState else (x.tracker.startTimeMs, [], [])
  let saved : SavedAgentState :=
    { startTimeMs
      completedProposals := completed
      rejectedProposals := rejected
      orders
      settlementOrders
      acceptedRfqTrades := if acceptedFree then (x.acceptedRfqTrades.map (·.toPairs)).getD [] else []
      quotedRfqTrades := if quotedFree then x.quotedRfqTrades.getD [] else [] }
  saved.prune cutoffMs

/-- Nothing is locked. -/
def snapshot (x : SettlementExecutor D) (completed rejected : List String) (cutoffMs : Nat) :
    SavedAgentState :=
  x.snapshotWithin true true true completed rejected cutoffMs

/-- The executor of a process that restores a saved state. -/
def restore (x : SettlementExecutor D) (saved : SavedAgentState) (config : SettlementConfig)
    (privateKey : Except String (List UInt8)) (liquidityManager : Option LiquidityManager) :
    SettlementExecutor D where
  config := config
  activeSettlements := ∅
  rejectedProposals := saved.rejectedProposals.toFinset
  completedProposals := saved.completedProposals.toFinset
  shuttingDown := false
  tracker := (OrderTracker.new saved.startTimeMs privateKey).importState saved.orders
    saved.settlementOrders
  inProgress := ∅
  failedSettlements := ∅
  tasks := ∅
  nextTask := 0
  acceptedRfqTrades := x.acceptedRfqTrades.map fun _ => Pool.insertAll ∅ saved.acceptedRfqTrades
  quotedRfqTrades := x.quotedRfqTrades.map fun _ => saved.quotedRfqTrades
  liquidityManager := liquidityManager
  releases := []
  history pid := { x.history pid with told := false }

/-- Shut down and start again. -/
def restart (x : SettlementExecutor D) (completed rejected : List String) (cutoffMs : Nat)
    (config : SettlementConfig) (privateKey : Except String (List UInt8))
    (liquidityManager : Option LiquidityManager) : SettlementExecutor D :=
  x.restore (x.snapshot completed rejected cutoffMs) config privateKey liquidityManager

end SettlementExecutor

end BookAgent.AgentLogic
