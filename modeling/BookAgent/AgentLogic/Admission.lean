import BookAgent.Lib.SwapRemove
import BookAgent.AgentLogic.SettlementExecutor

/-!
# Admission of proposals

`handle_proposal_created`: which proposals of the server the executor adopts.
-/

namespace BookAgent.AgentLogic

open BookAgent.Lib

/-- Verdict on an order the tracker did not know. -/
inductive UserOrderVerdict
  | verified (orderId : Nat)
  | rejected
  | lookupFailed

/-- What the orderbook checks make of a proposal. -/
inductive OrderVerdict
  | accepted (orderId : Nat)
  | rejected
  /-- Neither adopted nor rejected; the next poll feeds it again. -/
  | held

inductive GateVerdict
  | passed
  | held
  | refused
  deriving DecidableEq

/-- Balances are in for CC and for one token besides. -/
def LiquidityManager.isReady (m : LiquidityManager) : Bool :=
  decide (ccToken ∈ m.state.tokens) && m.state.tokens.keys.any fun k => decide (k ≠ ccToken)

def AcceptedRfqTrade.matches (t : AcceptedRfqTrade) (p : SettlementProposal) : Bool :=
  decide (t.marketId = p.marketId) && decide (t.price = p.settlementPrice) &&
    decide (t.baseQuantity = p.baseQuantity) && decide (t.quoteQuantity = p.quoteQuantity)

def QuotedTrade.matches (t : QuotedTrade) (p : SettlementProposal) : Bool :=
  decide (t.marketId = p.marketId) && decide (t.price = p.settlementPrice) &&
    decide (t.baseQuantity = p.baseQuantity) && decide (t.quoteQuantity = p.quoteQuantity)

namespace SettlementExecutor

variable {D : Type} [ValuedAmount D]

/-- The counterparty of a settlement. -/
def counterparty (proposal : SettlementProposal) (isBuyer : Bool) : String :=
  if isBuyer then proposal.seller else proposal.buyer

/-- Active settlements with a party. -/
def pendingWith (x : SettlementExecutor D) (party : String) : Nat :=
  (x.activeSettlements.values.filter fun s =>
    decide (counterparty s.proposal s.isBuyer = party)).length

/-- The liquidity gate; nothing is committed here. -/
def liquidityGate (x : SettlementExecutor D) (p : SettlementProposal) (f : ProposalFeed D) :
    GateVerdict :=
  match x.liquidityManager with
  | none => .passed
  | some lm =>
    if lm.isReady = false then .held
    else if f.balanceStale then .held
    else
      let (token, amount, _) := reservationInputs D x.config p (x.config.isBuyer p)
      match lm.canCommit token (ValuedAmount.value amount) f.feeCc with
      | .ok () => .passed
      | .error _ => .refused

/-- Verify a proposal without an order match against the agent's own trades: the record of
its id, or else the first quote with the same parameters. Either way the record is used
up. -/
def verifyRfqProposal (x : SettlementExecutor D) (p : SettlementProposal) :
    Bool × SettlementExecutor D :=
  match x.acceptedRfqTrades.bind fun trades => trades.lookup p.proposalId with
  | some trade =>
    (trade.matches p, { x with acceptedRfqTrades := x.acceptedRfqTrades.map (·.erase p.proposalId) })
  | none => match x.quotedRfqTrades with
    | none => (false, x)
    | some trades => match trades.findIdx? fun t => t.matches p with
      | none => (false, x)
      | some i => (true, { x with quotedRfqTrades := some (swapRemove trades i) })

section Verify

variable [SignatureCrates]

def userVerdict : VerifyResult D → UserOrderVerdict
  | .accepted id => .verified id
  | .rejected _ => .rejected
  | .needServerLookup _ => .rejected
  | .placementInFlight _ => .lookupFailed

/-- Verify a user order by fetching it from the server. -/
def verifyUserOrder (t : OrderTracker D) (p : SettlementProposal) (party : String) (orderId : Nat)
    (f : ProposalFeed D) : UserOrderVerdict × OrderTracker D :=
  match f.lookup with
  | .error _ => (.lookupFailed, t)
  | .ok orders => match orders.find? fun o => decide (o.orderId = orderId) with
    | none => (.rejected, t)
    | some order =>
      let (adopted, t) := t.adoptFailedSubmit order f.instant
      if adopted then
        match t.verifySettlement p party f.instant with
        | .accepted id => (.verified id, t)
        | .rejected _ => (.rejected, t)
        | .needServerLookup _ | .placementInFlight _ => (.lookupFailed, t)
      else
        let (result, t) := t.verifyAndImportOrder order p
        (userVerdict result, t)

/-- Verify a proposal with an order match through the tracker, and the server where the
tracker does not know the order. -/
def verifyOrderProposal (x : SettlementExecutor D) (p : SettlementProposal) (f : ProposalFeed D) :
    OrderVerdict × SettlementExecutor D :=
  match f.trackerSeen.verifySettlement p x.config.partyId f.instant with
  | .accepted id => (.accepted id, x)
  | .rejected _ => (.rejected, x)
  | .placementInFlight _ => (.held, x)
  | .needServerLookup id =>
    let (verdict, t) := verifyUserOrder x.tracker p x.config.partyId id f
    let x := { x with tracker := t }
    match verdict with
    | .verified id => (.accepted id, x)
    | .rejected => (.rejected, x)
    | .lookupFailed => (.held, x)

/-- The order a proposal names for the agent's role, 0 without a match. -/
def namedOrder (p : SettlementProposal) (isBuyer : Bool) : Nat :=
  match p.orderMatch with
  | none => 0
  | some om => if isBuyer then om.bidOrderId else om.offerOrderId

/-- A proposal recorded before a restart: verified already, and taken up again unless its
settle window has passed. -/
def resume (x : SettlementExecutor D) (p : SettlementProposal) (now : Int) : SettlementExecutor D :=
  if x.config.settleWindowPassed p now then
    ((x.markFailed p.proposalId).reject p.proposalId).notifyServerCancel p now
  else
    let noted := x.note p.proposalId fun h => { h with told := false }
    { noted with activeSettlements :=
        x.activeSettlements.insert p.proposalId (.new p (x.config.isBuyer p)) }

/-- Cancel a settlement of the old protocol on the server, unless the agent has allocated
for it or it is settling. -/
def abortV1Settlement (x : SettlementExecutor D) (p : SettlementProposal) (f : ProposalFeed D) :
    SettlementExecutor D :=
  match f.status with
  | .error _ => x
  | .ok status =>
    if v1SettlementLeaveAlone status (x.config.isBuyer p) then x.reject p.proposalId
    else
      let x := x.notifyServerCancel p f.now
      match f.cancel with
      | .ok true => (x.markFailed p.proposalId).reject p.proposalId
      | .ok false | .error _ => x

/-- The checks of the terms: against the agent's own trades where there is no order match,
else against the order. -/
def checkTerms (x : SettlementExecutor D) (p : SettlementProposal) (f : ProposalFeed D) :
    SettlementExecutor D :=
  match p.orderMatch with
  | none => match x.verifyRfqProposal p with
    | (false, x) => x.rejectProposal p.proposalId f.rejectSent
    | (true, x) => x.adopt p 0 false
  | some _ => match x.verifyOrderProposal p f with
    | (.accepted id, x) => x.adopt p id true
    | (.rejected, x) => x.rejectProposal p.proposalId f.rejectSent
    | (.held, x) => x

/-- The checks of a proposal met for the first time, in the order they are made. -/
def vet (x : SettlementExecutor D) (p : SettlementProposal) (f : ProposalFeed D) :
    SettlementExecutor D :=
  let refused := x.rejectProposal p.proposalId f.rejectSent
  if x.shuttingDown then refused
  else if x.config.maxPendingPerCounterparty
      ≤ x.pendingWith (counterparty p (x.config.isBuyer p)) then refused
  else match x.liquidityGate p f with
    | .held => x
    | .refused => refused
    | .passed => x.checkTerms p f

def handleProposalCreated (x : SettlementExecutor D) (p : SettlementProposal) (f : ProposalFeed D) :
    SettlementExecutor D :=
  let pid := p.proposalId
  if pid ∈ x.activeSettlements ∨ pid ∈ x.completedProposals ∨ pid ∈ x.rejectedProposals then x
  else if p.settledAt.isSome then (x.noteSettled p f.now).complete pid
  else if x.config.isBuyer p = false ∧ x.config.isSeller p = false then x
  else if (implausibleAmount D p).isSome then
    ((x.markFailed pid).releaseCommitment pid).rejectProposal pid f.rejectSent
  else if x.config.rfqV2Only then x.abortV1Settlement p f
  else if x.tracker.hasSettlementOrder pid then x.resume p f.now
  else if x.config.noReject then x.adopt p (namedOrder p (x.config.isBuyer p)) false
  else x.vet p f

end Verify

end SettlementExecutor

end BookAgent.AgentLogic
