import Mathlib.Algebra.Order.Ring.Rat
import BookAgent.Lib.Text
import BookAgent.AgentLogic.OrderTracker
import BookAgent.AgentLogic.Liquidity

/-!
# Settlements

What `agent-logic/src/settlement.rs` and `types.rs` say of one settlement: its local
state, the server's report on it, the deadlines, what a side reserves, and what
advancing it can end in. Contract traffic, metrics and log texts are left out.
-/

namespace BookAgent.AgentLogic

open BookAgent.Lib

/-- Amounts with the number each stands for. -/
class ValuedAmount (D : Type) extends Amount D where
  one : D
  value : D → ℚ

instance : ValuedAmount Int where
  one := 1
  value x := x

/-! ## Local state -/

inductive SettlementStage
  | proposalReceived
  | dvpFeePaid
  | dvpProposed
  | dvpAccepted
  | allocationFeePaid
  | allocated
  | awaitingSettlement
  | settled
  | failed
  | cancelled
  deriving DecidableEq

/-- Stages before the agent's own allocation. -/
def isPreAllocationStage : SettlementStage → Bool
  | .proposalReceived | .dvpFeePaid | .dvpProposed | .dvpAccepted | .allocationFeePaid => true
  | .allocated | .awaitingSettlement | .settled | .failed | .cancelled => false

structure SettlementState where
  proposal : SettlementProposal
  isBuyer : Bool
  stage : SettlementStage
  dvpProposalCid : Option String
  dvpCid : Option String
  allocationCid : Option String
  deriving DecidableEq

def SettlementState.new (proposal : SettlementProposal) (isBuyer : Bool) : SettlementState where
  proposal := proposal
  isBuyer := isBuyer
  stage := .proposalReceived
  dvpProposalCid := none
  dvpCid := none
  allocationCid := none

/-! ## The server's report -/

inductive NextAction
  | none
  | preconfirm
  | payDvpFee
  | createDvp
  | acceptDvp
  | payAllocFee
  | allocate
  | wait
  | multicallAccept
  deriving DecidableEq

/-- An unknown number reads as no action. -/
def NextAction.ofWire : Int → NextAction
  | 1 => .preconfirm
  | 2 => .payDvpFee
  | 3 => .createDvp
  | 4 => .acceptDvp
  | 5 => .payAllocFee
  | 6 => .allocate
  | 7 => .wait
  | 8 => .multicallAccept
  | _ => .none

/-- `{:?}`. -/
def NextAction.debug : NextAction → String
  | .none => "None"
  | .preconfirm => "Preconfirm"
  | .payDvpFee => "PayDvpFee"
  | .createDvp => "CreateDvp"
  | .acceptDvp => "AcceptDvp"
  | .payAllocFee => "PayAllocFee"
  | .allocate => "Allocate"
  | .wait => "Wait"
  | .multicallAccept => "MulticallAccept"

/-- Every action but these three means the counterparty has committed its side. -/
def NextAction.reserves : NextAction → Bool
  | .preconfirm | .wait | .none => false
  | .payDvpFee | .createDvp | .acceptDvp | .payAllocFee | .allocate | .multicallAccept => true

/-- `GetSettlementStatusResponse`; a step is the number of its status. -/
structure SettlementStatus where
  stage : Int
  buyerNextAction : Int
  sellerNextAction : Int
  dvpProcessingFeeBuyer : Option Int
  dvpProcessingFeeSeller : Option Int
  allocationProcessingFeeBuyer : Option Int
  allocationProcessingFeeSeller : Option Int
  allocationBuyer : Option Int
  allocationSeller : Option Int
  settlement : Option Int
  deriving DecidableEq

def stageSettling : Int := 10

def stageSettled : Int := 11

def stepSubmitted : Int := 2

def stepCompleted : Int := 3

def stepConfirmed : Int := 4

def SettlementStatus.myAction (status : SettlementStatus) (isBuyer : Bool) : NextAction :=
  .ofWire (if isBuyer then status.buyerNextAction else status.sellerNextAction)

def atLeastSubmitted (step : Option Int) : Bool :=
  decide (step = some stepSubmitted) || decide (step = some stepCompleted) ||
    decide (step = some stepConfirmed)

/-- The agent has allocated, or the settlement itself is under way. -/
def v1SettlementLeaveAlone (status : SettlementStatus) (isBuyer : Bool) : Bool :=
  let myAlloc := if isBuyer then status.allocationBuyer else status.allocationSeller
  atLeastSubmitted myAlloc || atLeastSubmitted status.settlement ||
    decide (stageSettling ≤ status.stage)

/-- The operator has witnessed the counterparty's two fees and its allocation. -/
def SettlementStatus.counterpartyWitnessed (status : SettlementStatus) (isBuyer : Bool) : Bool :=
  let (dvpFee, allocFee, alloc) :=
    if isBuyer then
      (status.dvpProcessingFeeSeller, status.allocationProcessingFeeSeller, status.allocationSeller)
    else
      (status.dvpProcessingFeeBuyer, status.allocationProcessingFeeBuyer, status.allocationBuyer)
  decide (dvpFee.getD 0 = stepConfirmed) && decide (allocFee.getD 0 = stepConfirmed) &&
    decide (alloc.getD 0 = stepConfirmed)

/-! ## Configuration and deadlines -/

/-- What the executor and its tasks read of the configuration and the environment. -/
structure SettlementConfig where
  partyId : String
  ccTokenId : Option String
  allocateBeforeSecs : Nat
  settleBeforeSecs : Nat
  maxPendingPerCounterparty : Nat
  rfqV2Only : Bool
  /-- Accept every proposal without verification. -/
  noReject : Bool
  /-- `MAX_SETTLEMENT_RETRIES`. -/
  maxRetries : Nat
  /-- The error of `try_resolve_instrument`, if the instrument has no registry admin. -/
  unresolvedInstrument : String → Option String

/-- `as i64` of a `u64`. -/
def asI64 (n : Nat) : Int := if n < 2 ^ 63 then n else n - 2 ^ 64

/-- `i64::saturating_sub`. -/
def ageSecs (now created : Int) : Int := max (-2 ^ 63) (min (2 ^ 63 - 1) (now - created))

def orderbookAllocateBeforeSecs : Nat := 21600

def orderbookSettleBeforeSecs : Nat := 43200

/-- The allocate and settle windows: the agent's own for a quote, else the server's. -/
def expiryWindows (origin : String) (rfqAllocateSecs rfqSettleSecs : Nat) : Nat × Nat :=
  if origin = "rfq" then (rfqAllocateSecs, rfqSettleSecs)
  else (orderbookAllocateBeforeSecs, orderbookSettleBeforeSecs)

namespace SettlementConfig

variable (config : SettlementConfig)

def windows (proposal : SettlementProposal) : Nat × Nat :=
  expiryWindows proposal.origin config.allocateBeforeSecs config.settleBeforeSecs

/-- The settle window of the proposal has passed; never, where the server sent no
creation time. -/
def settleWindowPassed (proposal : SettlementProposal) (now : Int) : Bool :=
  match proposal.createdAt with
  | none => false
  | some created => decide (asI64 (config.windows proposal).2 < ageSecs now created)

def isBuyer (proposal : SettlementProposal) : Bool := decide (proposal.buyer = config.partyId)

def isSeller (proposal : SettlementProposal) : Bool := decide (proposal.seller = config.partyId)

end SettlementConfig

/-- The error of a settlement past its settle window, or past its allocation window while
the server still expects a step before allocation. -/
def deadlineExpiryError (created now : Int) (action : NextAction) (allocateBefore settleBefore : Nat) :
    Option String :=
  if action = .none then none
  else if asI64 settleBefore < ageSecs now created then
    some ("Settlement expired: deadline-exceeded (created " ++ toString (ageSecs now created) ++
      "s ago, max " ++ toString settleBefore ++ "s)")
  else if action ≠ .wait ∧ asI64 allocateBefore < ageSecs now created then
    some ("Settlement expired: deadline-exceeded (allocation window: created " ++
      toString (ageSecs now created) ++ "s ago, max " ++ toString allocateBefore ++
      "s, pending action " ++ action.debug ++ ")")
  else none

/-- The error of a step that must not run, as a leg of the proposal does not resolve. The
allocation steps go ahead on the terms already accepted. -/
def legCheck (config : SettlementConfig) (proposal : SettlementProposal) (action : NextAction) :
    Option String :=
  match action with
  | .preconfirm | .payDvpFee | .createDvp | .acceptDvp =>
    [proposal.baseInstrument, proposal.quoteInstrument].findSome? config.unresolvedInstrument
  | .payAllocFee | .allocate | .wait | .multicallAccept | .none => none

/-! ## Amounts -/

section Amounts

variable {D : Type} [ValuedAmount D]

/-- The token under its key in the liquidity manager. -/
def tokenKey (config : SettlementConfig) (instrument : String) : String :=
  if config.ccTokenId = some instrument then ccToken else instrument

/-- What this side allocates and pays: token, amount, and fees in USD. The buyer
allocates the quote leg, the seller the base leg. -/
def reservationInputs (D : Type) [ValuedAmount D] (config : SettlementConfig)
    (proposal : SettlementProposal) (isBuyer : Bool) : String × D × D :=
  let instrument := if isBuyer then proposal.quoteInstrument else proposal.baseInstrument
  let quantity := if isBuyer then proposal.quoteQuantity else proposal.baseQuantity
  let (dvpFee, allocationFee) :=
    if isBuyer then (proposal.dvpProcessingFeeBuyer, proposal.allocationProcessingFeeBuyer)
    else (proposal.dvpProcessingFeeSeller, proposal.allocationProcessingFeeSeller)
  -- `a + b` is `a - (-b)`; an overflowing sum reads as unaffordable
  let fees : D :=
    (Amount.checkedSub (Amount.parseOrZero dvpFee) (-Amount.parseOrZero allocationFee)).getD
      Amount.maxValue
  (tokenKey config instrument, (Amount.fromStr quantity).getD ValuedAmount.one, fees)

def maxProposalAmount : ℚ := 10 ^ 18

/-- First quantity or fee that parses but is negative or above the largest amount. -/
def implausibleAmount (D : Type) [ValuedAmount D] (proposal : SettlementProposal) :
    Option (String × String) :=
  [("base_quantity", proposal.baseQuantity), ("quote_quantity", proposal.quoteQuantity),
    ("dvp_processing_fee_buyer", proposal.dvpProcessingFeeBuyer),
    ("dvp_processing_fee_seller", proposal.dvpProcessingFeeSeller),
    ("allocation_processing_fee_buyer", proposal.allocationProcessingFeeBuyer),
    ("allocation_processing_fee_seller", proposal.allocationProcessingFeeSeller)].find? fun field =>
      match (Amount.fromStr field.2 : Option D) with
      | none => false
      | some v => decide (ValuedAmount.value v < 0) || decide (maxProposalAmount < ValuedAmount.value v)

end Amounts

/-! ## Results -/

/-- What advancing a settlement ends in. A result belongs to the proposal of its task. -/
inductive AdvanceResult
  | stepCompleted (stage : SettlementStage) (dvpProposalCid dvpCid allocationCid : Option String)
  | preconfirmed
  | rejected
  /-- The tracker is updated already. -/
  | terminal
  | wait
  | error (error : String)
  | timeout
  | needsAllocate (dvpCid : String)
  deriving DecidableEq

namespace AdvanceResult

/-- The settlement can advance further. -/
def shouldReadvance : AdvanceResult → Bool
  | .stepCompleted .. | .preconfirmed => true
  | .rejected | .terminal | .wait | .error _ | .timeout | .needsAllocate _ => false

def applyToState (state : SettlementState) : AdvanceResult → SettlementState
  | .stepCompleted stage dvpProposalCid dvpCid allocationCid =>
    { state with
      stage := stage
      dvpProposalCid := dvpProposalCid.or state.dvpProposalCid
      dvpCid := dvpCid.or state.dvpCid
      allocationCid := allocationCid.or state.allocationCid }
  | _ => state

end AdvanceResult

def unresolvedInstrumentText : String := "unresolved-instrument"

/-- An error that no retry mends. -/
def isPermanent (error : String) : Bool :=
  containsText error unresolvedInstrumentText || containsText error "deadline-exceeded" ||
    containsText error "DA.Exception.PreconditionFailed" ||
    containsText error "PreconditionFailed" || containsText error "PRECONDITION_FAILED"

/-- An error that is not counted against the retries. -/
def isTransient (error : String) : Bool :=
  !isPermanent error && (containsText error "INACTIVE_CONTRACTS" ||
    containsText error "No Dvp contract ID found" ||
    containsText error "No DvpProposal CID found")

end BookAgent.AgentLogic
