/-!
# Orderbook messages

The messages of `orderbook.proto` the agent reads, with the fields it reads.
-/

namespace BookAgent.AgentLogic

/-- `OrderType`, as its number on the wire. -/
def orderTypeBid : Int := 1

def orderTypeOffer : Int := 2

structure Order where
  orderId : Nat
  marketId : String
  orderType : Int
  price : String
  quantity : String
  filledQuantity : String
  pendingQuantity : String
  /-- Base64 of the Ed25519 signature. -/
  signature : Option String
  signedData : List UInt8
  nonce : Nat
  deriving DecidableEq

/-- The orders a proposal matches. -/
structure OrderMatch where
  bidOrderId : Nat
  offerOrderId : Nat
  deriving DecidableEq

structure SettlementProposal where
  proposalId : String
  marketId : String
  buyer : String
  seller : String
  baseInstrument : String
  quoteInstrument : String
  baseQuantity : String
  quoteQuantity : String
  settlementPrice : String
  dvpProcessingFeeBuyer : String
  dvpProcessingFeeSeller : String
  allocationProcessingFeeBuyer : String
  allocationProcessingFeeSeller : String
  status : Int
  /-- Seconds since the epoch. -/
  createdAt : Option Int
  settledAt : Option Int
  orderMatch : Option OrderMatch
  origin : String
  deriving DecidableEq

end BookAgent.AgentLogic
