import BookAgent.AgentLogic.Liquidity
import BookAgent.AgentLogic.NetPosition
import BookAgent.CloudAgent.TicketPool

/-!
# The RFQ V2 quote state machine

`rfq_v2.rs`: a quote is indicative, then a confirm claims it, commits funds, reserves
holdings and perhaps a ticket, and issues an envelope; an observed settle or the sweep
ends it. Every handler is a task that runs from one await to the next: the first
function of a task is what it does up to its first await, and its resumption what it
does when the awaited call returns. What other code answers (the selection, venue and
signing code, the price feed, the clocks) is given to each resumption.
-/

namespace BookAgent.CloudAgent

open BookAgent.Lib BookAgent.AgentLogic

/-! ## Data -/

inductive QuoteSide
  | buy
  | sell
  deriving DecidableEq

structure AtomicFeeSpec where
  receiver : String
  instrumentAdmin : String
  instrumentId : String
  amount : String
  deriving DecidableEq

/-- The pricing inputs of a quote whose price was adjusted. -/
structure PoolPricingSnapshot where
  baseReserve : ℚ
  netUsed : ℚ
  impactPct : ℚ
  effSpreadBase : ℚ

structure MarketInstruments where
  baseKey : String
  baseIsCc : Bool
  quoteKey : String
  quoteIsCc : Bool

/-- What an indicative quote keeps for its confirm. -/
structure LiveQuote where
  marketId : String
  side : QuoteSide
  baseAmount : ℚ
  quoteAmount : ℚ
  /-- The instrument key and the amount the LP pays on settle. -/
  lpPays : String × ℚ
  /-- The liquidity manager's name for the same token. -/
  lpPaysToken : String
  notionalUsd : Option ℚ
  settlementFee : Option AtomicFeeSpec
  userParty : Option String
  poolInputs : Option PoolPricingSnapshot

structure ConfirmedQuote (E : Type) where
  holdingCids : List String
  /-- Empty where the quote has no ticket. -/
  ticketId : String
  ticketCid : Option String
  /-- `none` after a restart. -/
  envelope : Option E
  validUntilMicros : Int
  lpPaysToken : String
  lpPaysAmount : ℚ
  expiresAt : Instant
  marketId : String

inductive PendingV2 (E : Type)
  | indicative (quote : LiveQuote) (validUntil : Instant)
  /-- A confirm for this quote is running. -/
  | confirming (since : Instant)
  | confirmed (c : ConfirmedQuote E)
  | settled (since : Instant)
  | expired (since : Instant)

/-- What the handlers read and never change. -/
structure RfqV2Config (K : Type) [Field K] [LinearOrder K] where
  atomicQuoteValidSecs : Nat
  settleGraceSecs : Nat
  ticketThresholdUsd : Option ℚ
  /-- Whether the price feed is attached. -/
  midPrices : Bool
  /-- The markets whose price is adjusted for pool impact. -/
  poolImpact : String → Bool
  marketInstruments : String → Option MarketInstruments
  /-- The last instant the clock can represent. -/
  lastInstant : Instant
  net : NetPosition.Config K
  /-- `to_f64().unwrap_or(0.0)` -/
  toF64 : ℚ → K
  /-- `{:.4}` -/
  fixed4 : ℚ → String

structure RfqV2State (D K E : Type) where
  pending : Pool String (PendingV2 E)
  correlation : Pool String String
  cache : HoldingsCache D
  ticketPool : Option TicketPool
  liquidityManager : LiquidityManager
  netPositions : Option (NetPosition.Inner K)

inductive RfqConfirmRejectReason
  | quoteNotFound
  | quoteExpired
  | insufficientHoldings
  | noTicketAvailable
  | venueUnavailable
  | internalError
  deriving DecidableEq

structure RfqConfirmReject where
  rfqId : String
  quoteId : String
  reason : RfqConfirmRejectReason
  reasonDetail : String
  deriving DecidableEq

structure RfqConfirmRequest where
  rfqId : String
  quoteId : String
  userParty : String
  settlementFee : Option AtomicFeeSpec

def RfqConfirmRequest.reject (req : RfqConfirmRequest) (reason : RfqConfirmRejectReason)
    (detail : String) : RfqConfirmReject :=
  ⟨req.rfqId, req.quoteId, reason, detail⟩

/-- `CONFIRM_ABANDONED_AFTER` -/
def confirmAbandonedAfter : Nat := seconds 300

/-- `TOMBSTONE_TTL` -/
def tombstoneTtl : Nat := seconds 300

/-- `RESERVE_ATTEMPTS` -/
def reserveAttempts : Nat := 3

/-- `i64::MAX` -/
def i64Max : Int := 2 ^ 63 - 1

/-- Reservation expiry and signed validity end, both counted from the confirm's start. -/
structure QuoteWindow where
  expiresAt : Instant
  validUntilMicros : Int

section Config

variable {K : Type} [Field K] [LinearOrder K]

/-- `none` where the window does not fit an `Instant` or the signed microseconds. -/
def RfqV2Config.quoteWindow (cfg : RfqV2Config K) (now : Instant) (startMicros : Int) :
    Option QuoteWindow :=
  let ttlSecs := cfg.atomicQuoteValidSecs + cfg.settleGraceSecs
  let expiresAt := now + seconds ttlSecs
  let validMicros : Int := cfg.atomicQuoteValidSecs * 1000000
  let validUntilMicros := startMicros + validMicros
  if u64Max < ttlSecs ∨ cfg.lastInstant < expiresAt ∨ i64Max < validMicros ∨
      i64Max < validUntilMicros then none
  else some ⟨expiresAt, validUntilMicros⟩

/-- Whether the confirm checks the price again before it counts the quote. -/
def RfqV2Config.rechecks (cfg : RfqV2Config K) (quote : LiveQuote) : Bool :=
  cfg.poolImpact quote.marketId && quote.poolInputs.any fun inputs => decide (0 < inputs.impactPct)

/-- Whether a quote needs a ticket; without a rate it does. -/
def RfqV2Config.ticketed (cfg : RfqV2Config K) (notionalUsd : Option ℚ) : Bool :=
  cfg.ticketThresholdUsd.any fun threshold => notionalUsd.all fun n => decide (n ≥ threshold)

end Config

def lmKey (quoteId : String) : String := "rfqv2:" ++ quoteId

/-- The base token of a market. -/
def baseToken (marketId : String) : String := ((marketId.splitOn "-").head?).getD ""

namespace RfqV2State

variable {D K E : Type} [Field K] [LinearOrder K]

/-! ## The resources of a quote -/

omit [Field K] [LinearOrder K] in
def setPending (s : RfqV2State D K E) (quoteId : String) (entry : PendingV2 E) : RfqV2State D K E :=
  { s with pending := s.pending.insert quoteId entry }

omit [Field K] [LinearOrder K] in
def removePending (s : RfqV2State D K E) (quoteId : String) : RfqV2State D K E :=
  { s with pending := s.pending.erase quoteId }

omit [Field K] [LinearOrder K] in
def releaseCommitment (s : RfqV2State D K E) (quoteId : String) : RfqV2State D K E :=
  { s with liquidityManager := s.liquidityManager.release (lmKey quoteId) }

omit [Field K] [LinearOrder K] in
def releaseReservations (s : RfqV2State D K E) (holdingCids : List String) : RfqV2State D K E :=
  { s with cache := s.cache.releaseReservations holdingCids }

/-- The tracker's `release`. -/
def releaseNet (cfg : RfqV2Config K) (s : RfqV2State D K E) (quoteId : String) (now : Int) :
    RfqV2State D K E :=
  { s with netPositions := s.netPositions.map fun t => t.release cfg.net quoteId now }

omit [Field K] [LinearOrder K] in
/-- `unassign` where `assigned` says that there is a ticket. -/
def unassignTicket (s : RfqV2State D K E) (quoteId : String) (assigned : Bool) : RfqV2State D K E :=
  if assigned then { s with ticketPool := s.ticketPool.map fun pool => pool.unassign quoteId } else s

/-- Count the quote's delta if `accept` passes the user's net. -/
def countConfirm (cfg : RfqV2Config K) (s : RfqV2State D K E) (quoteId : String)
    (userParty : Option String) (baseToken : String) (delta : K) (accept : K → Bool)
    (now applied : Int) : Bool × RfqV2State D K E :=
  match s.netPositions with
  | none => (accept 0, s)
  | some t =>
    let result := t.checkAndRecord cfg.net quoteId userParty baseToken delta accept now applied
    (result.1, { s with netPositions := some result.2 })

end RfqV2State

/-! ## Tasks -/

/-- A task waits in an await, or has returned. -/
inductive Step (T R : Type)
  | await (task : T)
  | done (result : R)

/-- What happens in one stretch of a handler: the state it leaves, and where it stands. -/
abbrev Stretch (D K E T R : Type) := RfqV2State D K E × Step T R

/-! ### Confirm -/

/-- A confirm that claimed its quote. -/
structure Claim where
  req : RfqConfirmRequest
  quote : LiveQuote
  now : Instant
  startMicros : Int

/-- The arguments of `release_on_reject` and the answer that follows; `claimed` tells
the confirm that holds the quote from one that found it past its validity. -/
structure Rejecting where
  quoteId : String
  claimed : Bool
  holdingCids : List String
  ticketAssigned : Bool
  reject : RfqConfirmReject

/-- What a running confirm waits for. -/
inductive ConfirmTask (D : Type)
  | mids (c : Claim)
  | staleness (c : Claim) (window : QuoteWindow)
  | commit (c : Claim) (window : QuoteWindow)
  | select (c : Claim) (window : QuoteWindow)
  | sleep (c : Claim) (window : QuoteWindow) (deadline : Instant)
  | poll (c : Claim) (window : QuoteWindow) (deadline : Instant)
  | reserve (c : Claim) (window : QuoteWindow) (found : List (CachedHolding D)) (lostRaces : Nat)
  | reselect (c : Claim) (window : QuoteWindow) (lostRaces : Nat)
  /-- The commitment is about to be released. -/
  | reject (r : Rejecting)
  /-- The holdings are about to be released. -/
  | rejectHoldings (r : Rejecting)
  /-- The same after the quote was lost to the sweep; the entry stays as it is. -/
  | withhold (r : Rejecting)
  | withholdHoldings (r : Rejecting)

/-- Why no envelope could be made. -/
inductive SealError
  | rendering
  | canonical (e : String)
  | signing (e : String)
  | keyMismatch

def SealError.reason : SealError → RfqConfirmRejectReason
  | .rendering => .internalError
  | .canonical _ => .venueUnavailable
  | .signing _ => .internalError
  | .keyMismatch => .venueUnavailable

def SealError.text : SealError → String
  | .rendering => "amount rendering failed"
  | .canonical e => "canonical build failed: " ++ e
  | .signing e => "quote signing failed: " ++ e
  | .keyMismatch => "quote key does not match on-ledger venue key (rotated?)"

/-- What other code answers in one stretch of a confirm. -/
structure ConfirmAnswers (D K E : Type) where
  /-- The monotonic clock. -/
  now : Instant
  /-- The wall clock in milliseconds, at the tracker's first and second reading. -/
  nowMs : Int
  appliedMs : Int
  nowMicros : Int
  /-- The feed has a finite positive mid for the market. -/
  midOk : Bool
  /-- The feed has the pool's depth. -/
  depth : Bool
  /-- The held price can be computed. -/
  heldInRange : Bool
  /-- Whether the held price is fair at a net position. -/
  accept : K → Bool
  /-- The age of a stale balance, in seconds. -/
  stale : Option Nat
  venueValidated : Bool
  picks : Option (List (CachedHolding D))
  splitInFlight : Bool
  /-- How long the confirm may wait for a split. -/
  deadline : Instant
  /-- The ticket that comes first in the map. -/
  ticket : String
  /-- The envelope, rendered, signed and verified. -/
  sealed : Except SealError E

namespace RfqV2State

variable {D K E : Type} [Field K] [LinearOrder K] (cfg : RfqV2Config K)

abbrev ConfirmStretch (D K E : Type) := Stretch D K E (ConfirmTask D) (Except RfqConfirmReject E)

omit [Field K] [LinearOrder K] in
/-- `release_on_reject` and the reject, up to the first await. -/
def rejectWith (s : RfqV2State D K E) (c : Claim) (holdingCids : List String) (ticketAssigned : Bool)
    (reason : RfqConfirmRejectReason) (detail : String) : ConfirmStretch D K E :=
  (s, .await (.reject
    ⟨c.req.quoteId, true, holdingCids, ticketAssigned, c.req.reject reason detail⟩))

/-- The signed base delta a confirm adds to the user's net position. -/
def signedDelta (quote : LiveQuote) : K :=
  cfg.toF64 quote.baseAmount * match quote.side with
    | .buy => 1
    | .sell => -1

/-- Count a claimed quote if `accept` passes. -/
def count (s : RfqV2State D K E) (c : Claim) (a : ConfirmAnswers D K E) (accept : K → Bool) :
    Bool × RfqV2State D K E :=
  s.countConfirm cfg c.req.quoteId c.quote.userParty (baseToken c.quote.marketId)
    (signedDelta cfg c.quote) accept a.nowMs a.appliedMs

/-- The validity window must be representable before anything is committed. -/
def checkWindow (s : RfqV2State D K E) (c : Claim) : ConfirmStretch D K E :=
  match cfg.quoteWindow c.now c.startMicros with
  | none => s.rejectWith c [] false .internalError "quote validity window out of range"
  | some window => (s, .await (.staleness c window))

/-- A confirm up to its first await: the lookup, the claim and the first count. -/
def handleConfirm (s : RfqV2State D K E) (req : RfqConfirmRequest) (startMicros : Int)
    (a : ConfirmAnswers D K E) : ConfirmStretch D K E :=
  match s.pending.lookup req.quoteId with
  | none => (s, .done (.error (req.reject .quoteNotFound "unknown quote_id")))
  | some (.confirmed c) =>
    match c.envelope with
    | some envelope => (s, .done (.ok envelope))
    | none => (s, .done (.error (req.reject .quoteNotFound "LP restarted — envelope state lost")))
  | some (.confirming _) =>
    (s, .done (.error (req.reject .internalError "confirm already in progress")))
  | some (.settled _) | some (.expired _) =>
    (s, .done (.error (req.reject .quoteExpired "quote no longer live")))
  | some (.indicative quote validUntil) =>
    if a.now ≥ validUntil then
      (s, .await (.reject
        ⟨req.quoteId, false, [], false, req.reject .quoteExpired "indicative quote expired"⟩))
    else if req.settlementFee ≠ quote.settlementFee then
      (s, .done (.error (req.reject .internalError
        "confirm settlement_fee does not match the RFQ-time fee")))
    else
      let c : Claim := ⟨req, quote, a.now, startMicros⟩
      let s := s.setPending req.quoteId (.confirming a.now)
      let s := if cfg.midPrices && cfg.rechecks quote then s else (s.count cfg c a fun _ => true).2
      if cfg.midPrices then (s, .await (.mids c)) else s.checkWindow cfg c

/-- With the mids: the price must still stand, and is counted in the same step. -/
def resumeMids (s : RfqV2State D K E) (c : Claim) (a : ConfirmAnswers D K E) :
    ConfirmStretch D K E :=
  if a.midOk = false then
    s.rejectWith c [] false .quoteExpired
      ("no reliable price for " ++ c.quote.marketId ++ " — quote withdrawn")
  else if cfg.rechecks c.quote then
    if a.depth then
      if 0 < c.quote.baseAmount ∧ a.heldInRange = false then
        s.rejectWith c [] false .quoteExpired
          ("price out of range for " ++ c.quote.marketId ++ " — quote withdrawn")
      else
        let (accepted, s) := s.count cfg c a a.accept
        if accepted then s.checkWindow cfg c
        else
          s.rejectWith c [] false .quoteExpired
            ("market moved since quote for " ++ c.quote.marketId ++ " — quote withdrawn")
    else (s.count cfg c a fun _ => true).2.checkWindow cfg c
  else s.checkWindow cfg c

omit [Field K] [LinearOrder K] in
def resumeStaleness (s : RfqV2State D K E) (c : Claim) (window : QuoteWindow)
    (a : ConfirmAnswers D K E) : ConfirmStretch D K E :=
  match a.stale with
  | some age =>
    s.rejectWith c [] false .quoteExpired
      ("balances stale for " ++ toString age ++ "s — quote withdrawn")
  | none => (s, .await (.commit c window))

/-- The funds commitment, then the venue and the market's instruments. -/
def resumeCommit (s : RfqV2State D K E) (c : Claim) (window : QuoteWindow)
    (a : ConfirmAnswers D K E) : ConfirmStretch D K E :=
  match s.liquidityManager.tryCommit (lmKey c.req.quoteId) c.quote.lpPaysToken c.quote.lpPays.2 0 with
  | .error e =>
    s.rejectWith c [] false .insufficientHoldings ("liquidity commit failed: " ++ e.text cfg.fixed4)
  | .ok liquidityManager =>
    let s := { s with liquidityManager }
    if a.venueValidated = false then
      s.rejectWith c [] false .venueUnavailable "no validated AtomicDVP venue for market"
    else match cfg.marketInstruments c.quote.marketId with
      | none => s.rejectWith c [] false .venueUnavailable "market instruments unresolved"
      | some _ => (s, .await (.select c window))

omit [Field K] [LinearOrder K] in
def noHoldings (s : RfqV2State D K E) (c : Claim) : ConfirmStretch D K E :=
  s.rejectWith c [] false .insufficientHoldings "insufficient disclosable holdings"

omit [Field K] [LinearOrder K] in
/-- With the first selection: an empty one may wait for a split. -/
def resumeSelect (s : RfqV2State D K E) (c : Claim) (window : QuoteWindow)
    (a : ConfirmAnswers D K E) : ConfirmStretch D K E :=
  match a.picks with
  | some found => (s, .await (.reserve c window found 0))
  | none =>
    if a.splitInFlight ∧ a.now < a.deadline then (s, .await (.sleep c window a.deadline))
    else s.noHoldings c

omit [Field K] [LinearOrder K] in
def resumePoll (s : RfqV2State D K E) (c : Claim) (window : QuoteWindow) (deadline : Instant)
    (a : ConfirmAnswers D K E) : ConfirmStretch D K E :=
  match a.picks with
  | some found => (s, .await (.reserve c window found 0))
  | none =>
    if a.now < deadline then (s, .await (.sleep c window deadline)) else s.noHoldings c

omit [Field K] [LinearOrder K] in
def resumeReselect (s : RfqV2State D K E) (c : Claim) (window : QuoteWindow) (lostRaces : Nat)
    (a : ConfirmAnswers D K E) : ConfirmStretch D K E :=
  match a.picks with
  | some found => (s, .await (.reserve c window found lostRaces))
  | none => s.noHoldings c

/-- Issue the envelope if the quote is still this confirm's. -/
def issue (s : RfqV2State D K E) (c : Claim) (window : QuoteWindow) (holdingCids : List String)
    (ticket : Option (String × TicketEntry)) (envelope : E) (a : ConfirmAnswers D K E) :
    ConfirmStretch D K E :=
  let ticketCid := ticket.map fun t => t.2.contractId
  match s.pending.lookup c.req.quoteId with
  | some (.confirming _) =>
    let s := s.setPending c.req.quoteId (.confirmed
      { holdingCids
        ticketId := (ticket.map Prod.fst).getD ""
        ticketCid
        envelope := some envelope
        validUntilMicros := window.validUntilMicros
        lpPaysToken := c.quote.lpPaysToken
        lpPaysAmount := c.quote.lpPays.2
        expiresAt := window.expiresAt
        marketId := c.quote.marketId })
    let s := { s with
      correlation := s.correlation.insertAll
        ((holdingCids ++ ticketCid.toList).map (·, c.req.quoteId)) }
    ((s.count cfg c a fun _ => true).2, .done (.ok envelope))
  | _ =>
    (s, .await (.withhold ⟨c.req.quoteId, true, holdingCids, ticket.isSome,
      c.req.reject .internalError "confirm abandoned — quote withdrawn"⟩))

/-- The holdings are reserved: the ticket, the envelope, and its issue. -/
def finishConfirm (s : RfqV2State D K E) (c : Claim) (window : QuoteWindow)
    (holdingCids : List String) (ticket : Option (String × TicketEntry))
    (a : ConfirmAnswers D K E) : ConfirmStretch D K E :=
  if a.nowMicros ≥ window.validUntilMicros then
    s.rejectWith c holdingCids ticket.isSome .quoteExpired "quote validity elapsed during confirm"
  else match a.sealed with
    | .error e => s.rejectWith c holdingCids ticket.isSome e.reason e.text
    | .ok envelope => s.issue cfg c window holdingCids ticket envelope a

def reserved (s : RfqV2State D K E) (c : Claim) (window : QuoteWindow) (holdingCids : List String)
    (a : ConfirmAnswers D K E) : ConfirmStretch D K E :=
  if cfg.ticketed c.quote.notionalUsd then
    match s.ticketPool.bind fun pool => pool.assign c.req.quoteId window.expiresAt a.ticket with
    | none => s.rejectWith c holdingCids false .noTicketAvailable "ticket pool empty"
    | some (ticket, pool) =>
      { s with ticketPool := some pool }.finishConfirm cfg c window holdingCids (some ticket) a
  else s.finishConfirm cfg c window holdingCids none a

def resumeReserve (s : RfqV2State D K E) (c : Claim) (window : QuoteWindow)
    (found : List (CachedHolding D)) (lostRaces : Nat) (a : ConfirmAnswers D K E) :
    ConfirmStretch D K E :=
  let cids := found.map CachedHolding.contractId
  let (granted, cache) := s.cache.reserveV2 cids c.req.quoteId window.expiresAt a.now
  if granted then { s with cache }.reserved cfg c window cids a
  else if lostRaces + 1 ≥ reserveAttempts then
    s.rejectWith c [] false .insufficientHoldings "holdings reservation raced"
  else (s, .await (.reselect c window (lostRaces + 1)))

omit [Field K] [LinearOrder K] in
/-- The end of `release_on_reject`. -/
def endReject (s : RfqV2State D K E) (r : Rejecting) : ConfirmStretch D K E :=
  ((s.unassignTicket r.quoteId r.ticketAssigned).removePending r.quoteId, .done (.error r.reject))

/-- The commitment and the net position are released together. -/
def releaseFunds (s : RfqV2State D K E) (quoteId : String) (nowMs : Int) : RfqV2State D K E :=
  (s.releaseCommitment quoteId).releaseNet cfg quoteId nowMs

def resumeConfirm (s : RfqV2State D K E) (a : ConfirmAnswers D K E) :
    ConfirmTask D → ConfirmStretch D K E
  | .mids c => s.resumeMids cfg c a
  | .staleness c window => s.resumeStaleness c window a
  | .commit c window => s.resumeCommit cfg c window a
  | .select c window => s.resumeSelect c window a
  | .sleep c window deadline => (s, .await (.poll c window deadline))
  | .poll c window deadline => s.resumePoll c window deadline a
  | .reserve c window found lostRaces => s.resumeReserve cfg c window found lostRaces a
  | .reselect c window lostRaces => s.resumeReselect c window lostRaces a
  | .reject r =>
    let s := s.releaseFunds cfg r.quoteId a.nowMs
    if r.holdingCids = [] then s.endReject r else (s, .await (.rejectHoldings r))
  | .rejectHoldings r => (s.releaseReservations r.holdingCids).endReject r
  | .withhold r => (s.releaseFunds cfg r.quoteId a.nowMs, .await (.withholdHoldings r))
  | .withholdHoldings r =>
    ((s.releaseReservations r.holdingCids).unassignTicket r.quoteId r.ticketAssigned,
      .done (.error r.reject))

end RfqV2State

/-! ### Indicative quotes -/

structure PricedQuote where
  quantity : ℚ
  quoteQuantity : ℚ
  /-- The liquidity manager's token and the amount the LP pays. -/
  lpPays : String × ℚ
  notionalUsd : Option ℚ
  validForSecs : Nat
  poolPricing : Option PoolPricingSnapshot

/-- The arguments of `register_indicative`. -/
structure RegisterCall where
  quoteId : String
  marketId : String
  side : QuoteSide
  priced : PricedQuote
  settlementFee : Option AtomicFeeSpec
  userParty : Option String

inductive RegisterTask
  | available (call : RegisterCall) (lpPaysKey : String)
  | select (call : RegisterCall) (lpPaysKey : String) (validUntil : Instant)

namespace RfqV2State

variable {D K E : Type} [Field K] [LinearOrder K] (cfg : RfqV2Config K)

abbrev RegisterStretch (D K E : Type) := Stretch D K E RegisterTask (Except String Unit)

def registerIndicative (s : RfqV2State D K E) (call : RegisterCall) : RegisterStretch D K E :=
  match cfg.marketInstruments call.marketId with
  | none =>
    (s, .done (.error ("market " ++ call.marketId ++ " not configured for atomic RFQ")))
  | some mi =>
    let lpPaysKey := match call.side with
      | .buy => mi.baseKey
      | .sell => mi.quoteKey
    (s, .await (.available call lpPaysKey))

/-- The availability check is advisory; the entry is written after the last await. -/
def resumeRegister (s : RfqV2State D K E) (now : Instant) : RegisterTask → RegisterStretch D K E
  | .available call lpPaysKey =>
    let (token, amount) := call.priced.lpPays
    let avail := s.liquidityManager.available token
    if avail < amount then
      (s, .done (.error ("insufficient " ++ token ++ " (" ++ cfg.fixed4 avail ++ " available, " ++
        cfg.fixed4 amount ++ " needed)")))
    else
      let validUntil := now + seconds call.priced.validForSecs
      if cfg.lastInstant < validUntil then
        (s, .done (.error ("quote validity " ++ toString call.priced.validForSecs ++
          "s out of range")))
      else (s, .await (.select call lpPaysKey validUntil))
  | .select call lpPaysKey validUntil =>
    (s.setPending call.quoteId (.indicative
      { marketId := call.marketId
        side := call.side
        baseAmount := call.priced.quantity
        quoteAmount := call.priced.quoteQuantity
        lpPays := (lpPaysKey, call.priced.lpPays.2)
        lpPaysToken := call.priced.lpPays.1
        notionalUsd := call.priced.notionalUsd
        settlementFee := call.settlementFee
        userParty := call.userParty
        poolInputs := call.priced.poolPricing } validUntil), .done (.ok ()))

/-! ### Settles -/

end RfqV2State

inductive SettleTask
  /-- The outflow is about to be recorded. -/
  | outflow (quoteId : String) (ticketed : Bool)
  | release (quoteId : String)

namespace RfqV2State

variable {D K E : Type} [Field K] [LinearOrder K] (cfg : RfqV2Config K)

abbrev SettleStretch (D K E : Type) := Stretch D K E SettleTask Unit

omit [Field K] [LinearOrder K] in
/-- After the outflow: the ticket, then the commitment. -/
def spendTicket (s : RfqV2State D K E) (quoteId : String) (ticketed : Bool) : SettleStretch D K E :=
  let s := if ticketed then
      { s with ticketPool := s.ticketPool.map fun pool => pool.markSpent quoteId }
    else s
  (s, .await (.release quoteId))

omit [Field K] [LinearOrder K] in
/-- The watcher saw a holding of the quote consumed. A restored quote has no token. -/
def handleSettleObserved (s : RfqV2State D K E) (quoteId : String) (now : Instant) :
    SettleStretch D K E :=
  match s.pending.lookup quoteId with
  | some (.confirmed c) =>
    let s := s.setPending quoteId (.settled now)
    let ticketed := decide (c.ticketId ≠ "")
    if c.lpPaysToken ≠ "" then (s, .await (.outflow quoteId ticketed))
    else s.spendTicket quoteId ticketed
  | _ => (s, .done ())

/-- The flow averages are no part of the model's liquidity manager. -/
def resumeSettle (s : RfqV2State D K E) : SettleTask → SettleStretch D K E
  | .outflow quoteId ticketed => s.spendTicket quoteId ticketed
  | .release quoteId =>
    let s := s.releaseCommitment quoteId
    ({ s with netPositions := s.netPositions.map fun t => t.settle quoteId }, .done ())

end RfqV2State

/-! ### The sweep -/

structure Release where
  quoteId : String
  lm : Bool
  holdingCids : List String
  ticket : Bool

inductive SweepTask
  /-- The first quote's commitment is about to be released. -/
  | funds (now : Instant) (r : Release) (rest : List Release)
  | holdings (now : Instant) (r : Release) (rest : List Release)

/-- What the sweep at `now` does to an entry. -/
inductive Sweep
  | keep
  | expire (r : Release)
  | collect

def PendingV2.sweep {E : Type} (quoteId : String) (now : Instant) : PendingV2 E → Sweep
  | .indicative _ validUntil =>
    if now ≥ validUntil then .expire ⟨quoteId, false, [], false⟩ else .keep
  | .confirmed c =>
    if now ≥ c.expiresAt then
      .expire ⟨quoteId, true, c.holdingCids, decide (c.ticketId ≠ "")⟩
    else .keep
  | .confirming since =>
    if now - since > confirmAbandonedAfter then .expire ⟨quoteId, true, [], true⟩ else .keep
  | .settled since | .expired since => if now - since > tombstoneTtl then .collect else .keep

namespace RfqV2State

variable {D K E : Type} [Field K] [LinearOrder K] (cfg : RfqV2Config K)

abbrev SweepStretch (D K E : Type) := Stretch D K E SweepTask Unit

/-- The clocks a stretch of the sweep reads for the net tracker. -/
structure SweepAnswers where
  nowMs : Int
  cutoffMs : Int
  reversalMs : Nat → Int
  decayMs : Int

/-- The housekeeping after the last release: tickets, stale pendings, decayed nets. -/
def endSweep (s : RfqV2State D K E) (now : Instant)
    (order : List (String × NetPosition.PendingNet K) → List (String × NetPosition.PendingNet K))
    (a : SweepAnswers) : RfqV2State D K E :=
  { s with
    ticketPool := s.ticketPool.map fun pool => pool.expireAssignments now
    netPositions := s.netPositions.map fun t =>
      ((t.expireStalePending cfg.net a.cutoffMs order a.reversalMs).sweepDecayed cfg.net
        a.decayMs).2 }

/-- Release one quote after another, up to the next await. -/
def releaseAll (s : RfqV2State D K E) (now : Instant)
    (order : List (String × NetPosition.PendingNet K) → List (String × NetPosition.PendingNet K))
    (a : SweepAnswers) : List Release → SweepStretch D K E
  | [] => (s.endSweep cfg now order a, .done ())
  | r :: rest =>
    if r.lm then (s, .await (.funds now r rest))
    else if r.holdingCids ≠ [] then (s, .await (.holdings now r rest))
    else releaseAll (s.unassignTicket r.quoteId r.ticket) now order a rest

/-- What becomes of an entry: gone, expired, or as it was. -/
def sweepEntry (now : Instant) (quoteId : String) (entry : PendingV2 E) : PendingV2 E :=
  match entry.sweep quoteId now with
  | .expire _ => .expired now
  | _ => entry

/-- The releases of a sweep. -/
def sweepReleases (s : RfqV2State D K E) (now : Instant) : List Release :=
  s.pending.toPairs.filterMap fun e =>
    match e.2.sweep e.1 now with
    | .expire r => some r
    | _ => none

/-- Whether the sweep drops an entry. -/
def collects (now : Instant) (quoteId : String) (entry : PendingV2 E) : Bool :=
  match entry.sweep quoteId now with
  | .collect => true
  | _ => false

/-- `visit` gives the order in which the map is visited. -/
def sweep (s : RfqV2State D K E) (now : Instant) (visit : List Release → List Release)
    (order : List (String × NetPosition.PendingNet K) → List (String × NetPosition.PendingNet K))
    (a : SweepAnswers) : SweepStretch D K E :=
  let gc : String → Bool := fun q => (s.pending.lookup q).any (collects now q)
  let swept : RfqV2State D K E :=
    { s with
      pending := (s.pending.retain fun q entry => !collects now q entry).mapVal (sweepEntry now)
      correlation := s.correlation.retain fun _ q => !gc q }
  swept.releaseAll cfg now order a (visit (s.sweepReleases now))

def resumeSweep (s : RfqV2State D K E)
    (order : List (String × NetPosition.PendingNet K) → List (String × NetPosition.PendingNet K))
    (a : SweepAnswers) : SweepTask → SweepStretch D K E
  | .funds now r rest =>
    let s := s.releaseFunds cfg r.quoteId a.nowMs
    if r.holdingCids ≠ [] then (s, .await (.holdings now r rest))
    else (s.unassignTicket r.quoteId r.ticket).releaseAll cfg now order a rest
  | .holdings now r rest =>
    ((s.releaseReservations r.holdingCids).unassignTicket r.quoteId r.ticket).releaseAll cfg now
      order a rest

/-! ### Persistence -/

end RfqV2State

structure SavedPendingV2 where
  quoteId : String
  marketId : String
  holdingCids : List String
  ticketId : String
  validUntilMicros : Int

/-- `RFQ_V2_MAX_QUOTE_VALID_SECS` -/
def maxQuoteValidSecs : Nat := 3600

/-- `RFQ_V2_MAX_SETTLE_GRACE_SECS` -/
def maxSettleGraceSecs : Nat := 3600

/-- The longest reservation a restart restores. -/
def restoreTtlCap : Nat := seconds (maxQuoteValidSecs + maxSettleGraceSecs)

def micros (n : Nat) : Nat := n * 1000

namespace RfqV2State

variable {D K E : Type} [Field K] [LinearOrder K] (cfg : RfqV2Config K)

def saveQuote (quoteId : String) : PendingV2 E → Option SavedPendingV2
  | .confirmed c => some ⟨quoteId, c.marketId, c.holdingCids, c.ticketId, c.validUntilMicros⟩
  | _ => none

omit [Field K] [LinearOrder K] in
/-- The confirmed quotes. -/
def snapshotPending (s : RfqV2State D K E) : List SavedPendingV2 :=
  s.pending.toPairs.filterMap fun e => saveQuote e.1 e.2

/-- One saved quote at `nowMicros` on the wall clock, `now` on the monotonic one. -/
def restoreOne (s : RfqV2State D K E) (nowMicros : Int) (now : Instant) (p : SavedPendingV2) :
    RfqV2State D K E :=
  let graceMicros := min (min (cfg.settleGraceSecs : Int) i64Max * 1000000) i64Max
  let remainingMicros := min (p.validUntilMicros + graceMicros) i64Max - nowMicros
  if remainingMicros ≤ 0 then s
  else
    let remaining := min (micros remainingMicros.toNat) restoreTtlCap
    let expiresAt := now + remaining
    if cfg.lastInstant < expiresAt then s
    else
      { s with
        cache := s.cache.restoreV2Reservation p.holdingCids p.quoteId expiresAt now
        correlation := s.correlation.insertAll (p.holdingCids.map (·, p.quoteId))
        pending := s.pending.insert p.quoteId (.confirmed
          { holdingCids := p.holdingCids
            ticketId := p.ticketId
            ticketCid := none
            envelope := none
            validUntilMicros := p.validUntilMicros
            lpPaysToken := ""
            lpPaysAmount := 0
            expiresAt
            marketId := p.marketId }) }

/-- Restore the confirmed quotes; the monotonic clock is read for each. -/
def restorePending (s : RfqV2State D K E) (nowMicros : Int) (clock : Nat → Instant) :
    List SavedPendingV2 → RfqV2State D K E
  | [] => s
  | p :: saved =>
    (s.restoreOne cfg nowMicros (clock 0) p).restorePending nowMicros (fun i => clock (i + 1)) saved

end RfqV2State

end BookAgent.CloudAgent
