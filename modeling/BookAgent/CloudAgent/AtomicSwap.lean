import BookAgent.AtomicQuote.Envelope
import BookAgent.CloudAgent.RfqV2
import BookAgent.CloudAgent.Selection
import BookAgent.CloudAgent.SubmitAtomic

/-!
# The atomic settle

`settle_envelope_with` of `atomic_swap.rs`: check the envelope, select and reserve own
holdings, submit, and classify how the submit ends. What the ledger, the user, the clocks and
the other tasks answer is given; the submit is a parameter, as it is in the source. From the
reservation on the cache is changed by the settle only.
-/

namespace BookAgent.CloudAgent

open BookAgent.Lib BookAgent.AtomicQuote BookAgent.TxVerifier

/-! ## Messages -/

structure AtomicAcsContract where
  contractId : String
  templateId : String
  createdEventBlob : String
  payloadJson : String

/-- The signed quote as it is transported. -/
structure AtomicQuote where
  quoteId : String
  ticketId : String
  user : String
  side : String
  baseAmount : String
  quoteAmount : String
  createdAtMicros : Int64
  validUntilMicros : Int64
  lpFees : List AtomicFeeSpec

structure AtomicDisclosedContract where
  contractId : String
  templateId : String
  createdEventBlob : String
  synchronizerId : String

structure AtomicQuoteEnvelope where
  version : String
  synchronizerId : String
  dvp : Option AtomicAcsContract
  quote : Option AtomicQuote
  canonicalMessage : String
  quoteSignature : String
  ticket : Option AtomicAcsContract
  lpInputHoldingCids : List String
  disclosed : List AtomicDisclosedContract

/-- The indicative quote the user accepted. -/
structure AtomicQuoteInfo where
  lpName : String
  lpPartyId : String
  quantity : String
  quoteQuantity : String
  settlementFee : Option AtomicFeeSpec

structure AtomicDvpSettleParams where
  venueCid : String
  quote : Option AtomicQuote
  quoteSignatureDerHex : String
  canonicalMessage : String
  lpParty : String
  pairName : String
  baseInstrumentId : String
  baseInstrumentAdmin : String
  quoteInstrumentId : String
  quoteInstrumentAdmin : String
  quotePublicKeySpkiHex : String
  ticketCid : Option String
  lpInputHoldingCids : List String
  envelopeDisclosures : List AtomicDisclosedContract
  userInputHoldingCids : List String
  synchronizerId : String
  lpFees : List AtomicFeeSpec

inductive FillDirection
  | buy
  | sell
  deriving DecidableEq

/-- A committed fill; the filled quantity is the number that the source rounds to a float. -/
structure AtomicFill (D : Type) where
  updateId : String
  filledBase : D

/-- Outcome of one envelope settle attempt. -/
inductive SwapOutcome (D : Type)
  | filled (fill : AtomicFill D)
  | requote (reason : String)
  | abort (reason : String)
  | dryRun

/-- The libraries a settle relies on. -/
class SwapCrates (D : Type) extends EnvelopeCrates D where
  /-- `serde_json::from_str` -/
  parseJson : String → Except String Json

/-! ## What is answered -/

inductive ReconcileStatus
  | consumed
  | live
  | unknown
  deriving DecidableEq

structure PollAnswers where
  connect : Except String Unit
  /-- The active contracts, or an error, at each poll. -/
  activeContracts : Nat → Except String (List String)

/-- How a submit that was still running ends while its inputs are polled. -/
inductive LateSubmit
  | running
  | finished (result : Except String AtomicExecuteResponse)
  | endedAbnormally (why : String)

/-- What is seen of a submit in its own task. -/
inductive SubmitWatch
  | done (result : Except String AtomicExecuteResponse)
  | notStarted
  | endedAbnormally (why : String)
  | noResultWithin (wait : String) (late : LateSubmit)

structure RoundAnswers (D : Type) where
  watch : SubmitWatch
  polls : PollAnswers
  /-- The time in microseconds after a failure. -/
  nowMicros : Int
  consumedAt : Instant
  /-- The created holdings that are adopted after a fill. -/
  adopted : List (CachedHolding D)
  /-- Whether an execute of this submit commits, then or later; the settle does not see it. -/
  commits : Bool

inductive ConnectAnswer
  | ready
  | failed (error : String)
  | late (wait : String)

/-- The (verbose, dry_run, force) flags of a submit. -/
abbrev SubmitFlags := Bool × Bool × Bool

structure SettleAnswers (D : Type) where
  /-- The time in microseconds at the pre-check. -/
  nowMicros : Int
  /-- The cache as each try of a leg's selection finds it: the pay leg, then each fee. -/
  tries : Nat → List (HoldingsCache D × Instant)
  /-- What `selection_failure_detail` says of a leg. -/
  failureDetail : Nat → String
  /-- The cache when the inputs are reserved. -/
  cache : HoldingsCache D
  reserveAt : Instant
  reserveMicros : Int
  confirmed : Except String Unit
  /-- The client; one from a backfill is ready. -/
  client : ConnectAnswer
  beforeSubmit : Bool
  submit : AtomicDvpSettleParams → OperationExpectation → SubmitFlags → Nat → RoundAnswers D

/-- Taker-side driver for the atomic settle round. -/
structure AtomicSwapper where
  partyId : String
  synchronizerId : String
  spendReserve : Bool
  verbose : Bool
  dryRun : Bool
  force : Bool
  confirm : Bool

/-! ## Envelope conversion -/

section Settle

variable {D : Type} [SwapCrates D]

open SwapCrates (parseJson)
open EnvelopeCrates (fromStr)

def acsFromProto (D : Type) [SwapCrates D] (c : AtomicAcsContract) :
    Except String AcsContractJson := do
  let payload ← (parseJson D c.payloadJson).mapError fun e =>
    s!"invalid payload_json on contract {c.contractId}: {e}"
  return ⟨c.contractId, c.templateId, c.createdEventBlob, payload⟩

def quoteFromProto (quote : AtomicQuote) : QuoteJson where
  quoteId := quote.quoteId
  ticketId := quote.ticketId
  user := quote.user
  side := quote.side
  baseAmount := quote.baseAmount
  quoteAmount := quote.quoteAmount
  createdAtMicros := toString quote.createdAtMicros
  validUntilMicros := toString quote.validUntilMicros
  lpFees :=
    if quote.lpFees.isEmpty then none
    else some (quote.lpFees.map fun f => ⟨f.receiver, ⟨f.instrumentAdmin, f.instrumentId⟩, f.amount⟩)

def disclosedFromProto (d : AtomicDisclosedContract) : Json :=
  .object [("contractId", .string d.contractId), ("templateId", .string d.templateId),
    ("createdEventBlob", .string d.createdEventBlob), ("synchronizerId", .string d.synchronizerId)]

def envelopeFromProto (D : Type) [SwapCrates D] (env : AtomicQuoteEnvelope) :
    Except String QuoteEnvelope := do
  let dvp ← context "envelope missing dvp contract" env.dvp
  let quote ← context "envelope missing quote" env.quote
  let dvpJson ← acsFromProto D dvp
  let ticket ← (match env.ticket with
    | none => pure none
    | some t => some <$> acsFromProto D t : Except String (Option AcsContractJson))
  return {
    version := env.version
    synchronizerId := env.synchronizerId
    dvp := dvpJson
    quote := quoteFromProto quote
    canonicalMessage := env.canonicalMessage
    quoteSignature := env.quoteSignature
    ticket
    lpInputHoldingCids := env.lpInputHoldingCids
    disclosed := env.disclosed.map disclosedFromProto }

/-! ## The checks before a reservation -/

/-- How a settle can end before it has reserved anything. -/
inductive EarlyEnd
  | failed (error : String)
  | requote (reason : String)

def EarlyEnd.result : EarlyEnd → Except String (SwapOutcome D)
  | failed error => .error error
  | requote reason => .ok (.requote reason)

/-- A computation that may end the settle. -/
abbrev Early (α : Type) := Except EarlyEnd α

def requote {α : Type} (reason : String) : Early α := .error (.requote reason)

/-- `?` on a plain error. -/
def orEnd {α : Type} (x : Except String α) : Early α := x.mapError .failed

/-- The longest signed validity accepted, in microseconds. -/
def maxAcceptedValidityMicros : Int := 3900000000

/-- Why a signed validity that ends too far ahead is refused. -/
def validityTooFar (validUntil now : Int) : Option String :=
  if validUntil - now ≤ maxAcceptedValidityMicros ∧ -2 ^ 63 ≤ validUntil - now then none
  else some s!"signed validity ends at {validUntil} µs, more than 3900s ahead (now {now} µs)"

/-- A text field of the venue, as the settle reads it. -/
def venue (env : QuoteEnvelope) (path : List String) : Except String String :=
  context ("AtomicDVP venue payload missing " ++ Json.pointerText path)
    ((env.dvp.payload.pointer path).bind Json.asStr)

/-- What a settle is about, once the envelope is accepted. -/
structure SettleTerms (D : Type) where
  env : QuoteEnvelope
  validUntilMicros : Int64
  lpParty : String
  baseAmount : D
  quoteAmount : D
  signedFees : List AtomicFeeSpec

def FillDirection.side : FillDirection → String
  | buy => "Buy"
  | sell => "Sell"

/-- The envelope is converted and passes the pre-check within the accepted validity. -/
def checkedEnvelope (D : Type) [SwapCrates D] (swapper : AtomicSwapper)
    (envelope : AtomicQuoteEnvelope) (nowMicros : Int) : Early (QuoteEnvelope × Int64) := do
  let env ← orEnd (envelopeFromProto D envelope)
  match preSubmitCheck D env swapper.partyId swapper.synchronizerId nowMicros
      precheckValidityMarginMicros with
  | .error e => requote ("H14 pre-check failed: " ++ e)
  | .ok () =>
    let validUntil ← orEnd (parseInt64 env.quote.validUntilMicros)
    match validityTooFar validUntil.toInt nowMicros with
    | some reason => requote reason
    | none => return (env, validUntil)

def withContext {α : Type} (what : String) (x : Except String α) : Except String α :=
  x.mapError fun e => s!"{what}: {e}"

/-- The signed terms are those the user accepted. -/
def acceptedTerms (env : QuoteEnvelope) (validUntilMicros : Int64) (signedFees : List AtomicFeeSpec)
    (accepted : AtomicQuoteInfo) (direction : FillDirection) : Early (SettleTerms D) := do
  let lpParty ← orEnd (venue env ["lp"])
  if lpParty ≠ accepted.lpPartyId then
    requote s!"H14: venue lp {lpParty} does not match the quoted LP {accepted.lpPartyId}"
  else
    let baseAmount : D ← orEnd (withContext s!"invalid base_amount '{env.quote.baseAmount}'"
      (fromStr env.quote.baseAmount))
    let quoteAmount : D ← orEnd (withContext s!"invalid quote_amount '{env.quote.quoteAmount}'"
      (fromStr env.quote.quoteAmount))
    let acceptedBase : D ← orEnd (withContext s!"invalid accepted quantity '{accepted.quantity}'"
      (fromStr accepted.quantity))
    let acceptedQuote : D ← orEnd (withContext
      s!"invalid accepted quote_quantity '{accepted.quoteQuantity}'" (fromStr accepted.quoteQuantity))
    if Decimal.value baseAmount ≠ Decimal.value acceptedBase ∨
        Decimal.value quoteAmount ≠ Decimal.value acceptedQuote then
      let signed := DecimalText.toString baseAmount ++ ", " ++ DecimalText.toString quoteAmount
      let shown := DecimalText.toString acceptedBase ++ ", " ++ DecimalText.toString acceptedQuote
      requote s!"H14: signed amounts ({signed}) differ from accepted quote ({shown})"
    else if env.quote.side ≠ direction.side then
      requote s!"H14: quote side {env.quote.side} != {direction.side}"
    else if signedFees ≠ accepted.settlementFee.toList then
      -- the source prints both lists as well
      requote "signed lpFees differ from the displayed settlement fee"
    else return ⟨env, validUntilMicros, lpParty, baseAmount, quoteAmount, signedFees⟩

/-! ## Own inputs -/

def ccInstrument : String := "CC"

def instrumentKey (admin id : String) : String := admin ++ "::" ++ id

/-- The cache's key of an instrument. -/
def cacheKey (admin id : String) : String :=
  if id = "Amulet" then ccInstrument else instrumentKey admin id

/-- An instrument, by admin and id. -/
abbrev Instrument := String × String

/-- Canton Coin is unique by its id, another instrument matches on both. -/
def feeMatches (fee other : Instrument) : Bool :=
  decide (fee.2 = other.2) && (decide (fee.2 = "Amulet") || decide (fee.1 = other.1))

/-- Add to the total of an instrument; none out of range. -/
def addFee (key : Instrument) (amount : D) : List (Instrument × D) → Option (List (Instrument × D))
  | [] => some [(key, amount)]
  | (k, total) :: rest =>
    if k = key then (Decimal.checkedAdd total amount).map fun sum => (k, sum) :: rest
    else (addFee key amount rest).map ((k, total) :: ·)

/-- The fees of each instrument; an amount that is no decimal is left out. -/
def feeTotals : List AtomicFeeSpec → List (Instrument × D) → Early (List (Instrument × D))
  | [], totals => .ok totals
  | f :: fees, totals =>
    match fromStr (D := D) f.amount with
    | .error _ => feeTotals fees totals
    | .ok amount =>
      match addFee (f.instrumentAdmin, f.instrumentId) amount totals with
      | none => requote s!"settlement fee total in {f.instrumentId} is out of range"
      | some totals => feeTotals fees totals

/-- What has to be selected for a fee: Canton Coin with headroom for the sender fee. -/
def feeTarget (id : String) (total : D) : Option D :=
  if id = "Amulet" then do
    let padded ← Decimal.checkedMul total (Decimal.new 102 2)
    Decimal.checkedAdd padded Decimal.one
  else some total

/-- One leg's selection, over the tries that the backfill and the waiting give it. -/
def selectLeg (swapper : AtomicSwapper) (key : String) (target : D) (maxInputs : Nat) (isCc : Bool)
    (tries : List (HoldingsCache D × Instant)) : Option (List (CachedHolding D)) :=
  tries.findSome? fun found =>
    found.1.selectForDisclosureWith key target maxInputs isCc swapper.spendReserve found.2

/-- Fund the fees in other instruments than the pay leg's: proceeds that suffice, or holdings. -/
def fundFees (swapper : AtomicSwapper) (w : SettleAnswers D) (pay receive : Instrument)
    (receiveAmount : D) (maxInputs : Nat) :
    List (Instrument × D) → (leg : Nat) → List (CachedHolding D) → Early (List (CachedHolding D))
  | [], _, picks => .ok picks
  | (fee, total) :: rest, leg, picks =>
    if feeMatches fee pay then fundFees swapper w pay receive receiveAmount maxInputs rest leg picks
    else
      match feeTarget fee.2 total with
      | none => requote s!"{fee.2} settlement fee target is out of range"
      | some target =>
        if Decimal.le target Decimal.zero ||
            (feeMatches fee receive && Decimal.le target receiveAmount) then
          fundFees swapper w pay receive receiveAmount maxInputs rest leg picks
        else
          match selectLeg swapper (cacheKey fee.1 fee.2) target
              (max (maxInputs - picks.length) 1) (decide (fee.2 = "Amulet")) (w.tries leg) with
          | none =>
            let need := DecimalText.toString target
            requote (s!"{fee.2} fee-funding selection failed (need {need} {fee.2} for the " ++
              s!"settlement fee; {w.failureDetail leg})")
          | some more =>
            fundFees swapper w pay receive receiveAmount maxInputs rest (leg + 1) (picks ++ more)

/-- The pay leg's target: its amount and the fees in its instrument. -/
def selectTarget (pay : Instrument) (amountNeeded : D) (totals : List (Instrument × D)) : Option D :=
  (totals.filter fun t => feeMatches t.1 pay).foldlM (fun acc t => do
    let target ← feeTarget t.1.2 t.2
    Decimal.checkedAdd acc target) amountNeeded

/-- The holdings that pay for the settle. -/
def selectInputs (swapper : AtomicSwapper) (w : SettleAnswers D) (terms : SettleTerms D)
    (direction : FillDirection) (maxInputHoldings : Nat) : Early (List (CachedHolding D)) := do
  let side (base : Bool) : Early Instrument := do
    let name := if base then "baseInstrumentId" else "quoteInstrumentId"
    let admin ← orEnd (venue terms.env [name, "admin"])
    let id ← orEnd (venue terms.env [name, "id"])
    return (admin, id)
  let pay ← side (decide (direction = .sell))
  let totals ← feeTotals terms.signedFees []
  let receive ← side (decide (direction = .buy))
  let (amountNeeded, receiveAmount) := match direction with
    | .buy => (terms.quoteAmount, terms.baseAmount)
    | .sell => (terms.baseAmount, terms.quoteAmount)
  let payKey := cacheKey pay.1 pay.2
  let maxInputs := min maxInputHoldings 100
  match selectTarget pay amountNeeded totals with
  | none => requote s!"amount plus settlement fee in {payKey} is out of range"
  | some target =>
    match selectLeg swapper payKey target maxInputs (decide (pay.2 = "Amulet")) (w.tries 0) with
    | none =>
      let need := DecimalText.toString target
      requote (s!"own holdings selection failed for {payKey} (need {need}; " ++
        s!"{w.failureDetail 0})")
    | some picks => fundFees swapper w pay receive receiveAmount maxInputs totals 1 picks

/-- `RESERVATION_GRACE` -/
def reservationGrace : Instant := seconds 30

/-- The first instant that is not representable. -/
def instantLimit : Instant := seconds (2 ^ 63)

/-- Expiry of the own-input reservation: the end of the signed window plus the grace. -/
def reservationExpiry (now : Instant) (validUntilMicros nowMicros : Int) : Option Instant :=
  let remaining := (min (validUntilMicros - nowMicros) (2 ^ 63 - 1)).toNat
  let expiry := reservationGrace + (now + 1000 * remaining)
  if expiry < instantLimit then some expiry else none

/-! ## Reconciliation -/

/-- `RECONCILE_ATTEMPTS` -/
def reconcileAttempts : Nat := 3

/-- The polls from the `n`th: an own input that is not active was consumed. -/
def pollInputs (ownCids : List String) (activeContracts : Nat → Except String (List String)) :
    (left : Nat) → (n : Nat) → ReconcileStatus
  | 0, _ => .unknown
  | left + 1, n =>
    match activeContracts n with
    | .ok live =>
      if ownCids.any fun c => decide (c ∉ live) then .consumed
      else if left = 0 then .live
      else pollInputs ownCids activeContracts left (n + 1)
    | .error _ => if left = 0 then .unknown else pollInputs ownCids activeContracts left (n + 1)

/-- Poll the ledger for the own inputs. -/
def pollOwnInputs (ownCids : List String) (polls : PollAnswers) : ReconcileStatus :=
  match polls.connect with
  | .error _ => .unknown
  | .ok () => pollInputs ownCids polls.activeContracts reconcileAttempts 0

/-! ## The submit and how it ends -/

/-- How a settle ends. -/
structure Settled (D : Type) where
  cache : HoldingsCache D
  result : Except String (SwapOutcome D)
  /-- The inputs that were reserved, none before. -/
  inputs : List String
  /-- The answers to the submits it started. -/
  rounds : List (RoundAnswers D)

/-- A reserved settle on its way. -/
structure Reserved (D : Type) where
  cache : HoldingsCache D
  ownCids : List String
  quoteId : String
  filledBase : D
  validUntilMicros : Int

def deterministicMarkers : List String :=
  ["holdings are invalid", "not found or may already be archived", "different instrument ids",
    "no holdings provided", "cannot be pre-checked", "no representative holding could provide",
    "could represent the settlement fee", "cannot complete one-step", "not direct"]

/-- Rejections that preparing the same inputs again would meet again. -/
def isDeterministicPrepareRejection (msg : String) : Bool :=
  let lower := String.ofList (msg.toList.map Char.toLower)
  deterministicMarkers.any (containsText lower)

namespace Reserved

variable {D : Type} (r : Reserved D) (rounds : List (RoundAnswers D))

def release (result : Except String (SwapOutcome D)) : Settled D :=
  ⟨r.cache.releaseReservations r.ownCids, result, r.ownCids, rounds⟩

/-- The reservations are left to expire. -/
def abandon (reason : String) : Settled D := ⟨r.cache, .ok (.abort reason), r.ownCids, rounds⟩

def filled (updateId : String) (now : Instant) (adopted : List (CachedHolding D)) : Settled D :=
  ⟨(r.cache.markConsumed r.ownCids updateId now).addCreated adopted,
    .ok (.filled ⟨updateId, r.filledBase⟩), r.ownCids, rounds⟩

def reconciledFill (now : Instant) : Settled D :=
  ⟨r.cache.markConsumed r.ownCids "atomic-settle-reconciled" now,
    .ok (.filled ⟨"(reconciled; execute response lost)", r.filledBase⟩), r.ownCids, rounds⟩

def unknownStatus (why : String) : String :=
  s!"cannot establish commit status of quote {r.quoteId} — check the ledger manually before " ++
    s!"re-quoting: {why}"

/-- `after_lost_submit`: a submit without a result, whose task may have executed. -/
def afterLostSubmit (a : RoundAnswers D) (why : String) (late : LateSubmit) : Settled D :=
  let status := pollOwnInputs r.ownCids a.polls
  match late, status with
  | _, .consumed => r.reconciledFill rounds a.consumedAt
  | .running, _ => r.abandon rounds (s!"submit for quote {r.quoteId} {why} and is still running; " ++
      "own inputs not seen consumed — check the ledger before re-quoting")
  | _, .unknown => r.abandon rounds (r.unknownStatus ("submit " ++ why))
  | .finished (.ok resp), .live =>
    if resp.success then
      ⟨r.cache.markConsumed r.ownCids resp.updateId a.consumedAt,
        .ok (.filled ⟨resp.updateId, r.filledBase⟩), r.ownCids, rounds⟩
    else r.release rounds (.ok .dryRun)
  | .finished (.error e), .live =>
    if isAmbiguousExecuteError e then r.abandon rounds (r.unknownStatus e)
    else r.release rounds
      (.ok (.requote ("execute did not commit (own inputs verified live): " ++ e)))
  | .endedAbnormally e, .live =>
    r.abandon rounds (r.unknownStatus s!"submit ended abnormally ({e})")

/-- A submit that has no task any more: its error names no execute. -/
def afterNoTask (a : RoundAnswers D) (why : String) : Settled D :=
  r.afterLostSubmit rounds a why (.finished (.error ("submit " ++ why)))

def namesOwnCid (msg : String) : Bool := r.ownCids.any (containsText msg)

/-- The submit failed; `retry` is what another round comes to, while there may be one. -/
def afterError (a : RoundAnswers D) (retry : Option (Settled D)) (msg : String) : Settled D :=
  if isAmbiguousExecuteError msg || containsText msg "INACTIVE_CONTRACTS" && r.namesOwnCid msg then
    match pollOwnInputs r.ownCids a.polls with
    | .consumed => r.reconciledFill rounds a.consumedAt
    | .live => r.release rounds
        (.ok (.requote ("execute did not commit (own inputs verified live): " ++ msg)))
    | .unknown => r.abandon rounds (r.unknownStatus msg)
  else if containsText msg "INACTIVE_CONTRACTS" then
    match pollOwnInputs r.ownCids a.polls with
    | .live => r.release rounds (.ok (.requote ("LP inputs inactive (envelope stale): " ++ msg)))
    | .consumed => r.reconciledFill rounds a.consumedAt
    | .unknown =>
      r.abandon rounds ("INACTIVE_CONTRACTS with undeterminable own-input state: " ++ msg)
  else if containsText msg "PrepareAtomicTransaction" && isDeterministicPrepareRejection msg then
    r.release rounds (.ok (.requote ("prepare rejected (not retried): " ++ msg)))
  else
    let windowOpen := decide
      (min (a.nowMicros + precheckValidityMarginMicros) (2 ^ 63 - 1) < r.validUntilMicros)
    match containsText msg "PrepareAtomicTransaction" && windowOpen, retry with
    | true, some again => again
    | _, _ => r.release rounds (.ok (.requote msg))

/-- What a round comes to once its submit has ended or is given up. -/
def afterSubmit (a : RoundAnswers D) (retry : Option (Settled D)) : Settled D :=
  match a.watch with
  | .done (.ok resp) =>
    if resp.success then r.filled rounds resp.updateId a.consumedAt a.adopted
    else r.release rounds (.ok .dryRun)
  | .done (.error msg) => r.afterError rounds a retry msg
  | .notStarted => r.afterNoTask rounds a "not started"
  | .endedAbnormally why => r.afterNoTask rounds a s!"ended abnormally ({why})"
  | .noResultWithin wait late => r.afterLostSubmit rounds a s!"gave no result within {wait}" late

/-- The rounds from the `n`th, with so many prepare retries left. -/
def submitRounds (answers : Nat → RoundAnswers D) :
    (left : Nat) → (n : Nat) → (earlier : List (RoundAnswers D)) → Settled D
  | 0, n, earlier => r.afterSubmit (earlier ++ [answers n]) (answers n) none
  | left + 1, n, earlier =>
    let rounds := earlier ++ [answers n]
    r.afterSubmit rounds (answers n) (some (submitRounds answers left (n + 1) rounds))

end Reserved

/-- `MAX_PREPARE_RETRIES` -/
def maxPrepareRetries : Nat := 5

/-! ## The settle -/

/-- The parameters of the prepare, straight from the envelope. -/
def settleParams (swapper : AtomicSwapper) (envelope : AtomicQuoteEnvelope) (terms : SettleTerms D)
    (ownCids : List String) : Except String AtomicDvpSettleParams := do
  let pairName ← venue terms.env ["pairName"]
  let baseInstrumentId ← venue terms.env ["baseInstrumentId", "id"]
  let baseInstrumentAdmin ← venue terms.env ["baseInstrumentId", "admin"]
  let quoteInstrumentId ← venue terms.env ["quoteInstrumentId", "id"]
  let quoteInstrumentAdmin ← venue terms.env ["quoteInstrumentId", "admin"]
  let quotePublicKeySpkiHex ← venue terms.env ["quotePublicKey"]
  return {
    venueCid := terms.env.dvp.contractId
    quote := envelope.quote
    quoteSignatureDerHex := envelope.quoteSignature
    canonicalMessage := envelope.canonicalMessage
    lpParty := terms.lpParty
    pairName, baseInstrumentId, baseInstrumentAdmin, quoteInstrumentId, quoteInstrumentAdmin
    quotePublicKeySpkiHex
    ticketCid := terms.env.ticket.map AcsContractJson.contractId
    lpInputHoldingCids := envelope.lpInputHoldingCids
    envelopeDisclosures := envelope.disclosed
    userInputHoldingCids := ownCids
    synchronizerId := swapper.synchronizerId
    lpFees := terms.signedFees }

/-- What the prepared transaction is verified against. -/
def settleExpectation (swapper : AtomicSwapper) (terms : SettleTerms D)
    (params : AtomicDvpSettleParams) : OperationExpectation :=
  .atomicDvpSettle swapper.partyId params.venueCid terms.env.dvp.templateId terms.env.quote.quoteId
    terms.env.quote.ticketId params.ticketCid terms.env.quote.side terms.env.quote.baseAmount
    terms.env.quote.quoteAmount terms.lpParty params.baseInstrumentId params.baseInstrumentAdmin
    params.quoteInstrumentId params.quoteInstrumentAdmin terms.validUntilMicros
    params.lpInputHoldingCids params.userInputHoldingCids

/-- From the reservation on: confirm, connect, mark, and submit. -/
def settleReserved (swapper : AtomicSwapper) (envelope : AtomicQuoteEnvelope) (w : SettleAnswers D)
    (terms : SettleTerms D) (r : Reserved D) : Settled D :=
  match settleParams swapper envelope terms r.ownCids with
  | .error e => ⟨r.cache, .error e, r.ownCids, []⟩
  | .ok params =>
    match if swapper.confirm && !swapper.dryRun then w.confirmed else .ok () with
    | .error e => r.release [] (.error e)
    | .ok () =>
      match w.client with
      | .failed e => r.release [] (.error e)
      | .late wait => r.release []
          (.ok (.requote ("ledger connect did not finish within " ++ wait)))
      | .ready =>
        if w.beforeSubmit = false then
          r.release [] (.error (s!"the restart marker of quote {r.quoteId} could not be saved " ++
            "to the state file; nothing was submitted"))
        else
          r.submitRounds (w.submit params (settleExpectation swapper terms params)
            (swapper.verbose, swapper.dryRun, swapper.force)) maxPrepareRetries 0 []

/-- The end of a settle that has reserved nothing. -/
def unreserved (w : SettleAnswers D) (early : EarlyEnd) : Settled D :=
  ⟨w.cache, early.result, [], []⟩

/-- The terms of the settle and the holdings that pay for it. -/
def checkAndSelect (swapper : AtomicSwapper) (envelope : AtomicQuoteEnvelope)
    (accepted : AtomicQuoteInfo) (direction : FillDirection) (maxInputHoldings : Nat)
    (w : SettleAnswers D) : Early (SettleTerms D × List (CachedHolding D)) := do
  let fees := (envelope.quote.map AtomicQuote.lpFees).getD []
  let (env, validUntil) ← checkedEnvelope D swapper envelope w.nowMicros
  let terms ← acceptedTerms env validUntil fees accepted direction
  let picks ← selectInputs swapper w terms direction maxInputHoldings
  return (terms, picks)

/-- Reserve the holdings, and settle. -/
def reserveAndSettle (swapper : AtomicSwapper) (envelope : AtomicQuoteEnvelope)
    (w : SettleAnswers D) (terms : SettleTerms D) (ownCids : List String) : Settled D :=
  let quoteId := terms.env.quote.quoteId
  match reservationExpiry w.reserveAt terms.validUntilMicros.toInt w.reserveMicros with
  | none => unreserved w (.requote s!"reservation window of quote {quoteId} is out of range")
  | some expiresAt =>
    match w.cache.reserveV2 ownCids quoteId expiresAt w.reserveAt with
    | (false, _) => unreserved w (.requote "own holdings reservation raced")
    | (true, cache) => settleReserved swapper envelope w terms
        ⟨cache, ownCids, quoteId, terms.baseAmount, terms.validUntilMicros.toInt⟩

def settleEnvelopeWith (swapper : AtomicSwapper) (envelope : AtomicQuoteEnvelope)
    (accepted : AtomicQuoteInfo) (direction : FillDirection) (maxInputHoldings : Nat)
    (w : SettleAnswers D) : Settled D :=
  match checkAndSelect swapper envelope accepted direction maxInputHoldings w with
  | .error early => unreserved w early
  | .ok (terms, picks) =>
    reserveAndSettle swapper envelope w terms (picks.map CachedHolding.contractId)

end Settle

end BookAgent.CloudAgent
