import BookAgent.CloudAgent.SettleOutcomes

/-!
# The terms of an atomic settle

A settle meets its terms four times: in the quote that was accepted, in the envelope, in the
message that the LP signed, and in what is submitted and verified. Each is read as the same
record of terms, and the records agree for every envelope up to the instruments: these come
from the LP's venue contract, and nothing compares them with the market's.
-/

namespace BookAgent.CloudAgent

open BookAgent.Lib BookAgent.AtomicQuote BookAgent.TxVerifier

/-! ## Terms -/

/-- Who trades what with whom; amounts as numbers, instruments by admin and id. -/
structure DvpTerms where
  lp : String
  user : String
  side : AtomicQuote.QuoteSide
  baseAmount : ℚ
  quoteAmount : ℚ
  base : Instrument
  quote : Instrument

section Terms

variable (D : Type) [SwapCrates D]

open EnvelopeCrates (fromStr verifyQuote)

/-- The amounts and the side of a quote, as texts. -/
def termsOf (lp user side baseAmount quoteAmount : String) (base quote : Instrument) :
    Except String DvpTerms := do
  let side ← QuoteSide.parse side
  let baseAmount : D ← fromStr baseAmount
  let quoteAmount : D ← fromStr quoteAmount
  return ⟨lp, user, side, Decimal.value baseAmount, Decimal.value quoteAmount, base, quote⟩

/-- What the user agreed to, in a market of two instruments. -/
def agreedTerms (swapper : AtomicSwapper) (accepted : AtomicQuoteInfo) (direction : FillDirection)
    (market : Instrument × Instrument) : Except String DvpTerms :=
  termsOf D accepted.lpPartyId swapper.partyId direction.side accepted.quantity
    accepted.quoteQuantity market.1 market.2

def AtomicDvpSettleParams.terms (p : AtomicDvpSettleParams) : Except String DvpTerms := do
  let quote ← context "no quote" p.quote
  termsOf D p.lpParty quote.user quote.side quote.baseAmount quote.quoteAmount
    (p.baseInstrumentAdmin, p.baseInstrumentId) (p.quoteInstrumentAdmin, p.quoteInstrumentId)

def expectationTerms : OperationExpectation → Except String DvpTerms
  | .atomicDvpSettle userParty _ _ _ _ _ side baseAmount quoteAmount lpParty baseInstrumentId
      baseInstrumentAdmin quoteInstrumentId quoteInstrumentAdmin _ _ _ =>
    termsOf D lpParty userParty side baseAmount quoteAmount (baseInstrumentAdmin, baseInstrumentId)
      (quoteInstrumentAdmin, quoteInstrumentId)
  | _ => .error "not a settle"

variable {D}

def messageTerms (f : CanonicalQuoteFields D) : DvpTerms :=
  ⟨f.lp, f.user, f.side, Decimal.value f.baseAmount, Decimal.value f.quoteAmount,
    (f.baseAdmin, f.baseId), (f.quoteAdmin, f.quoteInstrId)⟩

/-- A fee of the message is the fee that was displayed. -/
structure FeeAgrees (shown : AtomicFeeSpec) (signed : LpFeeSpec D) : Prop where
  receiver : signed.receiver = shown.receiver
  admin : signed.admin = shown.instrumentAdmin
  id : signed.id = shown.instrumentId
  amount : fromStr shown.amount = .ok signed.amount

/-- The submit parameters, the expectation and the signed message say what was agreed. The
expectation names neither synchronizer nor fees, the message no synchronizer. -/
structure TermsAgree (D : Type) [SwapCrates D] (swapper : AtomicSwapper) (accepted : AtomicQuoteInfo)
    (direction : FillDirection) (market : Instrument × Instrument) (params : AtomicDvpSettleParams)
    (expectation : OperationExpectation) : Prop where
  agreed : ∃ terms, agreedTerms D swapper accepted direction market = .ok terms ∧
    params.terms D = .ok terms ∧ expectationTerms D expectation = .ok terms ∧
    ∃ fields : CanonicalQuoteFields D,
      buildCanonicalMessage fields = .ok params.canonicalMessage ∧ messageTerms fields = terms ∧
      List.Forall₂ FeeAgrees accepted.settlementFee.toList (fields.lpFees.getD [])
  signed : ∃ key,
    verifyQuote D params.quoteSignatureDerHex params.canonicalMessage key = true
  fees : params.lpFees = accepted.settlementFee.toList ∧
    params.quote.map AtomicQuote.lpFees = some accepted.settlementFee.toList
  synchronizer : params.synchronizerId = swapper.synchronizerId

/-- The instruments that the venue of an envelope names. -/
def envelopeInstruments (D : Type) [SwapCrates D] (envelope : AtomicQuoteEnvelope) :
    Option (Instrument × Instrument) := do
  let dvp ← envelope.dvp
  let payload ← (SwapCrates.parseJson D dvp.payloadJson).toOption
  let text (path : List String) : Option String := (payload.pointer path).bind Json.asStr
  return ((← text ["baseInstrumentId", "admin"], ← text ["baseInstrumentId", "id"]),
    (← text ["quoteInstrumentId", "admin"], ← text ["quoteInstrumentId", "id"]))

end Terms

/-! ## The submit call -/

section Submit

variable {D : Type} [SwapCrates D]

open EnvelopeCrates (fromStr verifyQuote)

/-- What a reserved settle submits, if it comes to that. -/
def submitReserved (swapper : AtomicSwapper) (envelope : AtomicQuoteEnvelope) (w : SettleAnswers D)
    (terms : SettleTerms D) (ownCids : List String) :
    Option (AtomicDvpSettleParams × OperationExpectation) :=
  match settleParams swapper envelope terms ownCids,
      (if swapper.confirm && !swapper.dryRun then w.confirmed else .ok ()), w.client with
  | .ok params, .ok (), .ready =>
    if w.beforeSubmit then some (params, settleExpectation swapper terms params) else none
  | _, _, _ => none

/-- The parameters and the expectation that `submit` is called with, if the settle reaches it. -/
def submitCall (swapper : AtomicSwapper) (envelope : AtomicQuoteEnvelope)
    (accepted : AtomicQuoteInfo) (direction : FillDirection) (maxInputHoldings : Nat)
    (w : SettleAnswers D) : Option (AtomicDvpSettleParams × OperationExpectation) :=
  match checkAndSelect swapper envelope accepted direction maxInputHoldings w with
  | .error _ => none
  | .ok (terms, picks) =>
    let ownCids := picks.map CachedHolding.contractId
    match reservationExpiry w.reserveAt terms.validUntilMicros.toInt w.reserveMicros with
    | none => none
    | some expiresAt =>
      if (w.cache.reserveV2 ownCids terms.env.quote.quoteId expiresAt w.reserveAt).1 then
        submitReserved swapper envelope w terms ownCids
      else none

variable {swapper : AtomicSwapper} {envelope : AtomicQuoteEnvelope} {accepted : AtomicQuoteInfo}
  {direction : FillDirection} {maxInputHoldings : Nat} {w : SettleAnswers D}
  {params : AtomicDvpSettleParams} {expectation : OperationExpectation}

omit [SwapCrates D] in
theorem settleReserved_submits (swapper : AtomicSwapper) (envelope : AtomicQuoteEnvelope)
    (w : SettleAnswers D) (terms : SettleTerms D) (r : Reserved D) :
    match submitReserved swapper envelope w terms r.ownCids with
    | none => (settleReserved swapper envelope w terms r).rounds = []
    | some call => settleReserved swapper envelope w terms r
        = r.submitRounds (w.submit call.1 call.2 (swapper.verbose, swapper.dryRun, swapper.force))
            maxPrepareRetries 0 [] := by
  unfold submitReserved settleReserved
  cases settleParams swapper envelope terms r.ownCids with
  | error e => rfl
  | ok params =>
    cases (if swapper.confirm && !swapper.dryRun then w.confirmed else .ok () :
        Except String Unit) with
    | error e => rfl
    | ok _ =>
      cases w.client with
      | failed e => rfl
      | late wait => rfl
      | ready =>
        cases w.beforeSubmit with
        | false => rfl
        | true => rfl

/-- A settle submits with the call's parameters and expectation, in every round, or not at all. -/
theorem settle_submits :
    match submitCall swapper envelope accepted direction maxInputHoldings w with
    | none =>
      (settleEnvelopeWith swapper envelope accepted direction maxInputHoldings w).rounds = []
    | some call => ∃ r : Reserved D,
        settleEnvelopeWith swapper envelope accepted direction maxInputHoldings w
          = r.submitRounds (w.submit call.1 call.2 (swapper.verbose, swapper.dryRun, swapper.force))
              maxPrepareRetries 0 [] := by
  unfold submitCall settleEnvelopeWith
  cases checkAndSelect swapper envelope accepted direction maxInputHoldings w with
  | error early => rfl
  | ok found =>
    obtain ⟨terms, picks⟩ := found
    dsimp only
    unfold reserveAndSettle
    cases reservationExpiry w.reserveAt terms.validUntilMicros.toInt w.reserveMicros with
    | none => rfl
    | some expiresAt =>
      dsimp only
      cases hreserve : w.cache.reserveV2 (picks.map CachedHolding.contractId) terms.env.quote.quoteId
          expiresAt w.reserveAt with
      | mk reserved cache =>
        cases reserved with
        | false => rfl
        | true =>
          have submits := settleReserved_submits swapper envelope w terms
            ⟨cache, picks.map CachedHolding.contractId, terms.env.quote.quoteId, terms.baseAmount,
              terms.validUntilMicros.toInt⟩
          dsimp only at submits ⊢
          rw [if_pos rfl]
          split at submits
          · exact submits
          · exact ⟨_, submits⟩

/-! ## What the checks establish -/

/-- A text field of a payload. -/
def payloadText (payload : Json) (path : List String) : Option String :=
  (payload.pointer path).bind Json.asStr

/-- The fields of a message are those of the venue and the quote it was rebuilt from. -/
structure Rebuilt (payload : Json) (quote : QuoteJson) (f : CanonicalQuoteFields D) : Prop where
  lp : payloadText payload ["lp"] = some f.lp
  baseAdmin : payloadText payload ["baseInstrumentId", "admin"] = some f.baseAdmin
  baseId : payloadText payload ["baseInstrumentId", "id"] = some f.baseId
  quoteAdmin : payloadText payload ["quoteInstrumentId", "admin"] = some f.quoteAdmin
  quoteInstrId : payloadText payload ["quoteInstrumentId", "id"] = some f.quoteInstrId
  user : f.user = quote.user
  side : QuoteSide.parse quote.side = .ok f.side
  baseAmount : fromStr quote.baseAmount = .ok f.baseAmount
  quoteAmount : fromStr quote.quoteAmount = .ok f.quoteAmount
  lpFees : List.Forall₂ (fun fee spec => feeSpec fee = .ok spec) (quote.lpFees.getD [])
    (f.lpFees.getD [])

theorem forall₂_of_mapM {α β : Type} {f : α → Except String β} {xs : List α} {ys : List β}
    (h : xs.mapM f = .ok ys) : List.Forall₂ (fun x y => f x = .ok y) xs ys := by
  induction xs generalizing ys with
  | nil =>
    obtain rfl := pure_eq_ok.mp h
    exact .nil
  | cons x xs ih =>
    rw [List.mapM_cons] at h
    obtain ⟨y, hy, h⟩ := bind_eq_ok.mp h
    obtain ⟨ys', hys, h⟩ := bind_eq_ok.mp h
    obtain rfl := pure_eq_ok.mp h
    exact .cons hy (ih hys)

theorem rebuilt_of_canonicalFromDvp {payload : Json} {quote : QuoteJson} {message : String}
    (h : canonicalFromDvp D payload quote = .ok message) :
    ∃ f : CanonicalQuoteFields D, buildCanonicalMessage f = .ok message ∧ Rebuilt payload quote f := by
  unfold canonicalFromDvp at h
  obtain ⟨lpFees, hfees, h⟩ := bind_eq_ok.mp h
  obtain ⟨lp, hlp, h⟩ := bind_eq_ok.mp h
  obtain ⟨provider, hprovider, h⟩ := bind_eq_ok.mp h
  obtain ⟨pair, hpair, h⟩ := bind_eq_ok.mp h
  obtain ⟨baseAdmin, hbaseAdmin, h⟩ := bind_eq_ok.mp h
  obtain ⟨baseId, hbaseId, h⟩ := bind_eq_ok.mp h
  obtain ⟨quoteAdmin, hquoteAdmin, h⟩ := bind_eq_ok.mp h
  obtain ⟨quoteId, hquoteId, h⟩ := bind_eq_ok.mp h
  obtain ⟨side, hside, h⟩ := bind_eq_ok.mp h
  obtain ⟨baseAmount, hbase, h⟩ := bind_eq_ok.mp h
  obtain ⟨quoteAmount, hquote, h⟩ := bind_eq_ok.mp h
  obtain ⟨createdAt, -, h⟩ := bind_eq_ok.mp h
  obtain ⟨validUntil, -, h⟩ := bind_eq_ok.mp h
  refine ⟨_, h, ?_⟩
  refine ⟨context_eq_ok.mp hlp, context_eq_ok.mp hbaseAdmin, context_eq_ok.mp hbaseId,
    context_eq_ok.mp hquoteAdmin, context_eq_ok.mp hquoteId, rfl, hside, hbase, hquote, ?_⟩
  cases hspecs : quote.lpFees with
  | none =>
    rw [hspecs] at hfees
    obtain rfl := pure_eq_ok.mp hfees
    exact .nil
  | some fees =>
    rw [hspecs] at hfees
    obtain ⟨specs, hspecs, rfl⟩ := map_eq_ok.mp hfees
    exact forall₂_of_mapM hspecs

/-- What the pre-check says of the message and the user. -/
structure PreChecked (D : Type) [SwapCrates D] (env : QuoteEnvelope) (user : String) : Prop where
  message : canonicalFromDvp D env.dvp.payload env.quote = .ok env.canonicalMessage
  signed : ∃ key, verifyQuote D env.quoteSignature env.canonicalMessage key = true
  user : env.quote.user = user

theorem preChecked_of_preSubmitCheck {env : QuoteEnvelope} {user synchronizer : String}
    {now margin : Int} (h : preSubmitCheck D env user synchronizer now margin = .ok ()) :
    PreChecked D env user := by
  unfold preSubmitCheck at h
  split at h
  · cases h
  split at h
  · cases h
  obtain ⟨rebuilt, hrebuilt, h⟩ := bind_eq_ok.mp h
  split at h
  · cases h
  next hmessage =>
    obtain ⟨key, -, h⟩ := bind_eq_ok.mp h
    split at h
    · cases h
    next hverify =>
      split at h
      · cases h
      next huser =>
        have hsame : rebuilt = env.canonicalMessage := not_not.mp hmessage
        subst hsame
        exact ⟨hrebuilt, ⟨key, Bool.not_eq_false _ ▸ hverify⟩, not_not.mp huser⟩

/-- What the envelope's conversion keeps of it. -/
structure Converted (D : Type) [SwapCrates D] (envelope : AtomicQuoteEnvelope) (env : QuoteEnvelope)
    (dvp : AtomicAcsContract) (quote : AtomicQuote) : Prop where
  dvp_eq : envelope.dvp = some dvp
  payload : SwapCrates.parseJson D dvp.payloadJson = .ok env.dvp.payload
  quote_eq : envelope.quote = some quote
  quoteJson : env.quote = quoteFromProto quote
  message : env.canonicalMessage = envelope.canonicalMessage
  signature : env.quoteSignature = envelope.quoteSignature

theorem converted_of_envelopeFromProto {env : QuoteEnvelope}
    (h : envelopeFromProto D envelope = .ok env) :
    ∃ dvp quote, Converted D envelope env dvp quote := by
  unfold envelopeFromProto at h
  obtain ⟨dvp, hdvp, h⟩ := bind_eq_ok.mp h
  obtain ⟨quote, hquote, h⟩ := bind_eq_ok.mp h
  obtain ⟨dvpJson, hjson, h⟩ := bind_eq_ok.mp h
  obtain ⟨ticket, -, h⟩ := bind_eq_ok.mp h
  obtain rfl := pure_eq_ok.mp h
  unfold acsFromProto at hjson
  obtain ⟨payload, hpayload, hjson⟩ := bind_eq_ok.mp hjson
  obtain rfl := pure_eq_ok.mp hjson
  exact ⟨dvp, quote, context_eq_ok.mp hdvp, mapError_eq_ok.mp hpayload, context_eq_ok.mp hquote,
    rfl, rfl, rfl⟩

/-- What the comparison with the accepted quote establishes. -/
structure Accepted (env : QuoteEnvelope) (fees : List AtomicFeeSpec) (accepted : AtomicQuoteInfo)
    (direction : FillDirection) (terms : SettleTerms D) : Prop where
  env_eq : terms.env = env
  signedFees : terms.signedFees = fees
  venueLp : payloadText env.dvp.payload ["lp"] = some terms.lpParty
  lp : terms.lpParty = accepted.lpPartyId
  side : env.quote.side = direction.side
  shownFees : fees = accepted.settlementFee.toList
  amounts : ∃ base quote shownBase shownQuote : D,
    fromStr env.quote.baseAmount = .ok base ∧ fromStr env.quote.quoteAmount = .ok quote ∧
    fromStr accepted.quantity = .ok shownBase ∧ fromStr accepted.quoteQuantity = .ok shownQuote ∧
    Decimal.value base = Decimal.value shownBase ∧ Decimal.value quote = Decimal.value shownQuote

theorem accepted_of_acceptedTerms {env : QuoteEnvelope} {validUntil : Int64}
    {fees : List AtomicFeeSpec} {terms : SettleTerms D}
    (h : acceptedTerms env validUntil fees accepted direction = .ok terms) :
    Accepted env fees accepted direction terms := by
  unfold acceptedTerms at h
  obtain ⟨lp, hlp, h⟩ := bind_eq_ok.mp h
  split at h
  · cases h
  next hsame =>
    obtain ⟨base, hbase, h⟩ := bind_eq_ok.mp h
    obtain ⟨quote, hquote, h⟩ := bind_eq_ok.mp h
    obtain ⟨shownBase, hshownBase, h⟩ := bind_eq_ok.mp h
    obtain ⟨shownQuote, hshownQuote, h⟩ := bind_eq_ok.mp h
    split at h
    · cases h
    next hamounts =>
      split at h
      · cases h
      next hside =>
        split at h
        · cases h
        next hfees =>
          cases h
          rw [not_or, not_not, not_not] at hamounts
          exact ⟨rfl, rfl, context_eq_ok.mp (mapError_eq_ok.mp hlp), not_not.mp hsame,
            not_not.mp hside, not_not.mp hfees, base, quote, shownBase, shownQuote,
            mapError_eq_ok.mp (mapError_eq_ok.mp hbase), mapError_eq_ok.mp (mapError_eq_ok.mp hquote),
            mapError_eq_ok.mp (mapError_eq_ok.mp hshownBase),
            mapError_eq_ok.mp (mapError_eq_ok.mp hshownQuote), hamounts⟩

/-- The parameters are those of the envelope and the terms. -/
structure FromVenue (swapper : AtomicSwapper) (envelope : AtomicQuoteEnvelope)
    (terms : SettleTerms D) (params : AtomicDvpSettleParams) : Prop where
  quote : params.quote = envelope.quote
  signature : params.quoteSignatureDerHex = envelope.quoteSignature
  message : params.canonicalMessage = envelope.canonicalMessage
  lpParty : params.lpParty = terms.lpParty
  baseAdmin : payloadText terms.env.dvp.payload ["baseInstrumentId", "admin"]
    = some params.baseInstrumentAdmin
  baseId : payloadText terms.env.dvp.payload ["baseInstrumentId", "id"]
    = some params.baseInstrumentId
  quoteAdmin : payloadText terms.env.dvp.payload ["quoteInstrumentId", "admin"]
    = some params.quoteInstrumentAdmin
  quoteId : payloadText terms.env.dvp.payload ["quoteInstrumentId", "id"]
    = some params.quoteInstrumentId
  fees : params.lpFees = terms.signedFees
  synchronizer : params.synchronizerId = swapper.synchronizerId

omit [SwapCrates D] in
theorem fromVenue_of_settleParams {terms : SettleTerms D} {ownCids : List String}
    (h : settleParams swapper envelope terms ownCids = .ok params) :
    FromVenue swapper envelope terms params := by
  unfold settleParams at h
  obtain ⟨pairName, -, h⟩ := bind_eq_ok.mp h
  obtain ⟨baseId, hbaseId, h⟩ := bind_eq_ok.mp h
  obtain ⟨baseAdmin, hbaseAdmin, h⟩ := bind_eq_ok.mp h
  obtain ⟨quoteId, hquoteId, h⟩ := bind_eq_ok.mp h
  obtain ⟨quoteAdmin, hquoteAdmin, h⟩ := bind_eq_ok.mp h
  obtain ⟨key, -, h⟩ := bind_eq_ok.mp h
  obtain rfl := pure_eq_ok.mp h
  exact ⟨rfl, rfl, rfl, rfl, context_eq_ok.mp hbaseAdmin, context_eq_ok.mp hbaseId,
    context_eq_ok.mp hquoteAdmin, context_eq_ok.mp hquoteId, rfl, rfl⟩

/-! ## The terms agree but for the instruments -/

theorem parse_side (direction : FillDirection) :
    ∃ side, QuoteSide.parse direction.side = .ok side := by
  cases direction with
  | buy => exact ⟨.buy, rfl⟩
  | sell => exact ⟨.sell, rfl⟩

theorem lpFees_quoteFromProto (quote : AtomicQuote) :
    (quoteFromProto quote).lpFees.getD []
      = quote.lpFees.map fun f => ⟨f.receiver, ⟨f.instrumentAdmin, f.instrumentId⟩, f.amount⟩ := by
  unfold quoteFromProto
  cases quote.lpFees with
  | nil => rfl
  | cons f fs => rfl

/-- The fees of the message are the fees of the transported quote. -/
theorem feesAgree_of_rebuilt {payload : Json} {quote : AtomicQuote} {f : CanonicalQuoteFields D}
    (h : Rebuilt payload (quoteFromProto quote) f) :
    List.Forall₂ FeeAgrees quote.lpFees (f.lpFees.getD []) := by
  have specs := h.lpFees
  rw [lpFees_quoteFromProto, List.forall₂_map_left_iff] at specs
  refine specs.imp fun shown signed hspec => ?_
  unfold feeSpec at hspec
  obtain ⟨amount, hamount, hspec⟩ := bind_eq_ok.mp hspec
  obtain rfl := pure_eq_ok.mp hspec
  exact ⟨rfl, rfl, rfl, hamount⟩

/-- What holds of every submit call. -/
structure Call (D : Type) [SwapCrates D] (swapper : AtomicSwapper) (envelope : AtomicQuoteEnvelope)
    (accepted : AtomicQuoteInfo) (direction : FillDirection) (params : AtomicDvpSettleParams)
    (expectation : OperationExpectation) : Prop where
  steps : ∃ (env : QuoteEnvelope) (dvp : AtomicAcsContract) (quote : AtomicQuote)
    (terms : SettleTerms D),
    Converted D envelope env dvp quote ∧ PreChecked D env swapper.partyId ∧
    Accepted env quote.lpFees accepted direction terms ∧
    FromVenue swapper envelope terms params ∧
    expectation = settleExpectation swapper terms params

theorem call_of_submitCall (h : submitCall swapper envelope accepted direction maxInputHoldings w
    = some (params, expectation)) :
    Call D swapper envelope accepted direction params expectation := by
  unfold submitCall at h
  split at h
  · cases h
  next terms picks hchecked =>
    dsimp only at h
    split at h
    · cases h
    split at h
    · unfold submitReserved at h
      split at h
      · next params' hparams _ _ =>
        split at h
        · obtain ⟨rfl, rfl⟩ := Prod.mk.inj (Option.some.inj h)
          unfold checkAndSelect at hchecked
          obtain ⟨⟨env, validUntil⟩, henv, hchecked⟩ := bind_eq_ok.mp hchecked
          obtain ⟨terms', hterms, hchecked⟩ := bind_eq_ok.mp hchecked
          obtain ⟨picks', -, hchecked⟩ := bind_eq_ok.mp hchecked
          obtain ⟨rfl, rfl⟩ := Prod.mk.inj (pure_eq_ok.mp hchecked)
          unfold checkedEnvelope at henv
          obtain ⟨env', hconverted, henv⟩ := bind_eq_ok.mp henv
          split at henv
          · cases henv
          next hcheck =>
            obtain ⟨validUntil', -, henv⟩ := bind_eq_ok.mp henv
            split at henv
            · cases henv
            · cases henv
              obtain ⟨dvp, quote, converted⟩ :=
                converted_of_envelopeFromProto (mapError_eq_ok.mp hconverted)
              have agreed := accepted_of_acceptedTerms hterms
              rw [converted.quote_eq] at agreed
              exact ⟨env, dvp, quote, terms', converted, preChecked_of_preSubmitCheck hcheck, agreed,
                fromVenue_of_settleParams hparams, rfl⟩
        · cases h
      · cases h
    · cases h

theorem termsOf_eq {lp user side base quote : String} {baseInstrument quoteInstrument : Instrument}
    {parsed : AtomicQuote.QuoteSide} {baseAmount quoteAmount : D}
    (hside : QuoteSide.parse side = .ok parsed) (hbase : fromStr base = .ok baseAmount)
    (hquote : fromStr quote = .ok quoteAmount) :
    termsOf D lp user side base quote baseInstrument quoteInstrument
      = .ok ⟨lp, user, parsed, Decimal.value baseAmount, Decimal.value quoteAmount, baseInstrument,
          quoteInstrument⟩ := by
  unfold termsOf
  rw [hside, hbase, hquote]
  rfl

theorem instruments_of_termsOf {lp user side base quote : String}
    {baseInstrument quoteInstrument : Instrument} {terms : DvpTerms}
    (h : termsOf D lp user side base quote baseInstrument quoteInstrument = .ok terms) :
    (terms.base, terms.quote) = (baseInstrument, quoteInstrument) := by
  unfold termsOf at h
  obtain ⟨_, -, h⟩ := bind_eq_ok.mp h
  obtain ⟨_, -, h⟩ := bind_eq_ok.mp h
  obtain ⟨_, -, h⟩ := bind_eq_ok.mp h
  obtain rfl := pure_eq_ok.mp h
  rfl

/-- The instruments of the parameters. -/
def paramsInstruments (p : AtomicDvpSettleParams) : Instrument × Instrument :=
  ((p.baseInstrumentAdmin, p.baseInstrumentId), (p.quoteInstrumentAdmin, p.quoteInstrumentId))

theorem envelopeInstruments_of_converted {env : QuoteEnvelope} {dvp : AtomicAcsContract}
    {quote : AtomicQuote} {terms : SettleTerms D} (converted : Converted D envelope env dvp quote)
    (henv : terms.env = env) (params_of : FromVenue swapper envelope terms params) :
    envelopeInstruments D envelope = some (paramsInstruments params) := by
  have hbaseAdmin := params_of.baseAdmin
  have hbaseId := params_of.baseId
  have hquoteAdmin := params_of.quoteAdmin
  have hquoteId := params_of.quoteId
  rw [henv] at hbaseAdmin hbaseId hquoteAdmin hquoteId
  unfold payloadText at hbaseAdmin hbaseId hquoteAdmin hquoteId
  unfold envelopeInstruments
  simp only [converted.dvp_eq, converted.payload, Except.toOption, bind, Option.bind_some,
    hbaseAdmin, hbaseId, hquoteAdmin, hquoteId]
  rfl

theorem instruments_of_termsAgree {market : Instrument × Instrument}
    (h : TermsAgree D swapper accepted direction market params expectation) :
    paramsInstruments params = market := by
  obtain ⟨terms, hagreed, hparams, -⟩ := h.agreed
  unfold AtomicDvpSettleParams.terms at hparams
  obtain ⟨quote, -, hparams⟩ := bind_eq_ok.mp hparams
  exact (instruments_of_termsOf hparams).symm.trans (instruments_of_termsOf hagreed)

/-- Whatever an envelope holds, the terms that are signed, submitted and verified are the accepted
ones exactly if the venue's instruments are the market's. -/
theorem termsAgree_iff {market : Instrument × Instrument}
    (hcall : submitCall swapper envelope accepted direction maxInputHoldings w
      = some (params, expectation)) :
    TermsAgree D swapper accepted direction market params expectation ↔
      envelopeInstruments D envelope = some market := by
  obtain ⟨env, dvp, quote, terms, converted, checked, agreed, params_of, rfl⟩ :=
    (call_of_submitCall hcall).steps
  rw [envelopeInstruments_of_converted converted agreed.env_eq params_of, Option.some_inj]
  constructor
  · exact instruments_of_termsAgree
  · rintro rfl
    obtain ⟨base, quoted, shownBase, shownQuote, hbase, hquote, hshownBase, hshownQuote, heqBase,
      heqQuote⟩ := agreed.amounts
    obtain ⟨side, hside⟩ := parse_side direction
    obtain ⟨fields, hmessage, rebuilt⟩ := rebuilt_of_canonicalFromDvp checked.message
    have hjson := converted.quoteJson
    have hquoteSide : quote.side = direction.side := by
      rw [← agreed.side, hjson]
      rfl
    have hlp : params.lpParty = accepted.lpPartyId := params_of.lpParty.trans agreed.lp
    have huser : quote.user = swapper.partyId := by
      rw [← checked.user, hjson]
      rfl
    have hfees : terms.signedFees = accepted.settlementFee.toList :=
      agreed.signedFees.trans agreed.shownFees
    refine ⟨⟨⟨accepted.lpPartyId, swapper.partyId, side, Decimal.value shownBase,
      Decimal.value shownQuote, (paramsInstruments params).1, (paramsInstruments params).2⟩,
      termsOf_eq hside hshownBase hshownQuote, ?_, ?_, fields, ?_, ?_, ?_⟩, ?_, ⟨?_, ?_⟩, ?_⟩
    · -- the parameters
      have hbase' : fromStr quote.baseAmount = .ok base := by rw [← hbase, hjson]; rfl
      have hquote' : fromStr quote.quoteAmount = .ok quoted := by rw [← hquote, hjson]; rfl
      unfold AtomicDvpSettleParams.terms
      rw [params_of.quote, converted.quote_eq, hlp, ← heqBase, ← heqQuote, ← huser]
      exact termsOf_eq (hquoteSide ▸ hside) hbase' hquote'
    · -- the expectation
      unfold settleExpectation expectationTerms
      rw [agreed.env_eq, agreed.lp, ← heqBase, ← heqQuote]
      exact termsOf_eq (agreed.side ▸ hside) hbase hquote
    · -- the message
      rw [params_of.message, ← converted.message]
      exact hmessage
    · have hfieldBase : fields.baseAmount = base :=
        Except.ok.inj (rebuilt.baseAmount.symm.trans hbase)
      have hfieldQuote : fields.quoteAmount = quoted :=
        Except.ok.inj (rebuilt.quoteAmount.symm.trans hquote)
      have hfieldSide : fields.side = side := by
        have hparsed := rebuilt.side
        rw [agreed.side] at hparsed
        exact Except.ok.inj (hparsed.symm.trans hside)
      have hfieldLp : fields.lp = accepted.lpPartyId :=
        (Option.some.inj (rebuilt.lp.symm.trans agreed.venueLp)).trans agreed.lp
      have venueText : ∀ {path : List String} {a b : String},
          payloadText env.dvp.payload path = some a →
          payloadText terms.env.dvp.payload path = some b → a = b := by
        intro path a b ha hb
        rw [agreed.env_eq] at hb
        exact Option.some.inj (ha.symm.trans hb)
      unfold messageTerms paramsInstruments
      rw [hfieldBase, hfieldQuote, hfieldSide, hfieldLp, rebuilt.user, checked.user, heqBase,
        heqQuote, venueText rebuilt.baseAdmin params_of.baseAdmin,
        venueText rebuilt.baseId params_of.baseId,
        venueText rebuilt.quoteAdmin params_of.quoteAdmin,
        venueText rebuilt.quoteInstrId params_of.quoteId]
    · rw [hjson] at rebuilt
      rw [← agreed.shownFees]
      exact feesAgree_of_rebuilt rebuilt
    · rw [params_of.signature, params_of.message, ← converted.signature, ← converted.message]
      exact checked.signed
    · rw [params_of.fees, hfees]
    · rw [params_of.quote, converted.quote_eq, ← agreed.shownFees]
      rfl
    · exact params_of.synchronizer

end Submit

section Example

local instance termsCrates : SwapCrates ScaledInt := usdCrates

def usdAccepted : AtomicQuoteInfo := ⟨"LP", "lp", "1", "100", none⟩

def usdCall : Option (AtomicDvpSettleParams × OperationExpectation) :=
  submitCall usdSwapper usdEnvelope usdAccepted .buy 10
    (usdAnswers (.done (.ok ⟨true, "u", "", ""⟩)) [] true)

theorem instruments_usdCall :
    usdCall.map (fun call => paramsInstruments call.1) = some (("reg", "XYZ"), ("reg", "USD")) := by
  decide +kernel

/-- In a market for `XYZ` of another issuer, the LP answers with a venue for its own `XYZ`, and the
user pays for that. -/
theorem pays_for_other_instrument : ∃ params expectation,
    submitCall usdSwapper usdEnvelope usdAccepted .buy 10
      (usdAnswers (.done (.ok ⟨true, "u", "", ""⟩)) [] true) = some (params, expectation) ∧
    ¬ TermsAgree ScaledInt usdSwapper usdAccepted .buy (("issuer", "XYZ"), ("reg", "USD"))
      params expectation := by
  obtain ⟨⟨params, expectation⟩, hcall, hinstruments⟩ :=
    Option.map_eq_some_iff.mp instruments_usdCall
  refine ⟨params, expectation, hcall, fun h => ?_⟩
  have hmarket := hinstruments.symm.trans (instruments_of_termsAgree h)
  exact absurd hmarket (by decide)

/-- In the market of the venue, the settle is for the accepted terms. -/
theorem termsAgree_usd : ∃ params expectation,
    submitCall usdSwapper usdEnvelope usdAccepted .buy 10
      (usdAnswers (.done (.ok ⟨true, "u", "", ""⟩)) [] true) = some (params, expectation) ∧
    TermsAgree ScaledInt usdSwapper usdAccepted .buy (("reg", "XYZ"), ("reg", "USD"))
      params expectation := by
  obtain ⟨⟨params, expectation⟩, hcall, -⟩ := Option.map_eq_some_iff.mp instruments_usdCall
  exact ⟨params, expectation, hcall, (termsAgree_iff hcall).mpr (by decide +kernel)⟩

end Example

end BookAgent.CloudAgent
