import BookAgent.AtomicQuote.CanonicalMessage

/-!
# The quote envelope

What the LP hands to the user at confirm time (`envelope.rs`) and the check of it that comes
before any submission. A message that was rebuilt from the venue says that the venue has every
field the message is made of.
-/

namespace BookAgent.AtomicQuote

open BookAgent.Lib

/-! ## JSON values -/

inductive Json
  | null
  | bool (b : Bool)
  | number (text : String)
  | string (s : String)
  | array (elements : List Json)
  | object (fields : List (String × Json))

namespace Json

def asStr : Json → Option String
  | string s => some s
  | _ => none

/-- The field of an object; elements of arrays have no names. -/
def get : Json → String → Option Json
  | object fields, key => (fields.find? fun f => decide (f.1 = key)).map Prod.snd
  | _, _ => none

/-- The value at the end of a path of names. -/
def pointer (v : Json) (path : List String) : Option Json := path.foldlM get v

def pointerText (path : List String) : String := String.join (path.map ("/" ++ ·))

theorem pointer_name (v : Json) (name : String) : v.pointer [name] = v.get name := by
  unfold pointer
  rw [List.foldlM_cons]
  cases v.get name <;> rfl

end Json

/-! ## Integers -/

/-- The digits after the sign, most significant first. -/
def parseDigits (negative : Bool) : List Char → Int → Except String Int
  | [], acc => .ok acc
  | c :: cs, acc =>
    if c.isDigit = false then .error "invalid digit found in string"
    else
      let digit : Int := (c.toNat - '0'.toNat : Nat)
      let next := if negative then acc * 10 - digit else acc * 10 + digit
      if next < -2 ^ 63 then .error "number too small to fit in target type"
      else if 2 ^ 63 ≤ next then .error "number too large to fit in target type"
      else parseDigits negative cs next

/-- `str::parse::<i64>` -/
def parseInt64 (s : String) : Except String Int64 :=
  match s.toList with
  | [] => .error "cannot parse integer from empty string"
  | ['-'] | ['+'] => .error "invalid digit found in string"
  | '-' :: cs => (parseDigits true cs 0).map Int64.ofInt
  | '+' :: cs => (parseDigits false cs 0).map Int64.ofInt
  | cs => (parseDigits false cs 0).map Int64.ofInt

/-! ## The envelope -/

def envelopeVersion : String := "silvana.atomic-dvp.envelope.v1"

structure AcsContractJson where
  contractId : String
  templateId : String
  createdEventBlob : String
  payload : Json

structure InstrumentIdJson where
  admin : String
  id : String

structure LpFeeJson where
  receiver : String
  instrumentId : InstrumentIdJson
  amount : String

structure QuoteJson where
  quoteId : String
  ticketId : String
  user : String
  side : String
  baseAmount : String
  quoteAmount : String
  createdAtMicros : String
  validUntilMicros : String
  lpFees : Option (List LpFeeJson)

structure QuoteEnvelope where
  version : String
  synchronizerId : String
  dvp : AcsContractJson
  quote : QuoteJson
  canonicalMessage : String
  quoteSignature : String
  ticket : Option AcsContractJson
  lpInputHoldingCids : List String
  disclosed : List Json

/-- The libraries the check relies on. -/
class EnvelopeCrates (D : Type) extends DecimalText D where
  /-- `Decimal::from_str` -/
  fromStr : String → Except String D
  /-- `verify_quote`: an ECDSA signature of the message under the key. -/
  verifyQuote : (signature message publicKey : String) → Bool

def QuoteSide.parse : String → Except String QuoteSide
  | "Buy" | "buy" | "BUY" => .ok .buy
  | "Sell" | "sell" | "SELL" => .ok .sell
  | other => .error s!"invalid side: {other} (expected buy|sell)"

section Check

variable {D : Type} [EnvelopeCrates D]

open EnvelopeCrates (fromStr verifyQuote)

def feeSpec (f : LpFeeJson) : Except String (LpFeeSpec D) := do
  let amount ← fromStr f.amount
  return ⟨f.receiver, f.instrumentId.admin, f.instrumentId.id, amount⟩

/-- A text field of the venue. -/
def venueField (payload : Json) (path : List String) : Except String String :=
  context ("AtomicDVP payload missing " ++ Json.pointerText path)
    ((payload.pointer path).bind Json.asStr)

/-- Rebuild the canonical message from the venue and the quote. -/
def canonicalFromDvp (D : Type) [EnvelopeCrates D] (dvpPayload : Json) (quote : QuoteJson) :
    Except String String := do
  let lpFees ← (match quote.lpFees with
    | none => pure none
    | some fees => some <$> fees.mapM feeSpec : Except String (Option (List (LpFeeSpec D))))
  let lp ← venueField dvpPayload ["lp"]
  let provider ← venueField dvpPayload ["provider"]
  let pair ← venueField dvpPayload ["pairName"]
  let baseAdmin ← venueField dvpPayload ["baseInstrumentId", "admin"]
  let baseId ← venueField dvpPayload ["baseInstrumentId", "id"]
  let quoteAdmin ← venueField dvpPayload ["quoteInstrumentId", "admin"]
  let quoteInstrId ← venueField dvpPayload ["quoteInstrumentId", "id"]
  let side ← QuoteSide.parse quote.side
  let baseAmount ← fromStr quote.baseAmount
  let quoteAmount ← fromStr quote.quoteAmount
  let createdAtMicros ← parseInt64 quote.createdAtMicros
  let validUntilMicros ← parseInt64 quote.validUntilMicros
  buildCanonicalMessage (D := D)
    { lp, provider, pair, baseAdmin, baseId, quoteAdmin, quoteInstrId, user := quote.user, side,
      baseAmount, quoteAmount, quoteNonce := quote.quoteId,
      createdAtMicros := createdAtMicros.toInt, validUntilMicros := validUntilMicros.toInt,
      ticketId := quote.ticketId, lpFees }

/-- The ticket contract is there exactly if the quote names one, and is that one. -/
def checkTicket (ticket : Option AcsContractJson) (ticketId : String) : Except String Unit :=
  match ticket with
  | some t =>
    if ticketId = "" then .error "H14: ticketless quote must not carry a ticket"
    else if (t.payload.get "ticketId").bind Json.asStr ≠ some ticketId then
      .error "H14: ticket contract does not match the signed ticketId"
    else .ok ()
  | none =>
    if ticketId = "" then .ok () else .error "H14: ticketed quote without its ticket contract"

/-- What the quote uses is disclosed. -/
def checkDisclosed (envelope : QuoteEnvelope) : Except String Unit := do
  let disclosedCids := envelope.disclosed.filterMap fun d => (d.get "contractId").bind Json.asStr
  match envelope.lpInputHoldingCids.find? fun cid => decide (cid ∉ disclosedCids) with
  | some cid => .error s!"H14: LP input holding {cid} is not in the disclosure package"
  | none =>
    if envelope.ticket.any fun t => decide (t.contractId ∉ disclosedCids) then
      .error "H14: the ticket is not in the disclosure package"
    else if envelope.dvp.contractId ∉ disclosedCids then
      .error "H14: the AtomicDVP venue is not in the disclosure package"
    else .ok ()

/-- The H14 client pre-check. -/
def preSubmitCheck (D : Type) [EnvelopeCrates D] (envelope : QuoteEnvelope)
    (expectedUser expectedSynchronizerId : String) (nowMicros minValidityMicros : Int) :
    Except String Unit := do
  if envelope.version ≠ envelopeVersion then
    .error ("unsupported envelope version: " ++ envelope.version)
  else if envelope.synchronizerId ≠ expectedSynchronizerId then
    .error s!"envelope synchronizer {envelope.synchronizerId} != expected {expectedSynchronizerId}"
  else
    let rebuilt ← canonicalFromDvp D envelope.dvp.payload envelope.quote
    if rebuilt ≠ envelope.canonicalMessage then
      .error "H14: canonical message mismatch (envelope tampered or malformed)"
    else
      let venueKey ← context "AtomicDVP payload missing quotePublicKey"
        ((envelope.dvp.payload.get "quotePublicKey").bind Json.asStr)
      if verifyQuote D envelope.quoteSignature rebuilt venueKey = false then
        .error "H14: quote signature does not verify against the venue's quote key"
      else if envelope.quote.user ≠ expectedUser then
        .error s!"H14: quote is for {envelope.quote.user} — not {expectedUser}"
      else
        let validUntil ← parseInt64 envelope.quote.validUntilMicros
        if nowMicros + minValidityMicros < -2 ^ 63 ∨ 2 ^ 63 ≤ nowMicros + minValidityMicros then
          .error (s!"quote validity margin overflows (now {nowMicros} µs, " ++
            s!"required margin {minValidityMicros} µs)")
        else if validUntil.toInt ≤ nowMicros + minValidityMicros then
          .error (s!"quote expires at {validUntil} µs (now {nowMicros} µs, " ++
            s!"required margin {minValidityMicros} µs)")
        else
          checkTicket envelope.ticket envelope.quote.ticketId
          checkDisclosed envelope

end Check

/-! ## What the check establishes -/

section Checked

variable {D : Type} [EnvelopeCrates D]

/-- The venue has every field that a settle reads. -/
structure VenueComplete (payload : Json) : Prop where
  lp : ((payload.pointer ["lp"]).bind Json.asStr).isSome
  pair : ((payload.pointer ["pairName"]).bind Json.asStr).isSome
  baseAdmin : ((payload.pointer ["baseInstrumentId", "admin"]).bind Json.asStr).isSome
  baseId : ((payload.pointer ["baseInstrumentId", "id"]).bind Json.asStr).isSome
  quoteAdmin : ((payload.pointer ["quoteInstrumentId", "admin"]).bind Json.asStr).isSome
  quoteId : ((payload.pointer ["quoteInstrumentId", "id"]).bind Json.asStr).isSome
  publicKey : ((payload.pointer ["quotePublicKey"]).bind Json.asStr).isSome

theorem venueField_eq_ok {payload : Json} {path : List String} {s : String}
    (h : venueField payload path = .ok s) : ((payload.pointer path).bind Json.asStr).isSome := by
  rw [context_eq_ok.mp h]
  rfl

theorem venueFields_of_canonicalFromDvp {payload : Json} {quote : QuoteJson} {message : String}
    (h : canonicalFromDvp D payload quote = .ok message) :
    ∀ path ∈ [["lp"], ["provider"], ["pairName"], ["baseInstrumentId", "admin"],
      ["baseInstrumentId", "id"], ["quoteInstrumentId", "admin"], ["quoteInstrumentId", "id"]],
      ((payload.pointer path).bind Json.asStr).isSome := by
  unfold canonicalFromDvp at h
  obtain ⟨_, -, h⟩ := bind_eq_ok.mp h
  obtain ⟨_, hlp, h⟩ := bind_eq_ok.mp h
  obtain ⟨_, hprovider, h⟩ := bind_eq_ok.mp h
  obtain ⟨_, hpair, h⟩ := bind_eq_ok.mp h
  obtain ⟨_, hbaseAdmin, h⟩ := bind_eq_ok.mp h
  obtain ⟨_, hbaseId, h⟩ := bind_eq_ok.mp h
  obtain ⟨_, hquoteAdmin, h⟩ := bind_eq_ok.mp h
  obtain ⟨_, hquoteId, -⟩ := bind_eq_ok.mp h
  simp only [List.forall_mem_cons]
  exact ⟨venueField_eq_ok hlp, venueField_eq_ok hprovider, venueField_eq_ok hpair,
    venueField_eq_ok hbaseAdmin, venueField_eq_ok hbaseId, venueField_eq_ok hquoteAdmin,
    venueField_eq_ok hquoteId, fun _ h => absurd h List.not_mem_nil⟩

/-- An envelope that passes has a complete venue, and its validity is an integer. -/
theorem checked_of_preSubmitCheck {envelope : QuoteEnvelope} {user synchronizer : String}
    {now margin : Int} (h : preSubmitCheck D envelope user synchronizer now margin = .ok ()) :
    VenueComplete envelope.dvp.payload ∧
      ∃ validUntil, parseInt64 envelope.quote.validUntilMicros = .ok validUntil := by
  unfold preSubmitCheck at h
  split at h
  · cases h
  split at h
  · cases h
  obtain ⟨rebuilt, hrebuilt, h⟩ := bind_eq_ok.mp h
  split at h
  · cases h
  obtain ⟨venueKey, hkey, h⟩ := bind_eq_ok.mp h
  split at h
  · cases h
  split at h
  · cases h
  obtain ⟨validUntil, hvalid, -⟩ := bind_eq_ok.mp h
  have fields := venueFields_of_canonicalFromDvp hrebuilt
  refine ⟨⟨fields _ ?_, fields _ ?_, fields _ ?_, fields _ ?_, fields _ ?_, fields _ ?_, ?_⟩,
    validUntil, hvalid⟩
  all_goals first
    | decide
    | rw [Json.pointer_name, context_eq_ok.mp hkey]; rfl

end Checked

end BookAgent.AtomicQuote
