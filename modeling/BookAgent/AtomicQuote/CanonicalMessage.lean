import BookAgent.Lib.Fallible
import BookAgent.Lib.Lines
import BookAgent.Lib.ScaledInt

/-!
# The canonical quote message

The text an AtomicDVP quote is signed over (`atomic-quote`): sixteen `key=value`
lines, and a fee block when the quote carries fees. Every value is refused when it
contains a newline, so a message is read back line by line.
-/

namespace BookAgent.AtomicQuote

open BookAgent.Lib

/-! ## The message -/

def msgTypeV3 : String := "silvana.atomic-dvp.quote.v3"

def msgTypeV4 : String := "silvana.atomic-dvp.quote.v4"

inductive QuoteSide
  | buy
  | sell
  deriving DecidableEq

def QuoteSide.canonical : QuoteSide → String
  | .buy => "BUY"
  | .sell => "SELL"

/-- One LP-required fee. -/
structure LpFeeSpec (D : Type) where
  receiver : String
  admin : String
  id : String
  amount : D

/-- The values of the message. `quoteInstrId` is the quote instrument's id, printed
as `quote_id`; `quoteNonce` is the id of the quote. -/
structure CanonicalQuoteFields (D : Type) where
  lp : String
  provider : String
  pair : String
  baseAdmin : String
  baseId : String
  quoteAdmin : String
  quoteInstrId : String
  user : String
  side : QuoteSide
  baseAmount : D
  quoteAmount : D
  quoteNonce : String
  createdAtMicros : Int
  validUntilMicros : Int
  ticketId : String
  lpFees : Option (List (LpFeeSpec D))

section Build

variable {D : Type} [DecimalText D]

open DecimalText (normalize scale isZero)

/-- Plain notation with at least one fractional digit, at most ten places. -/
def renderDecimal (v : D) : Except String String :=
  let n := normalize v
  if scale n > 10 then
    let shown := DecimalText.toString v
    .error s!"amount has more than 10 decimal places: {shown}"
  else if isZero n then .ok "0.0"
  else
    let s := DecimalText.toString n
    .ok (if '.' ∈ s.toList then s else s ++ ".0")

/-- Fees select the message version; an empty list has no encoding. -/
def msgType : Option (List (LpFeeSpec D)) → Except String String
  | none => .ok msgTypeV3
  | some [] =>
    .error "lp_fees must be non-empty when present (Some [] has no canonical encoding)"
  | some (_ :: _) => .ok msgTypeV4

/-- The four lines of each fee, numbered from `i`. -/
def feeLines (i : Nat) : List (LpFeeSpec D) → Except String (List (String × String))
  | [] => .ok []
  | fee :: fees => do
    let amount ← renderDecimal fee.amount
    let rest ← feeLines (i + 1) fees
    return (s!"fee_{i}_receiver", fee.receiver) :: (s!"fee_{i}_admin", fee.admin) ::
      (s!"fee_{i}_id", fee.id) :: (s!"fee_{i}_amount", amount) :: rest

/-- The fee block: how many fees, then each of them. -/
def feeBlock : Option (List (LpFeeSpec D)) → Except String (List (String × String))
  | none => .ok []
  | some fees => do
    let lines ← feeLines 0 fees
    return ("fee_count", toString fees.length) :: lines

/-- The lines every message has. -/
def quoteLines (f : CanonicalQuoteFields D) (msgType baseAmount quoteAmount : String) :
    List (String × String) :=
  [("msg_type", msgType), ("lp", f.lp), ("provider", f.provider), ("pair", f.pair),
    ("base_admin", f.baseAdmin), ("base_id", f.baseId), ("quote_admin", f.quoteAdmin),
    ("quote_id", f.quoteInstrId), ("user", f.user), ("side", f.side.canonical),
    ("base_amount", baseAmount), ("quote_amount", quoteAmount), ("quote_nonce", f.quoteNonce),
    ("created_at_micros", toString f.createdAtMicros),
    ("valid_until_micros", toString f.validUntilMicros), ("ticket_id", f.ticketId)]

/-- Print the lines; the first value with a newline is an error. -/
def joinLines : List (String × String) → Except String String
  | [] => .ok ""
  | (k, v) :: rest =>
    if '\n' ∈ v.toList then .error s!"newline in canonical field {k}"
    else do
      let out ← joinLines rest
      return k ++ "=" ++ v ++ "\n" ++ out

def buildCanonicalMessage (f : CanonicalQuoteFields D) : Except String String := do
  let baseAmount ← renderDecimal f.baseAmount
  let quoteAmount ← renderDecimal f.quoteAmount
  let msgType ← msgType f.lpFees
  let fees ← feeBlock f.lpFees
  joinLines (quoteLines f msgType baseAmount quoteAmount ++ fees)

end Build

/-! ## Equal quotes -/

section Same

variable {D : Type} [Decimal D]

/-- The same fee, the amount as a number. -/
structure SameFee (f g : LpFeeSpec D) : Prop where
  receiver : f.receiver = g.receiver
  admin : f.admin = g.admin
  id : f.id = g.id
  amount : Decimal.value f.amount = Decimal.value g.amount

/-- The same quote, amounts as numbers and fees in order. -/
structure SameQuote (f g : CanonicalQuoteFields D) : Prop where
  lp : f.lp = g.lp
  provider : f.provider = g.provider
  pair : f.pair = g.pair
  baseAdmin : f.baseAdmin = g.baseAdmin
  baseId : f.baseId = g.baseId
  quoteAdmin : f.quoteAdmin = g.quoteAdmin
  quoteInstrId : f.quoteInstrId = g.quoteInstrId
  user : f.user = g.user
  side : f.side = g.side
  baseAmount : Decimal.value f.baseAmount = Decimal.value g.baseAmount
  quoteAmount : Decimal.value f.quoteAmount = Decimal.value g.quoteAmount
  quoteNonce : f.quoteNonce = g.quoteNonce
  createdAtMicros : f.createdAtMicros = g.createdAtMicros
  validUntilMicros : f.validUntilMicros = g.validUntilMicros
  ticketId : f.ticketId = g.ticketId
  lpFees : Option.Rel (List.Forall₂ SameFee) f.lpFees g.lpFees

end Same

/-! ## Reading a message back -/

section Read

/-- A line as it is printed. -/
def lineText (l : String × String) : String := l.1 ++ "=" ++ l.2

theorem lineText_inj {k v w : String} (h : lineText (k, v) = lineText (k, w)) : v = w := by
  unfold lineText at h
  rw [← String.toList_inj, String.toList_append, String.toList_append (t := w)] at h
  exact String.toList_inj.mp (List.append_cancel_left h)

theorem oneLine_lineText {k v : String} (hk : OneLine k) (hv : OneLine v) :
    OneLine (lineText (k, v)) := by
  unfold OneLine lineText
  rw [String.toList_append, String.toList_append, List.mem_append, List.mem_append, not_or, not_or]
  exact ⟨⟨hk, by decide⟩, hv⟩

/-- A message is its lines, and no value has a newline. -/
theorem joinLines_ok {ls : List (String × String)} {m : String} (h : joinLines ls = .ok m) :
    (∀ l ∈ ls, OneLine l.2) ∧ m = unlines (ls.map lineText) := by
  induction ls generalizing m with
  | nil =>
    obtain rfl := Except.ok.inj h
    exact ⟨fun l hl => absurd hl List.not_mem_nil, rfl⟩
  | cons l ls ih =>
    obtain ⟨k, v⟩ := l
    rw [joinLines] at h
    split at h
    · cases h
    · rename_i hv
      obtain ⟨out, hout, hm⟩ := bind_eq_ok.mp h
      obtain rfl := pure_eq_ok.mp hm
      obtain ⟨hrest, rfl⟩ := ih hout
      refine ⟨?_, rfl⟩
      intro l hl
      rcases List.mem_cons.mp hl with rfl | hl
      · exact hv
      · exact hrest l hl

/-- Messages with one-line keys are equal only line by line. -/
theorem joinLines_injective {ls ls' : List (String × String)} {m : String}
    (hkeys : ∀ l ∈ ls, OneLine l.1) (hkeys' : ∀ l ∈ ls', OneLine l.1) (h : joinLines ls = .ok m)
    (h' : joinLines ls' = .ok m) : ls.map lineText = ls'.map lineText := by
  obtain ⟨hvalues, hm⟩ := joinLines_ok h
  obtain ⟨hvalues', hm'⟩ := joinLines_ok h'
  have oneLine : ∀ {xs : List (String × String)}, (∀ l ∈ xs, OneLine l.1) →
      (∀ l ∈ xs, OneLine l.2) → ∀ t ∈ xs.map lineText, OneLine t := by
    intro xs hk hv t ht
    obtain ⟨l, hl, rfl⟩ := List.mem_map.mp ht
    exact oneLine_lineText (hk l hl) (hv l hl)
  exact unlines_injective (oneLine hkeys hvalues) (oneLine hkeys' hvalues') (hm.symm.trans hm')

/-- The keys every message has. -/
def quoteKeys : List String :=
  ["msg_type", "lp", "provider", "pair", "base_admin", "base_id", "quote_admin", "quote_id", "user",
    "side", "base_amount", "quote_amount", "quote_nonce", "created_at_micros",
    "valid_until_micros", "ticket_id"]

theorem fst_quoteLines {D : Type} (f : CanonicalQuoteFields D) (version base quote : String) :
    (quoteLines f version base quote).map Prod.fst = quoteKeys := rfl

theorem oneLine_quoteKeys : ∀ k ∈ quoteKeys, OneLine k := by
  repeat refine List.forall_mem_cons.mpr ⟨oneLine_ofList (by decide +kernel), ?_⟩
  exact List.forall_mem_nil _

theorem oneLine_quoteLines {D : Type} (f : CanonicalQuoteFields D) (version base quote : String) :
    ∀ l ∈ quoteLines f version base quote, OneLine l.1 := by
  intro l hl
  have hkey : l.1 ∈ quoteKeys := by
    rw [← fst_quoteLines f version base quote]
    exact List.mem_map_of_mem hl
  exact oneLine_quoteKeys l.1 hkey

end Read

section Injective

variable {D : Type} [DecimalText D]

theorem canonical_injective {s t : QuoteSide} (h : s.canonical = t.canonical) : s = t := by
  cases s <;> cases t <;> first | rfl | exact absurd h (by decide)

/-- A rendered decimal denotes its value. -/
theorem plainValue_renderDecimal [LawfulDecimalText D] {v : D} {s : String}
    (h : renderDecimal v = .ok s) : plainValue s = some (Decimal.value v) := by
  unfold renderDecimal at h
  dsimp only at h
  have printed := LawfulDecimalText.plainValue_toString (DecimalText.normalize v)
  rw [LawfulDecimalText.value_normalize v] at printed
  split at h
  · cases h
  · split at h
    · rename_i hzero
      obtain rfl := Except.ok.inj h
      have value := LawfulDecimalText.value_of_isZero _ hzero
      rw [LawfulDecimalText.value_normalize v] at value
      rw [value]
      decide +kernel
    · split at h
      · obtain rfl := Except.ok.inj h
        exact printed
      · rename_i hpoint
        obtain rfl := Except.ok.inj h
        rw [plainValue_append_zero hpoint]
        exact printed

theorem renderDecimal_injective [LawfulDecimalText D] {v w : D} {s : String}
    (hv : renderDecimal v = .ok s) (hw : renderDecimal w = .ok s) :
    Decimal.value v = Decimal.value w :=
  Option.some.inj ((plainValue_renderDecimal hv).symm.trans (plainValue_renderDecimal hw))

/-- The key of a fee line. -/
theorem oneLine_feeKey (i : Nat) {suffix : String} (h : OneLine suffix) :
    OneLine ("fee_" ++ toString i ++ suffix) := by
  unfold OneLine at *
  rw [String.toList_append, String.toList_append, List.mem_append, List.mem_append, not_or, not_or]
  exact ⟨⟨by decide, notMem_natText (by decide)⟩, h⟩

/-- What the lines of a non-empty fee list are. -/
theorem feeLines_cons_ok {i : Nat} {fee : LpFeeSpec D} {fees : List (LpFeeSpec D)}
    {ls : List (String × String)} (h : feeLines i (fee :: fees) = .ok ls) :
    ∃ amount rest, renderDecimal fee.amount = .ok amount ∧ feeLines (i + 1) fees = .ok rest ∧
      ls = ("fee_" ++ toString i ++ "_receiver", fee.receiver) ::
        ("fee_" ++ toString i ++ "_admin", fee.admin) ::
        ("fee_" ++ toString i ++ "_id", fee.id) ::
        ("fee_" ++ toString i ++ "_amount", amount) :: rest := by
  rw [feeLines] at h
  obtain ⟨amount, hamount, h⟩ := bind_eq_ok.mp h
  obtain ⟨rest, hrest, h⟩ := bind_eq_ok.mp h
  exact ⟨amount, rest, hamount, hrest, (pure_eq_ok.mp h).symm⟩

theorem oneLine_feeLines {i : Nat} {fees : List (LpFeeSpec D)} {ls : List (String × String)}
    (h : feeLines i fees = .ok ls) : ∀ l ∈ ls, OneLine l.1 := by
  induction fees generalizing i ls with
  | nil =>
    obtain rfl := Except.ok.inj h
    exact fun l hl => absurd hl List.not_mem_nil
  | cons fee fees ih =>
    obtain ⟨amount, rest, -, hrest, rfl⟩ := feeLines_cons_ok h
    intro l hl
    simp only [List.mem_cons] at hl
    rcases hl with rfl | rfl | rfl | rfl | hl
    · exact oneLine_feeKey i (by decide)
    · exact oneLine_feeKey i (by decide)
    · exact oneLine_feeKey i (by decide)
    · exact oneLine_feeKey i (by decide)
    · exact ih hrest l hl

/-- The lines of a fee list determine its fees. -/
theorem feeLines_injective [LawfulDecimalText D] {i : Nat} {fees fees' : List (LpFeeSpec D)}
    {ls ls' : List (String × String)} (h : feeLines i fees = .ok ls)
    (h' : feeLines i fees' = .ok ls') (heq : ls.map lineText = ls'.map lineText) :
    List.Forall₂ SameFee fees fees' := by
  induction fees generalizing i fees' ls ls' with
  | nil =>
    obtain rfl := Except.ok.inj h
    cases fees' with
    | nil => exact .nil
    | cons fee' fees' =>
      obtain ⟨amount', rest', -, -, rfl⟩ := feeLines_cons_ok h'
      cases heq
  | cons fee fees ih =>
    obtain ⟨amount, rest, hamount, hrest, rfl⟩ := feeLines_cons_ok h
    cases fees' with
    | nil =>
      obtain rfl := Except.ok.inj h'
      cases heq
    | cons fee' fees' =>
      obtain ⟨amount', rest', hamount', hrest', rfl⟩ := feeLines_cons_ok h'
      simp only [List.map_cons, List.cons.injEq] at heq
      obtain ⟨hreceiver, hadmin, hid, hamountText, htail⟩ := heq
      rw [← lineText_inj hamountText] at hamount'
      exact .cons ⟨lineText_inj hreceiver, lineText_inj hadmin, lineText_inj hid,
        renderDecimal_injective hamount hamount'⟩ (ih hrest hrest' htail)

/-- A successful build: its rendered parts and its lines. -/
theorem buildCanonicalMessage_ok {f : CanonicalQuoteFields D} {m : String}
    (h : buildCanonicalMessage f = .ok m) :
    ∃ base quote version fees, renderDecimal f.baseAmount = .ok base ∧
      renderDecimal f.quoteAmount = .ok quote ∧ msgType f.lpFees = .ok version ∧
      feeBlock f.lpFees = .ok fees ∧ joinLines (quoteLines f version base quote ++ fees) = .ok m := by
  unfold buildCanonicalMessage at h
  obtain ⟨base, hbase, h⟩ := bind_eq_ok.mp h
  obtain ⟨quote, hquote, h⟩ := bind_eq_ok.mp h
  obtain ⟨version, hversion, h⟩ := bind_eq_ok.mp h
  obtain ⟨fees, hfees, h⟩ := bind_eq_ok.mp h
  exact ⟨base, quote, version, fees, hbase, hquote, hversion, hfees, h⟩

theorem oneLine_feeBlock {fees : Option (List (LpFeeSpec D))} {ls : List (String × String)}
    (h : feeBlock fees = .ok ls) : ∀ l ∈ ls, OneLine l.1 := by
  cases fees with
  | none =>
    obtain rfl := Except.ok.inj h
    exact fun l hl => absurd hl List.not_mem_nil
  | some fees =>
    obtain ⟨lines, hlines, h⟩ := bind_eq_ok.mp h
    obtain rfl := pure_eq_ok.mp h
    intro l hl
    rcases List.mem_cons.mp hl with rfl | hl
    · exact (by decide : OneLine "fee_count")
    · exact oneLine_feeLines hlines l hl

/-- The first line tells whether there are fees, the block which they are. -/
theorem lpFees_injective [LawfulDecimalText D] {fees fees' : Option (List (LpFeeSpec D))}
    {version : String} {ls ls' : List (String × String)} (hversion : msgType fees = .ok version)
    (hversion' : msgType fees' = .ok version) (h : feeBlock fees = .ok ls)
    (h' : feeBlock fees' = .ok ls') (heq : ls.map lineText = ls'.map lineText) :
    Option.Rel (List.Forall₂ SameFee) fees fees' := by
  cases fees with
  | none =>
    cases fees' with
    | none => exact .none
    | some fees' =>
      obtain rfl := Except.ok.inj h
      obtain ⟨lines', -, h'⟩ := bind_eq_ok.mp h'
      obtain rfl := pure_eq_ok.mp h'
      cases heq
  | some fees =>
    obtain ⟨lines, hlines, h⟩ := bind_eq_ok.mp h
    obtain rfl := pure_eq_ok.mp h
    cases fees' with
    | none =>
      obtain rfl := Except.ok.inj h'
      cases heq
    | some fees' =>
      obtain ⟨lines', hlines', h'⟩ := bind_eq_ok.mp h'
      obtain rfl := pure_eq_ok.mp h'
      rw [List.map_cons, List.map_cons, List.cons.injEq] at heq
      exact .some (feeLines_injective hlines hlines' heq.2)

/-- **Equal messages, equal quotes.** -/
theorem buildCanonicalMessage_injective [LawfulDecimalText D] {f g : CanonicalQuoteFields D}
    {m : String} (hf : buildCanonicalMessage f = .ok m) (hg : buildCanonicalMessage g = .ok m) :
    SameQuote f g := by
  obtain ⟨base, quote, version, fees, hbase, hquote, hversion, hfees, hlines⟩ :=
    buildCanonicalMessage_ok hf
  obtain ⟨base', quote', version', fees', hbase', hquote', hversion', hfees', hlines'⟩ :=
    buildCanonicalMessage_ok hg
  have keys : ∀ {f : CanonicalQuoteFields D} {version base quote : String}
      {fees : List (String × String)}, (∀ l ∈ fees, OneLine l.1) →
      ∀ l ∈ quoteLines f version base quote ++ fees, OneLine l.1 := by
    intro f version base quote fees hfees l hl
    rcases List.mem_append.mp hl with hl | hl
    · exact oneLine_quoteLines f version base quote l hl
    · exact hfees l hl
  have lines := joinLines_injective (keys (oneLine_feeBlock hfees)) (keys (oneLine_feeBlock hfees'))
    hlines hlines'
  simp only [quoteLines, List.cons_append, List.nil_append, List.map_cons, List.cons.injEq] at lines
  obtain ⟨l1, l2, l3, l4, l5, l6, l7, l8, l9, l10, l11, l12, l13, l14, l15, l16, rest⟩ := lines
  rw [← lineText_inj l1] at hversion'
  rw [← lineText_inj l11] at hbase'
  rw [← lineText_inj l12] at hquote'
  exact {
    lp := lineText_inj l2
    provider := lineText_inj l3
    pair := lineText_inj l4
    baseAdmin := lineText_inj l5
    baseId := lineText_inj l6
    quoteAdmin := lineText_inj l7
    quoteInstrId := lineText_inj l8
    user := lineText_inj l9
    side := canonical_injective (lineText_inj l10)
    baseAmount := renderDecimal_injective hbase hbase'
    quoteAmount := renderDecimal_injective hquote hquote'
    quoteNonce := lineText_inj l13
    createdAtMicros := intText_injective (lineText_inj l14)
    validUntilMicros := intText_injective (lineText_inj l15)
    ticketId := lineText_inj l16
    lpFees := lpFees_injective hversion hversion' hfees hfees' rest }

end Injective

section Sample

/-- A quote over 25.5 units, written with the given mantissa and scale, with one fee. -/
def feeQuote (baseAmount : ScaledInt) : CanonicalQuoteFields ScaledInt where
  lp := "lp"
  provider := "provider"
  pair := "CC=USDC"
  baseAdmin := "dso"
  baseId := "Amulet"
  quoteAdmin := "registry"
  quoteInstrId := "USDC"
  user := "alice"
  side := .buy
  baseAmount
  quoteAmount := ⟨3, 0⟩
  quoteNonce := "q1"
  createdAtMicros := 1700000000000000
  validUntilMicros := 1700000060000000
  ticketId := ""
  lpFees := some [⟨"lp", "dso", "Amulet", ⟨0, 0⟩⟩]

/-- The line a value prints to does not depend on how its decimals are written. -/
theorem feeQuote_same : SameQuote (feeQuote ⟨255, 1⟩) (feeQuote ⟨25500, 3⟩) := by
  have short : (buildCanonicalMessage (feeQuote ⟨255, 1⟩)).isOk = true := by decide +kernel
  have long : buildCanonicalMessage (feeQuote ⟨25500, 3⟩) =
      buildCanonicalMessage (feeQuote ⟨255, 1⟩) := by decide +kernel
  obtain ⟨m, hm⟩ := exists_of_isOk short
  exact buildCanonicalMessage_injective hm (long.trans hm)

end Sample

end BookAgent.AtomicQuote
