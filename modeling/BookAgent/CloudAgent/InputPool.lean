import BookAgent.Lib.DecimalRounding
import BookAgent.Lib.ScaledInt
import BookAgent.CloudAgent.DisclosureSelection
import BookAgent.CloudAgent.SignedTerms

/-!
# The taker's input pool

A settle selects for the leg that the user pays, and then for the fee, when the fee is in another
instrument and the proceeds do not fund it. What is selected is distinct, covers both and keeps to
the limit exactly if the first selection leaves a slot for the second.
-/

namespace BookAgent.CloudAgent

open BookAgent.Lib BookAgent.AtomicQuote BookAgent.CloudAgent.HoldingsCache

variable {D : Type}

/-! ## The legs of a settle -/

/-- What the user pays and receives. -/
structure Legs (D : Type) where
  pay : Instrument
  receive : Instrument
  amountNeeded : D
  receiveAmount : D
  deriving DecidableEq

def venueInstrument (env : QuoteEnvelope) (name : String) : Except String Instrument := do
  let admin ← venue env [name, "admin"]
  let id ← venue env [name, "id"]
  return (admin, id)

/-- A buyer pays the quote leg, a seller the base leg. -/
def SettleTerms.legs (terms : SettleTerms D) (direction : FillDirection) :
    Except String (Legs D) := do
  let base ← venueInstrument terms.env "baseInstrumentId"
  let quote ← venueInstrument terms.env "quoteInstrumentId"
  return match direction with
    | .buy => ⟨quote, base, terms.quoteAmount, terms.baseAmount⟩
    | .sell => ⟨base, quote, terms.baseAmount, terms.quoteAmount⟩

/-- A fee: its instrument and amount. -/
abbrev Fee (D : Type) := Instrument × D

/-- The settlement fee that the user was shown, unless its amount is no decimal. -/
def shownFee (D : Type) [SwapCrates D] (accepted : AtomicQuoteInfo) : Option (Fee D) :=
  accepted.settlementFee.bind fun f =>
    (EnvelopeCrates.fromStr f.amount).toOption.map (((f.instrumentAdmin, f.instrumentId), ·))

/-! ## What has to be covered -/

/-- An amount with the margin of its instrument. -/
def margined (id : String) (amount : ℚ) : ℚ :=
  if id = "Amulet" then amount * (102 / 100) + 1 else amount

theorem margined_pos {id : String} {amount : ℚ} (h : 0 < amount) : 0 < margined id amount := by
  unfold margined
  split
  · linarith
  · exact h

/-- The holdings of an instrument. -/
def heldIn (picks : List (CachedHolding D)) (instrument : Instrument) : List (CachedHolding D) :=
  picks.filter fun h => decide (h.instrument = cacheKey instrument.1 instrument.2)

theorem heldIn_append (picks more : List (CachedHolding D)) (instrument : Instrument) :
    heldIn (picks ++ more) instrument = heldIn picks instrument ++ heldIn more instrument :=
  List.filter_append _ _

theorem heldIn_of_instrument {picks : List (CachedHolding D)} {instrument : Instrument}
    (h : ∀ p ∈ picks, p.instrument = cacheKey instrument.1 instrument.2) :
    heldIn picks instrument = picks :=
  List.filter_eq_self.mpr fun p hp => decide_eq_true (h p hp)

theorem heldIn_of_other {picks : List (CachedHolding D)} {instrument : Instrument} {key : String}
    (h : ∀ p ∈ picks, p.instrument = key) (hkey : key ≠ cacheKey instrument.1 instrument.2) :
    heldIn picks instrument = [] :=
  List.filter_eq_nil_iff.mpr fun p hp hsame => hkey ((h p hp) ▸ of_decide_eq_true hsame)

/-- What holdings of its own have to cover of a fee; a selection adds the margin to what it is
asked for. -/
def feeNeed [Decimal D] (f : Fee D) : ℚ :=
  let target := margined f.1.2 (Decimal.value f.2)
  if target ≤ 0 then target else margined f.1.2 target

namespace Legs

variable [Decimal D] (legs : Legs D)

/-- The fee of the leg that the user pays. -/
def feeInPay (fee : Option (Fee D)) : ℚ :=
  fee.elim 0 fun f => if feeMatches f.1 legs.pay then margined f.1.2 (Decimal.value f.2) else 0

/-- What the pay leg and a fee in its instrument come to. -/
def paid (fee : Option (Fee D)) : ℚ := Decimal.value legs.amountNeeded + legs.feeInPay fee

/-- The proceeds are in the fee's instrument, and at least its target. -/
def Proceeds (f : Fee D) : Prop :=
  feeMatches f.1 legs.receive = true ∧
    margined f.1.2 (Decimal.value f.2) ≤ Decimal.value legs.receiveAmount

/-- Holdings of another instrument have to be selected for the fee. -/
structure NeedsHoldings (f : Fee D) : Prop where
  other : feeMatches f.1 legs.pay = false
  positive : 0 < margined f.1.2 (Decimal.value f.2)
  unfunded : ¬ legs.Proceeds f

end Legs

/-- The pool is distinct, within the limit, and covers the pay leg and the fee. -/
structure PoolFits [Decimal D] (legs : Legs D) (fee : Option (Fee D)) (maxInputHoldings : Nat)
    (picks : List (CachedHolding D)) : Prop where
  distinct : (contractIds picks).Nodup
  bounded : picks.length ≤ min maxInputHoldings 100
  pay : margined legs.pay.2 (legs.paid fee) ≤ amountOf (heldIn picks legs.pay)
  fee : ∀ f ∈ fee, feeMatches f.1 legs.pay = false →
    legs.Proceeds f ∨ feeNeed f ≤ amountOf (heldIn picks f.1)

/-- When holdings have to be selected for the fee, those of the pay leg leave a slot for one. -/
def LeavesSlot [SwapCrates D] (swapper : AtomicSwapper) (w : SettleAnswers D) (legs : Legs D)
    (fee : Option (Fee D)) (maxInputHoldings : Nat) : Prop :=
  ∀ f ∈ fee, legs.NeedsHoldings f → ∀ target picks,
    selectTarget legs.pay legs.amountNeeded fee.toList = some target →
    selectLeg swapper (cacheKey legs.pay.1 legs.pay.2) target (min maxInputHoldings 100)
      (decide (legs.pay.2 = "Amulet")) (w.tries 0) = some picks →
    picks.length < min maxInputHoldings 100

/-- The margined amount is computed in decimal numbers. -/
def InDecimals (id : String) (amount : ℚ) : Prop :=
  id = "Amulet" → IsDecimal (amount * (102 / 100)) ∧ IsDecimal (amount * (102 / 100) + 1)

/-- What the ledger and the instruments promise of the caches that a settle finds. -/
structure Genuine [Decimal D] (w : SettleAnswers D) (legs : Legs D) (fee : Option (Fee D)) :
    Prop where
  countable : ∀ leg, ∀ found ∈ w.tries leg, ∀ instrument, found.1.Countable instrument
  /-- A contract id names one contract, whatever the cache. -/
  sameContract : ∀ leg leg', ∀ found ∈ w.tries leg, ∀ found' ∈ w.tries leg', ∀ cid h h',
    found.1.available.lookup cid = some h → found'.1.available.lookup cid = some h' →
    h.instrument = h'.instrument
  /-- Instruments that do not match have different keys. -/
  keys : ∀ f ∈ fee, cacheKey f.1.1 f.1.2 = cacheKey legs.pay.1 legs.pay.2 →
    feeMatches f.1 legs.pay = true
  payDecimal : IsDecimal (legs.paid fee) ∧ InDecimals legs.pay.2 (legs.paid fee)
  feeDecimal : ∀ f ∈ fee, InDecimals f.1.2 (Decimal.value f.2) ∧
    InDecimals f.1.2 (margined f.1.2 (Decimal.value f.2))

/-! ## Targets -/

section Selects

variable [SwapCrates D] {legs : Legs D} {fee : Option (Fee D)} {w : SettleAnswers D}
  {swapper : AtomicSwapper}

theorem feeTarget_eq (id : String) (total : D) :
    feeTarget id total = disclosureTarget total (decide (id = "Amulet")) := by
  unfold feeTarget disclosureTarget
  simp only [decide_eq_true_eq]

/-- The fees of a quote are the one that was shown. -/
theorem feeTotals_shown (accepted : AtomicQuoteInfo) :
    feeTotals accepted.settlementFee.toList [] = .ok (shownFee D accepted).toList := by
  unfold shownFee
  cases accepted.settlementFee with
  | none => rfl
  | some f =>
    rw [Option.toList_some, feeTotals, Option.bind_some]
    cases EnvelopeCrates.fromStr (D := D) f.amount with
    | error e => rfl
    | ok amount => rfl

/-! ## The steps of a selection -/

theorem venueInstrument_of_orEnd {env : QuoteEnvelope} {name : String} {instrument : Instrument}
    (h : (do
      let admin ← orEnd (venue env [name, "admin"])
      let id ← orEnd (venue env [name, "id"])
      return (admin, id) : Early Instrument) = .ok instrument) :
    venueInstrument env name = .ok instrument := by
  obtain ⟨admin, hadmin, h⟩ := bind_eq_ok.mp h
  obtain ⟨id, hid, h⟩ := bind_eq_ok.mp h
  obtain rfl := pure_eq_ok.mp h
  unfold venueInstrument
  rw [mapError_eq_ok.mp hadmin, mapError_eq_ok.mp hid]
  rfl

/-- The fee is funded without holdings of its own, or from a selection in the slots that are
left. -/
theorem fundFees_shown {receiveAmount : D} {pay receive : Instrument} {maxInputs leg : Nat}
    {paid picks : List (CachedHolding D)}
    (h : fundFees swapper w pay receive receiveAmount maxInputs fee.toList leg paid = .ok picks) :
    (picks = paid ∧ ∀ f ∈ fee, feeMatches f.1 pay = true ∨ ∃ target,
        feeTarget f.1.2 f.2 = some target ∧ (Decimal.le target Decimal.zero = true ∨
          feeMatches f.1 receive = true ∧ Decimal.le target receiveAmount = true)) ∨
      ∃ f ∈ fee, ∃ target more, feeMatches f.1 pay = false ∧ feeTarget f.1.2 f.2 = some target ∧
        ¬ (feeMatches f.1 receive = true ∧ Decimal.le target receiveAmount = true) ∧
        selectLeg swapper (cacheKey f.1.1 f.1.2) target (max (maxInputs - paid.length) 1)
          (decide (f.1.2 = "Amulet")) (w.tries leg) = some more ∧ picks = paid ++ more := by
  cases fee with
  | none =>
    obtain rfl := Except.ok.inj h
    exact .inl ⟨rfl, fun f hf => by cases hf⟩
  | some f =>
    obtain ⟨instrument, total⟩ := f
    rw [Option.toList_some, fundFees] at h
    split at h
    · rename_i hmatch
      obtain rfl := Except.ok.inj h
      exact .inl ⟨rfl, fun f hf => .inl (Option.some.inj hf ▸ hmatch)⟩
    · rename_i hmatch
      split at h
      · cases h
      · rename_i target htarget
        split at h
        · rename_i hskip
          obtain rfl := Except.ok.inj h
          refine .inl ⟨rfl, fun f hf => .inr ⟨target, ?_, ?_⟩⟩
          · rw [← Option.some.inj hf]
            exact htarget
          · rw [← Option.some.inj hf]
            simpa only [Bool.or_eq_true, Bool.and_eq_true] using hskip
        · rename_i hskip
          split at h
          · cases h
          · rename_i more hmore
            obtain rfl := Except.ok.inj h
            refine .inr ⟨_, rfl, target, more, ?_, htarget, fun hproceeds => hskip ?_, hmore, rfl⟩
            · exact Bool.not_eq_true _ ▸ hmatch
            · rw [Bool.or_eq_true, Bool.and_eq_true]
              exact .inr hproceeds

/-- The steps of a selection that succeeds. -/
theorem steps_of_selectInputs {terms : SettleTerms D} {direction : FillDirection}
    {maxInputHoldings : Nat} {picks : List (CachedHolding D)}
    (hlegs : terms.legs direction = .ok legs)
    (hfees : feeTotals terms.signedFees [] = .ok fee.toList)
    (h : selectInputs swapper w terms direction maxInputHoldings = .ok picks) :
    ∃ target paid, selectTarget legs.pay legs.amountNeeded fee.toList = some target ∧
      selectLeg swapper (cacheKey legs.pay.1 legs.pay.2) target (min maxInputHoldings 100)
        (decide (legs.pay.2 = "Amulet")) (w.tries 0) = some paid ∧
      fundFees swapper w legs.pay legs.receive legs.receiveAmount (min maxInputHoldings 100)
        fee.toList 1 paid = .ok picks := by
  unfold SettleTerms.legs at hlegs
  obtain ⟨base, hbase, hlegs⟩ := bind_eq_ok.mp hlegs
  obtain ⟨quote, hquote, hlegs⟩ := bind_eq_ok.mp hlegs
  obtain rfl := pure_eq_ok.mp hlegs
  unfold selectInputs at h
  obtain ⟨pay, hpay, h⟩ := bind_eq_ok.mp h
  obtain ⟨totals, htotals, h⟩ := bind_eq_ok.mp h
  obtain ⟨receive, hreceive, h⟩ := bind_eq_ok.mp h
  obtain rfl := Except.ok.inj (hfees.symm.trans htotals)
  have hpay := venueInstrument_of_orEnd hpay
  have hreceive := venueInstrument_of_orEnd hreceive
  cases direction
  case' buy =>
    obtain rfl := Except.ok.inj (hquote.symm.trans hpay)
    obtain rfl := Except.ok.inj (hbase.symm.trans hreceive)
  case' sell =>
    obtain rfl := Except.ok.inj (hbase.symm.trans hpay)
    obtain rfl := Except.ok.inj (hquote.symm.trans hreceive)
  all_goals
    dsimp only at h ⊢
    split at h
    · cases h
    · rename_i target htarget
      split at h
      · cases h
      · rename_i paid hpaid
        exact ⟨target, paid, htarget, hpaid, h⟩

/-- Holdings of one key, each from the cache of a try, that cover what a target comes to. -/
structure LegPicks (tries : List (HoldingsCache D × Instant)) (key id : String) (target : ℚ)
    (maxInputs : Nat) (picks : List (CachedHolding D)) : Prop where
  positive : 0 < target
  distinct : (contractIds picks).Nodup
  held : ∃ found ∈ tries, ∀ h ∈ picks,
    found.1.available.lookup h.contractId = some h ∧ h.instrument = key
  capped : picks.length ≤ maxInputs
  covers : margined id target ≤ amountOf picks

namespace LegPicks

variable {tries : List (HoldingsCache D × Instant)} {key id : String} {target : ℚ} {maxInputs : Nat}
  {picks : List (CachedHolding D)}

theorem instrument_eq (h : LegPicks tries key id target maxInputs picks) :
    ∀ p ∈ picks, p.instrument = key := by
  obtain ⟨found, -, hheld⟩ := h.held
  exact fun p hp => (hheld p hp).2

theorem length_pos (h : LegPicks tries key id target maxInputs picks) : 0 < picks.length := by
  refine List.length_pos_iff.mpr fun hnil => ?_
  have hcovers := h.covers
  rw [hnil, amountOf_nil] at hcovers
  exact hcovers.not_gt (margined_pos h.positive)

end LegPicks

/-! ## The pool -/

/-- The pay leg alone. -/
theorem poolFits_of_skipped (genuine : Genuine w legs fee) {maxInputHoldings : Nat}
    {paid : List (CachedHolding D)}
    (hpaid : LegPicks (w.tries 0) (cacheKey legs.pay.1 legs.pay.2) legs.pay.2 (legs.paid fee)
      (min maxInputHoldings 100) paid)
    (hskip : ∀ f ∈ fee, feeMatches f.1 legs.pay = true ∨
      margined f.1.2 (Decimal.value f.2) ≤ 0 ∨ legs.Proceeds f) :
    PoolFits legs fee maxInputHoldings paid where
  distinct := hpaid.distinct
  bounded := hpaid.capped
  pay := by
    rw [heldIn_of_instrument hpaid.instrument_eq]
    exact hpaid.covers
  fee f hf hother := by
    rcases hskip f hf with hmatch | hnonpos | hproceeds
    · rw [hother] at hmatch
      cases hmatch
    · refine .inr ?_
      unfold feeNeed
      dsimp only
      rw [if_pos hnonpos]
      obtain ⟨found, hfound, hheld⟩ := hpaid.held
      refine hnonpos.trans (weight_nonneg fun h hh => ?_)
      have hmem := List.mem_of_mem_filter hh
      refine (genuine.countable 0 found hfound h.instrument).nonneg h (List.mem_filter.mpr ⟨?_, ?_⟩)
      · exact Pool.mem_values.mpr ⟨_, (hheld h hmem).1⟩
      · exact decide_eq_true rfl
    · exact .inl hproceeds

/-- The pay leg and holdings for the fee. -/
theorem poolFits_of_selected (genuine : Genuine w legs fee) {maxInputHoldings : Nat} {f : Fee D}
    (hf : f ∈ fee) (hother : feeMatches f.1 legs.pay = false) {paid more : List (CachedHolding D)}
    (hpaid : LegPicks (w.tries 0) (cacheKey legs.pay.1 legs.pay.2) legs.pay.2 (legs.paid fee)
      (min maxInputHoldings 100) paid)
    (hmore : LegPicks (w.tries 1) (cacheKey f.1.1 f.1.2) f.1.2
      (margined f.1.2 (Decimal.value f.2)) (min maxInputHoldings 100 - paid.length) more)
    (hslot : paid.length < min maxInputHoldings 100) :
    PoolFits legs fee maxInputHoldings (paid ++ more) := by
  have hkeys : cacheKey f.1.1 f.1.2 ≠ cacheKey legs.pay.1 legs.pay.2 := fun hsame => by
    rw [genuine.keys f hf hsame] at hother
    cases hother
  refine ⟨?_, ?_, ?_, ?_⟩
  · unfold contractIds
    rw [List.map_append]
    refine List.nodup_append'.mpr ⟨hpaid.distinct, hmore.distinct, ?_⟩
    -- one contract is not held in both instruments
    intro cid hcid hcid'
    obtain ⟨h, hh, rfl⟩ := List.mem_map.mp hcid
    obtain ⟨h', hh', hid⟩ := List.mem_map.mp hcid'
    obtain ⟨found, hfound, hheld⟩ := hpaid.held
    obtain ⟨found', hfound', hheld'⟩ := hmore.held
    have hlookup' := (hheld' h' hh').1
    rw [hid] at hlookup'
    have hsame := genuine.sameContract 0 1 found hfound found' hfound' _ h h' (hheld h hh).1 hlookup'
    rw [(hheld h hh).2, (hheld' h' hh').2] at hsame
    exact hkeys hsame.symm
  · have hcap := hmore.capped
    rw [List.length_append]
    omega
  · rw [heldIn_append, heldIn_of_instrument hpaid.instrument_eq,
      heldIn_of_other hmore.instrument_eq hkeys, List.append_nil]
    exact hpaid.covers
  · intro f' hf' _
    obtain rfl : f = f' := Option.some.inj (hf.symm.trans hf')
    refine .inr ?_
    rw [heldIn_append, heldIn_of_other hpaid.instrument_eq hkeys.symm,
      heldIn_of_instrument hmore.instrument_eq, List.nil_append]
    unfold feeNeed
    dsimp only
    rw [if_neg hmore.positive.not_ge]
    exact hmore.covers

/-! ## What is selected -/

section Exact

variable [Decimal.Rounding D]

theorem value_disclosureTarget {id : String} {amount target : D}
    (h : disclosureTarget amount (decide (id = "Amulet")) = some target)
    (hexact : InDecimals id (Decimal.value amount)) :
    Decimal.value target = margined id (Decimal.value amount) := by
  unfold disclosureTarget at h
  unfold margined
  by_cases hid : id = "Amulet"
  · obtain ⟨hscaled, hpadded⟩ := hexact hid
    have hfactor : Decimal.value (Decimal.new 102 2 : D) = 102 / 100 := by
      have hvalue := @Decimal.Rounding.value_new D _ _ 102 2 (by decide +kernel)
      rw [hvalue]
      norm_num
    have hone : Decimal.value (Decimal.one : D) = 1 := by
      have hvalue := @Decimal.Rounding.value_new D _ _ 1 0 (by decide +kernel)
      rw [Decimal.one, hvalue]
      norm_num
    obtain ⟨scaled, hmul, hscaledValue⟩ := (Decimal.Rounding.checkedMul amount
      (Decimal.new 102 2)).exact (Decimal.Rounding.exact (hfactor ▸ hscaled)) (hfactor ▸ hscaled)
    rw [hfactor] at hscaledValue
    obtain ⟨padded, hadd, hpaddedValue⟩ := @Decimal.Lawful.checkedAdd D _ _ scaled Decimal.one
      (by rwa [hscaledValue, hone])
    rw [if_pos (decide_eq_true hid), hmul, Option.bind_eq_bind, Option.bind_some, hadd] at h
    obtain rfl := Option.some.inj h
    rw [if_pos hid, hpaddedValue, hscaledValue, hone]
  · rw [if_neg (by simpa using hid)] at h
    obtain rfl := Option.some.inj h
    rw [if_neg hid]

/-- The pay leg is selected for what it and a fee in its instrument come to. -/
theorem value_selectTarget (genuine : Genuine w legs fee) {target : D}
    (h : selectTarget legs.pay legs.amountNeeded fee.toList = some target) :
    Decimal.value target = legs.paid fee := by
  have hdecimal := genuine.payDecimal.1
  unfold Legs.paid Legs.feeInPay at *
  unfold selectTarget at h
  cases fee with
  | none =>
    obtain rfl := Option.some.inj h
    rw [Option.elim_none, add_zero]
  | some f =>
    rw [Option.elim_some] at hdecimal ⊢
    rw [Option.toList_some, List.filter_singleton] at h
    cases hmatch : feeMatches f.1 legs.pay with
    | false =>
      rw [hmatch] at h
      obtain rfl := Option.some.inj h
      rw [if_neg Bool.false_ne_true, add_zero]
    | true =>
      rw [hmatch, if_pos rfl] at hdecimal
      rw [hmatch, cond_true, List.foldlM_cons, feeTarget_eq] at h
      rw [if_pos rfl]
      obtain ⟨sum, hsum, h⟩ := Option.bind_eq_some_iff.mp h
      obtain ⟨feeTarget, hfee, hsum⟩ := Option.bind_eq_some_iff.mp hsum
      obtain rfl := Option.some.inj h
      have hvalue := value_disclosureTarget hfee (genuine.feeDecimal f rfl).1
      rw [← hvalue] at hdecimal ⊢
      obtain ⟨sum', hadd, hsumValue⟩ := Decimal.Lawful.checkedAdd hdecimal
      obtain rfl := Option.some.inj (hadd.symm.trans hsum)
      exact hsumValue

theorem legPicks_of_selectLeg {tries : List (HoldingsCache D × Instant)}
    (hcountable : ∀ found ∈ tries, ∀ instrument, found.1.Countable instrument) {key id : String}
    {target : D} {maxInputs : Nat} {picks : List (CachedHolding D)} (hmax : 1 ≤ maxInputs)
    (hexact : InDecimals id (Decimal.value target))
    (h : selectLeg swapper key target maxInputs (decide (id = "Amulet")) tries = some picks) :
    LegPicks tries key id (Decimal.value target) maxInputs picks := by
  obtain ⟨found, hfound, h⟩ := List.exists_of_findSome?_eq_some h
  obtain ⟨hpos, padded, hpadded, disclosed⟩ :=
    disclosed_of_select (hcountable found hfound key) hmax h
  refine ⟨hpos, disclosed.distinct, ⟨found, hfound, disclosed.held⟩, disclosed.capped, ?_⟩
  rw [← value_disclosureTarget hpadded hexact]
  exact disclosed.covers

theorem value_feeTarget (genuine : Genuine w legs fee) {f : Fee D} (hf : f ∈ fee) {target : D}
    (h : feeTarget f.1.2 f.2 = some target) :
    Decimal.value target = margined f.1.2 (Decimal.value f.2) := by
  rw [feeTarget_eq] at h
  exact value_disclosureTarget h (genuine.feeDecimal f hf).1

/-- Without holdings of its own the fee is in the pay leg, nothing, or funded by the proceeds. -/
theorem funded_of_skipped (genuine : Genuine w legs fee) {f : Fee D} (hf : f ∈ fee)
    (h : feeMatches f.1 legs.pay = true ∨ ∃ target, feeTarget f.1.2 f.2 = some target ∧
      (Decimal.le target Decimal.zero = true ∨
        feeMatches f.1 legs.receive = true ∧ Decimal.le target legs.receiveAmount = true)) :
    feeMatches f.1 legs.pay = true ∨ margined f.1.2 (Decimal.value f.2) ≤ 0 ∨ legs.Proceeds f := by
  rcases h with hmatch | ⟨target, htarget, hnonpos | ⟨hmatch, hle⟩⟩
  · exact .inl hmatch
  · have hzero : Decimal.value (Decimal.zero : D) = 0 := Decimal.Lawful.value_zero
    have hle := of_decide_eq_true hnonpos
    rw [value_feeTarget genuine hf htarget, hzero] at hle
    exact .inr (.inl hle)
  · have hle := of_decide_eq_true hle
    rw [value_feeTarget genuine hf htarget] at hle
    exact .inr (.inr ⟨hmatch, hle⟩)

variable {envelope : AtomicQuoteEnvelope} {accepted : AtomicQuoteInfo} {direction : FillDirection}
  {maxInputHoldings : Nat} {terms : SettleTerms D} {picks : List (CachedHolding D)}

/-- **The pool that a settle reserves fits exactly if the pay leg leaves a slot** whenever holdings
have to be selected for the fee. -/
theorem poolFits_iff_leavesSlot (hmax : 1 ≤ maxInputHoldings)
    (hreached : checkAndSelect swapper envelope accepted direction maxInputHoldings w
      = .ok (terms, picks))
    (hlegs : terms.legs direction = .ok legs) (genuine : Genuine w legs (shownFee D accepted)) :
    PoolFits legs (shownFee D accepted) maxInputHoldings picks ↔
      LeavesSlot swapper w legs (shownFee D accepted) maxInputHoldings := by
  unfold checkAndSelect at hreached
  obtain ⟨⟨env, validUntil⟩, -, hreached⟩ := bind_eq_ok.mp hreached
  obtain ⟨terms', hterms, hreached⟩ := bind_eq_ok.mp hreached
  obtain ⟨picks', hpicks, hreached⟩ := bind_eq_ok.mp hreached
  obtain ⟨rfl, rfl⟩ := Prod.mk.inj (pure_eq_ok.mp hreached)
  have agreed := accepted_of_acceptedTerms hterms
  have hfees : feeTotals terms'.signedFees [] = .ok (shownFee D accepted).toList := by
    rw [agreed.signedFees, agreed.shownFees]
    exact feeTotals_shown accepted
  obtain ⟨target, paid, htarget, hselect, hfund⟩ := steps_of_selectInputs hlegs hfees hpicks
  have hlimit : 1 ≤ min maxInputHoldings 100 := by omega
  have hvalue := value_selectTarget genuine htarget
  have hpaid := legPicks_of_selectLeg (genuine.countable 0) hlimit
    (hvalue ▸ genuine.payDecimal.2) hselect
  rw [hvalue] at hpaid
  rcases fundFees_shown hfund with ⟨rfl, hskip⟩ |
    ⟨f, hf, feeTarget, more, hother, hfeeTarget, hunfunded, hmore, rfl⟩
  · have hskip := fun f hf => funded_of_skipped genuine hf (hskip f hf)
    refine iff_of_true (poolFits_of_skipped genuine hpaid hskip) fun f hf needs => ?_
    rcases hskip f hf with hmatch | hnonpos | hproceeds
    · rw [needs.other] at hmatch
      cases hmatch
    · exact absurd needs.positive hnonpos.not_gt
    · exact absurd hproceeds needs.unfunded
  · have hfeeValue := value_feeTarget genuine hf hfeeTarget
    have hmore := legPicks_of_selectLeg (genuine.countable 1) (le_max_right _ 1)
      (hfeeValue ▸ (genuine.feeDecimal f hf).2) hmore
    rw [hfeeValue] at hmore
    have needs : legs.NeedsHoldings f := by
      refine ⟨hother, hmore.positive, fun hproceeds => hunfunded ⟨hproceeds.1, ?_⟩⟩
      exact decide_eq_true (hfeeValue ▸ hproceeds.2)
    constructor
    · intro fits f' _ _ target' paid' htarget' hselect'
      obtain rfl := Option.some.inj (htarget.symm.trans htarget')
      obtain rfl := Option.some.inj (hselect.symm.trans hselect')
      -- holdings were selected in the slot of the clamp
      have hbounded := fits.bounded
      have hpos := hmore.length_pos
      rw [List.length_append] at hbounded
      omega
    · intro leaves
      have hslot := leaves f hf needs target paid htarget hselect
      have hcap : max (min maxInputHoldings 100 - paid.length) 1
          = min maxInputHoldings 100 - paid.length := by omega
      rw [hcap] at hmore
      exact poolFits_of_selected genuine hf hother hpaid hmore hslot

end Exact

end Selects

/-! ## A fee in another instrument -/

section Example

/-- The digits of a decimal number, without zeros at the end. -/
instance : DecimalText RoundedDecimal where
  normalize d := d
  scale d := ((List.range 29).find? fun k => (d.number * 10 ^ k).den = 1).getD 28
  isZero d := decide (d.number = 0)
  toString d :=
    let scale := ((List.range 29).find? fun k => (d.number * 10 ^ k).den = 1).getD 28
    ScaledInt.text ⟨(d.number * 10 ^ scale).num, scale⟩

/-- Integers are decimals, and every signature is the key's. -/
abbrev eurCrates : SwapCrates RoundedDecimal where
  fromStr s := context "invalid decimal"
    ((plainNat s.toList).bind fun n => RoundedDecimal.result n)
  verifyQuote _ _ _ := true
  parseJson := parseUsdPayload

local instance poolCrates : SwapCrates RoundedDecimal := eurCrates

def eurFee : AtomicFeeSpec := ⟨"lp", "reg", "EUR", "1"⟩

/-- A minute to buy one `XYZ` for 100 `USD`, at a fee of one `EUR`. -/
def eurQuote : AtomicQuote := { usdQuote with lpFees := [eurFee] }

def eurEnvelope : AtomicQuoteEnvelope :=
  { usdEnvelope with
    quote := some eurQuote
    canonicalMessage :=
      ((canonicalFromDvp RoundedDecimal usdVenue (quoteFromProto eurQuote)).toOption).getD "" }

def eurAccepted : AtomicQuoteInfo := ⟨"LP", "lp", "1", "100", some eurFee⟩

def hundredUsd : CachedHolding RoundedDecimal :=
  ⟨"c1", "t", "reg::USD", Decimal.new 100 0, some "", "sync", 0⟩

def oneEur : CachedHolding RoundedDecimal :=
  ⟨"c2", "t", "reg::EUR", Decimal.new 1 0, some "", "sync", 0⟩

def eurCache : HoldingsCache RoundedDecimal :=
  (HoldingsCache.new false).addCreated [hundredUsd, oneEur]

def eurAnswers : SettleAnswers RoundedDecimal where
  nowMicros := 0
  tries _ := [(eurCache, 0)]
  failureDetail _ := ""
  cache := eurCache
  reserveAt := 0
  reserveMicros := 0
  confirmed := .ok ()
  client := .ready
  beforeSubmit := true
  submit _ _ _ _ := ⟨.notStarted, ⟨.ok (), fun _ => .ok []⟩, 0, 0, [], false⟩

def eurLegs : Legs RoundedDecimal :=
  ⟨("reg", "USD"), ("reg", "XYZ"), Decimal.new 100 0, Decimal.new 1 0⟩

/-- The legs of the settle and what it selects for them. -/
def eurPool (maxInputHoldings : Nat) :
    Option (Legs RoundedDecimal × List (CachedHolding RoundedDecimal)) :=
  match checkAndSelect usdSwapper eurEnvelope eurAccepted .buy maxInputHoldings eurAnswers with
  | .error _ => none
  | .ok (terms, picks) => (terms.legs .buy).toOption.map (·, picks)

theorem selected_of_eurPool {maxInputHoldings : Nat} {legs : Legs RoundedDecimal}
    {picks : List (CachedHolding RoundedDecimal)} (h : eurPool maxInputHoldings = some (legs, picks)) :
    ∃ terms, checkAndSelect usdSwapper eurEnvelope eurAccepted .buy maxInputHoldings eurAnswers
      = .ok (terms, picks) ∧ terms.legs .buy = .ok legs := by
  unfold eurPool at h
  split at h
  · cases h
  · rename_i terms picks' hchecked
    obtain ⟨legs', hlegs, heq⟩ := Option.map_eq_some_iff.mp h
    obtain ⟨rfl, rfl⟩ := Prod.mk.inj heq
    refine ⟨terms, hchecked, ?_⟩
    cases hresult : terms.legs .buy with
    | error e =>
      rw [hresult] at hlegs
      cases hlegs
    | ok legs'' =>
      rw [hresult] at hlegs
      rw [Option.some.inj hlegs]

theorem genuine_eur : Genuine eurAnswers eurLegs (shownFee RoundedDecimal eurAccepted) where
  countable leg found hfound instrument := by
    obtain rfl := List.mem_singleton.mp hfound
    have hsub : (eurCache.heldOf instrument).Sublist eurCache.available.values :=
      List.filter_sublist
    refine ⟨fun h hh => ?_, fun held hheld => ?_⟩
    · exact (by decide +kernel : ∀ h ∈ eurCache.available.values, 0 ≤ Decimal.value h.amount) h
        (hsub.subset hh)
    · exact (by decide +kernel : ∀ held ∈ eurCache.available.values.sublists,
        IsDecimal (amountOf held)) held (List.mem_sublists.mpr (hheld.trans hsub))
  sameContract leg leg' found hfound found' hfound' cid h h' hlookup hlookup' := by
    obtain rfl := List.mem_singleton.mp hfound
    obtain rfl := List.mem_singleton.mp hfound'
    rw [Option.some.inj (hlookup.symm.trans hlookup')]
  keys := by decide +kernel
  payDecimal := ⟨by decide +kernel, fun h => absurd h (by decide)⟩
  feeDecimal f hf := by
    have hshown : shownFee RoundedDecimal eurAccepted = some (("reg", "EUR"), oneEur.amount) := by
      decide +kernel
    rw [hshown] at hf
    obtain rfl := Option.some.inj hf
    exact ⟨fun h => absurd h (by decide), fun h => absurd h (by decide)⟩

/-- The one slot is taken by the `USD`, and the fee's `EUR` are reserved on top. -/
theorem pool_exceeds_limit : ¬ ∀ (swapper : AtomicSwapper) (envelope : AtomicQuoteEnvelope)
    (accepted : AtomicQuoteInfo) (direction : FillDirection) (maxInputHoldings : Nat)
    (w : SettleAnswers RoundedDecimal) (terms : SettleTerms RoundedDecimal)
    (picks : List (CachedHolding RoundedDecimal)) (legs : Legs RoundedDecimal),
    1 ≤ maxInputHoldings →
    checkAndSelect swapper envelope accepted direction maxInputHoldings w = .ok (terms, picks) →
    (settleEnvelopeWith swapper envelope accepted direction maxInputHoldings w).inputs
      = contractIds picks →
    terms.legs direction = .ok legs → Genuine w legs (shownFee RoundedDecimal accepted) →
    PoolFits legs (shownFee RoundedDecimal accepted) maxInputHoldings picks := by
  intro h
  obtain ⟨terms, hchecked, hlegs⟩ := selected_of_eurPool
    (by decide +kernel : eurPool 1 = some (eurLegs, [hundredUsd, oneEur]))
  have fits := h usdSwapper eurEnvelope eurAccepted .buy 1 eurAnswers terms _ eurLegs le_rfl hchecked
    (by decide +kernel) hlegs genuine_eur
  exact absurd fits.bounded (by decide)

/-- With two slots the pool fits. -/
theorem poolFits_iff_leavesSlot_two : ∃ terms,
    checkAndSelect usdSwapper eurEnvelope eurAccepted .buy 2 eurAnswers
      = .ok (terms, [hundredUsd, oneEur]) ∧
    (PoolFits eurLegs (shownFee RoundedDecimal eurAccepted) 2 [hundredUsd, oneEur] ↔
      LeavesSlot usdSwapper eurAnswers eurLegs (shownFee RoundedDecimal eurAccepted) 2) := by
  obtain ⟨terms, hchecked, hlegs⟩ := selected_of_eurPool
    (by decide +kernel : eurPool 2 = some (eurLegs, [hundredUsd, oneEur]))
  exact ⟨terms, hchecked, poolFits_iff_leavesSlot (by decide) hchecked hlegs genuine_eur⟩

end Example

end BookAgent.CloudAgent
