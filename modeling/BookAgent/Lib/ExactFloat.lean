import Mathlib.Data.Rat.Floor
import BookAgent.Lib.Numeral
import BookAgent.Lib.ParseFloat

/-!
# Floats as exact numbers

Rust's `f64` with its infinities and not-a-number, where a finite value is the exact number
it stands for: sums are not rounded. Comparisons with not-a-number are false.
-/

namespace BookAgent.Lib

inductive ExactFloat
  | finite (q : ℚ)
  | inf (negative : Bool)
  | nan
  deriving DecidableEq

namespace ExactFloat

/-- `a <= b` -/
def le : ExactFloat → ExactFloat → Bool
  | finite a, finite b => decide (a ≤ b)
  | inf true, finite _ | finite _, inf false | inf true, inf _ | inf false, inf false => true
  | _, _ => false

/-- `a < b` -/
def lt : ExactFloat → ExactFloat → Bool
  | finite a, finite b => decide (a < b)
  | inf true, finite _ | finite _, inf false | inf true, inf false => true
  | _, _ => false

def add : ExactFloat → ExactFloat → ExactFloat
  | finite a, finite b => finite (a + b)
  | nan, _ | _, nan => nan
  | inf s, inf t => if s = t then inf s else nan
  | inf s, finite _ | finite _, inf s => inf s

def neg : ExactFloat → ExactFloat
  | finite a => finite (-a)
  | inf s => inf !s
  | nan => nan

def abs : ExactFloat → ExactFloat
  | finite a => finite |a|
  | inf _ => inf false
  | nan => nan

def sub (a b : ExactFloat) : ExactFloat := a.add b.neg

/-- `a * q` for a positive number. -/
def scale (q : ℚ) : ExactFloat → ExactFloat
  | finite a => finite (a * q)
  | other => other

def mul : ExactFloat → ExactFloat → ExactFloat
  | finite a, finite b => finite (a * b)
  | nan, _ | _, nan => nan
  | inf s, inf t => inf (s != t)
  | inf s, finite a | finite a, inf s => if a = 0 then nan else inf (s != decide (a < 0))

/-- The zero that is divided by is the positive one. -/
def div : ExactFloat → ExactFloat → ExactFloat
  | finite a, finite b =>
    if b = 0 then if a = 0 then nan else inf (decide (a < 0)) else finite (a / b)
  | nan, _ | _, nan | inf _, inf _ => nan
  | inf s, finite b => inf (s != decide (b < 0))
  | finite _, inf _ => finite 0

def floor : ExactFloat → ExactFloat
  | finite a => finite ⌊a⌋
  | other => other

def ceil : ExactFloat → ExactFloat
  | finite a => finite ⌈a⌉
  | other => other

/-- `f64::min`: the other value where one is not a number. -/
def min (a b : ExactFloat) : ExactFloat :=
  if a = nan then b else if b = nan then a else if a.le b then a else b

/-- `f64::max` -/
def max (a b : ExactFloat) : ExactFloat :=
  if a = nan then b else if b = nan then a else if a.le b then b else a

def isFinite : ExactFloat → Bool
  | finite _ => true
  | _ => false

/-- `f64::MAX` -/
def greatest : ExactFloat := finite ((2 ^ 53 - 1) * 2 ^ 971)

/-- `m * 10 ^ e` -/
def exactScientific (m : Nat) : Int → ℚ
  | .ofNat n => m * 10 ^ n
  | .negSucc n => m / 10 ^ (n + 1)

def ofText : FloatText → ExactFloat
  | .inf => inf false
  | .nan => nan
  | .number m e => finite (exactScientific m e)

/-- `str::parse::<f64>` -/
def parse (s : String) : Option ExactFloat :=
  (parseSigned s).map fun (negative, text) => if negative then (ofText text).neg else ofText text

/-- The number that a text names. -/
def number (s : String) : Option ℚ :=
  match parse s with
  | some (finite q) => some q
  | _ => none

example : number "-12.50e1" = some (-125) := by decide +kernel
example : number "ten" = none ∧ parse "NaN" = some nan ∧ number "NaN" = none := by decide +kernel

theorem parse_of_number {s : String} {q : ℚ} (h : number s = some q) : parse s = some (finite q) := by
  unfold number at h
  split at h
  · next hparse =>
    obtain rfl := Option.some.inj h
    exact hparse
  · cases h

theorem max_eq_or (a b : ExactFloat) : a.max b = a ∨ a.max b = b := by
  unfold max
  split
  · exact .inr rfl
  · split
    · exact .inl rfl
    · split
      · exact .inr rfl
      · exact .inl rfl

/-! ## Order -/

theorem le_self {a b : ExactFloat} (h : a.le b = true) : a.le a = true ∧ b.le b = true := by
  cases a with
  | finite p =>
    cases b with
    | finite q => exact ⟨decide_eq_true le_rfl, decide_eq_true le_rfl⟩
    | inf s => cases s <;> exact ⟨decide_eq_true le_rfl, rfl⟩
    | nan => cases h
  | inf s =>
    cases b with
    | finite q => cases s <;> exact ⟨rfl, decide_eq_true le_rfl⟩
    | inf t => cases s <;> cases t <;> exact ⟨rfl, rfl⟩
    | nan => cases s <;> cases h
  | nan => cases h

theorem eq_inf_of_inf_le {c : ExactFloat} (h : (inf false).le c = true) : c = inf false := by
  cases c with
  | finite r => cases h
  | inf t =>
    cases t with
    | true => cases h
    | false => rfl
  | nan => cases h

theorem eq_neg_inf_of_le {a : ExactFloat} (h : a.le (inf true) = true) : a = inf true := by
  cases a with
  | finite r => cases h
  | inf t =>
    cases t with
    | true => rfl
    | false => cases h
  | nan => cases h

theorem neg_inf_le {c : ExactFloat} (h : c.le c = true) : (inf true).le c = true := by
  cases c with
  | finite r => rfl
  | inf t => rfl
  | nan => cases h

theorem le_inf {a : ExactFloat} (h : a.le a = true) : a.le (inf false) = true := by
  cases a with
  | finite r => rfl
  | inf t => cases t <;> rfl
  | nan => cases h

theorem le_trans {a b c : ExactFloat} (hab : a.le b = true) (hbc : b.le c = true) :
    a.le c = true := by
  match b, a, c with
  | inf false, _, _ => exact eq_inf_of_inf_le hbc ▸ hab
  | inf true, _, _ => exact eq_neg_inf_of_le hab ▸ hbc
  | nan, _, _ => exact absurd (le_self hbc).1 Bool.false_ne_true
  | finite _, inf true, _ => exact neg_inf_le (le_self hbc).2
  | finite _, inf false, _ => exact absurd hab Bool.false_ne_true
  | finite _, nan, _ => exact absurd hab Bool.false_ne_true
  | finite _, finite _, inf false => rfl
  | finite _, finite _, inf true => exact absurd hbc Bool.false_ne_true
  | finite _, finite _, nan => exact absurd hbc Bool.false_ne_true
  | finite _, finite _, finite _ =>
    exact decide_eq_true ((of_decide_eq_true hab).trans (of_decide_eq_true hbc))

theorem le_total {a b : ExactFloat} (ha : a.le a = true) (hb : b.le b = true) :
    a.le b = true ∨ b.le a = true := by
  match a, b with
  | inf true, _ => exact .inl (neg_inf_le hb)
  | inf false, _ => exact .inr (le_inf hb)
  | _, inf true => exact .inr (neg_inf_le ha)
  | _, inf false => exact .inl (le_inf ha)
  | nan, _ => exact absurd ha Bool.false_ne_true
  | _, nan => exact absurd hb Bool.false_ne_true
  | finite p, finite q => exact (LinearOrder.le_total p q).imp decide_eq_true decide_eq_true

/-! ## Plain decimals -/

theorem toLower_of_isDigit {c : Char} (h : c.isDigit = true) : c.toLower = c := by
  have hrange : 48 ≤ c.val.toNat ∧ c.val.toNat ≤ 57 := by
    simpa [Char.isDigit, UInt32.le_iff_toNat_le] using h
  unfold Char.toLower
  rw [dif_neg]
  rintro ⟨hlow, -⟩
  have : 65 ≤ c.val.toNat := hlow
  omega

/-- What begins with a digit is not the name of a value. -/
theorem parseUnsigned_digit {c : Char} (h : c.isDigit = true) (cs : List Char) :
    parseUnsigned (c :: cs) = parseDecimal (c :: cs) := by
  have unnamed {d : Char} {name : List Char} (hd : d.isDigit = false) :
      (c :: cs).map Char.toLower ≠ d :: name := by
    intro heq
    rw [List.map_cons, toLower_of_isDigit h] at heq
    rw [(List.cons.inj heq).1, hd] at h
    cases h
  have names : "inf".toList = ['i', 'n', 'f'] ∧ "infinity".toList = ['i', 'n', 'f', 'i', 'n', 'i', 't', 'y'] ∧
      "nan".toList = ['n', 'a', 'n'] := by
    decide
  unfold parseUnsigned
  dsimp only
  rw [names.1, names.2.1, names.2.2, if_neg (not_or.mpr ⟨unnamed (by decide), unnamed (by decide)⟩),
    if_neg (unnamed (by decide))]

theorem takeDigits_append {digits rest : List Char} (h : ∀ c ∈ digits, c.isDigit = true)
    (hrest : ∀ c ∈ rest.head?, c.isDigit = false) : takeDigits (digits ++ rest) = (digits, rest) := by
  unfold takeDigits
  rw [List.span_eq_takeWhile_dropWhile, List.takeWhile_append_of_pos h,
    List.dropWhile_append_of_pos h]
  cases rest with
  | nil => rw [List.takeWhile_nil, List.dropWhile_nil, List.append_nil]
  | cons c rest =>
    have hc : c.isDigit ≠ true := ne_true_of_eq_false (hrest c rfl)
    rw [List.takeWhile_cons_of_neg hc, List.dropWhile_cons_of_neg hc, List.append_nil]

theorem parseDecimal_digits {whole : List Char} (hne : whole ≠ [])
    (hwhole : ∀ c ∈ whole, c.isDigit = true) :
    parseDecimal whole = some (.number (Nat.ofDigitChars 10 whole 0) 0) := by
  have htake := @takeDigits_append whole [] hwhole fun d hd => by cases hd
  rw [List.append_nil] at htake
  unfold parseDecimal
  rw [htake]
  dsimp only
  rw [if_neg fun h => hne h.1, List.append_nil]
  rfl

/-- Digits with a point are read as they stand. -/
theorem parseDecimal_point {whole fraction : List Char} (hne : whole ≠ [])
    (hwhole : ∀ c ∈ whole, c.isDigit = true) (hfraction : ∀ c ∈ fraction, c.isDigit = true) :
    parseDecimal (whole ++ '.' :: fraction)
      = some (.number (Nat.ofDigitChars 10 (whole ++ fraction) 0) (-(fraction.length : Int))) := by
  have htake := @takeDigits_append whole ('.' :: fraction) hwhole fun d hd => by cases hd; decide
  have htake' := @takeDigits_append fraction [] hfraction fun d hd => by cases hd
  rw [List.append_nil] at htake'
  unfold parseDecimal
  simp only [htake, htake']
  rw [if_neg fun h => hne h.1]
  change some (FloatText.number _ (0 - (fraction.length : Int))) = _
  rw [zero_sub]

theorem of_plainNat {cs : List Char} {n : Nat} (h : plainNat cs = some n) :
    cs ≠ [] ∧ (∀ c ∈ cs, c.isDigit = true) ∧ Nat.ofDigitChars 10 cs 0 = n := by
  unfold plainNat at h
  split_ifs at h with hdigits
  exact ⟨hdigits.1, List.all_eq_true.mp hdigits.2, Option.some.inj h⟩

/-- A plain decimal is read as the number it denotes. -/
theorem parseUnsigned_of_plain {cs : List Char} {q : ℚ} (h : plainUnsigned cs = some q) :
    ∃ c rest text, cs = c :: rest ∧ c.isDigit = true ∧ parseUnsigned cs = some text ∧
      ofText text = finite q := by
  by_cases hpoint : '.' ∈ cs
  · obtain ⟨whole, fraction, rfl, hno⟩ := List.eq_append_cons_of_mem hpoint
    rw [plainUnsigned_point hno] at h
    obtain ⟨w, hw, h⟩ := Option.bind_eq_some_iff.mp h
    obtain ⟨f, hf, h⟩ := Option.bind_eq_some_iff.mp h
    obtain rfl := Option.some.inj h
    obtain ⟨hne, hwhole, rfl⟩ := of_plainNat hw
    obtain ⟨hne', hfraction, rfl⟩ := of_plainNat hf
    have hdecimal := parseDecimal_point hne hwhole hfraction
    obtain ⟨c, cs, rfl⟩ := List.exists_cons_of_ne_nil hne
    have hc := hwhole c List.mem_cons_self
    refine ⟨c, _, _, rfl, hc, (parseUnsigned_digit hc _).trans hdecimal, ?_⟩
    obtain ⟨n, hn⟩ := Nat.exists_eq_succ_of_ne_zero (List.length_pos_iff.mpr hne').ne'
    have hpow : (10 : ℚ) ^ fraction.length ≠ 0 := pow_ne_zero _ (by norm_num)
    have hexact (m : Nat) : exactScientific m (-(fraction.length : Int)) = m / 10 ^ fraction.length := by
      rw [hn]
      rfl
    rw [ofText, hexact, Nat.ofDigitChars_append, Nat.ofDigitChars_eq_ofDigitChars_zero]
    push_cast
    rw [add_div, mul_div_cancel_left₀ _ hpow]
  · rw [plainUnsigned_whole hpoint] at h
    obtain ⟨n, hn, rfl⟩ := Option.map_eq_some_iff.mp h
    obtain ⟨hne, hdigits, rfl⟩ := of_plainNat hn
    have hdecimal := parseDecimal_digits hne hdigits
    obtain ⟨c, cs, rfl⟩ := List.exists_cons_of_ne_nil hne
    have hc := hdigits c List.mem_cons_self
    refine ⟨c, _, _, rfl, hc, (parseUnsigned_digit hc _).trans hdecimal, ?_⟩
    change finite (_ * 10 ^ 0) = _
    rw [pow_zero, mul_one]

theorem parse_of_plain {s : String} {q : ℚ} (h : plainValue s = some q) :
    parse s = some (finite q) := by
  unfold plainValue at h
  unfold parse parseSigned
  split at h
  · rename_i cs hs
    obtain ⟨p, hp, rfl⟩ := Option.map_eq_some_iff.mp h
    obtain ⟨-, -, text, -, -, hparse, htext⟩ := parseUnsigned_of_plain hp
    simp only [hs, hparse]
    change some (ofText text).neg = _
    rw [htext]
    rfl
  · obtain ⟨c, rest, text, hcs, hc, hparse, htext⟩ := parseUnsigned_of_plain h
    split
    · rename_i hs
      rw [hs] at hcs
      rw [← (List.cons.inj hcs).1] at hc
      exact absurd hc (by decide)
    · rename_i hs
      rw [hs] at hcs
      rw [← (List.cons.inj hcs).1] at hc
      exact absurd hc (by decide)
    · rw [hparse]
      exact congrArg some htext

/-! ## Finite values -/

@[simp] theorem add_finite (a b : ℚ) : (finite a).add (finite b) = finite (a + b) := rfl

@[simp] theorem sub_finite (a b : ℚ) : (finite a).sub (finite b) = finite (a - b) := by
  rw [sub_eq_add_neg a b]
  rfl

@[simp] theorem le_finite {a b : ℚ} : (finite a).le (finite b) = true ↔ a ≤ b := decide_eq_true_iff

@[simp] theorem lt_finite {a b : ℚ} : (finite a).lt (finite b) = true ↔ a < b := decide_eq_true_iff

@[simp] theorem min_finite (a b : ℚ) : (finite a).min (finite b) = finite (Min.min a b) := by
  unfold min
  rw [if_neg ExactFloat.noConfusion, if_neg ExactFloat.noConfusion]
  by_cases h : a ≤ b
  · rw [if_pos (le_finite.mpr h), min_eq_left h]
  · rw [if_neg fun hle => h (le_finite.mp hle), min_eq_right (le_of_not_ge h)]

@[simp] theorem max_finite (a b : ℚ) : (finite a).max (finite b) = finite (Max.max a b) := by
  unfold max
  rw [if_neg ExactFloat.noConfusion, if_neg ExactFloat.noConfusion]
  by_cases h : a ≤ b
  · rw [if_pos (le_finite.mpr h), max_eq_right h]
  · rw [if_neg fun hle => h (le_finite.mp hle), max_eq_left (le_of_not_ge h)]

end ExactFloat

end BookAgent.Lib
