import Mathlib.Data.Nat.Cast.Order.Field
import Mathlib.Data.Nat.Log
import Mathlib.Data.Rat.Floor
import Mathlib.Tactic.NormNum
import Mathlib.Tactic.Ring
import BookAgent.Lib.DecimalRange

/-!
# Rounded decimal arithmetic

A result that is not a decimal number is rounded to one: with as many decimals as fit, to the
nearest, a tie to the even digit. Whoever computes with decimals relies on less: rounding keeps
the order and leaves decimal numbers alone, and an operation fails only beyond the range.
-/

namespace BookAgent.Lib

/-- The largest decimal number. -/
def maxDecimal : ℚ := 2 ^ 96 - 1

theorem isDecimal_maxDecimal : IsDecimal maxDecimal :=
  isDecimal_iff.mpr ⟨0, by decide, 2 ^ 96 - 1, by norm_num [maxDecimal], by decide⟩

theorem isDecimal_intCast {n : Int} (h : n.natAbs < 2 ^ 96) : IsDecimal n :=
  isDecimal_iff.mpr ⟨0, by decide, n, by simp, h⟩

theorem IsDecimal.abs_le {q : ℚ} (h : IsDecimal q) : |q| ≤ maxDecimal := by
  obtain ⟨scale, -, n, hn, hbound⟩ := isDecimal_iff.mp h
  have hpow : (1 : ℚ) ≤ 10 ^ scale := one_le_pow₀ (by norm_num)
  have habs : |q| * 10 ^ scale = (n.natAbs : ℚ) := by
    rw [← abs_of_pos (lt_of_lt_of_le one_pos hpow), ← abs_mul, hn, Nat.cast_natAbs, Int.cast_abs]
  have hnat : (n.natAbs : ℚ) ≤ maxDecimal := by
    have : n.natAbs ≤ 2 ^ 96 - 1 := by omega
    have hcast : ((2 ^ 96 - 1 : Nat) : ℚ) = maxDecimal := by norm_num [maxDecimal]
    exact hcast ▸ Nat.cast_le.mpr this
  exact (le_mul_of_one_le_right (abs_nonneg q) hpow).trans (habs ▸ hnat)

namespace Decimal

/-- A result is the rounded number, and there is none only beyond the range. -/
def RoundsTo {D : Type} [Decimal D] (round : ℚ → ℚ) (result : Option D) (number : ℚ) : Prop :=
  match result with
  | some d => value d = round number
  | none => maxDecimal < |number|

/-- Arithmetic that rounds, in order, what is not a decimal number. -/
class Rounding (D : Type) [Decimal D] where
  round : ℚ → ℚ
  mono : Monotone round
  exact {q : ℚ} (h : IsDecimal q) : round q = q
  isDecimal (d : D) : IsDecimal (value d)
  value_new {num : Int} {scale : Nat} (h : IsDecimal (num / 10 ^ scale)) :
    value (new num scale : D) = num / 10 ^ scale
  checkedAdd (a b : D) : RoundsTo round (checkedAdd a b) (value a + value b)
  checkedSub (a b : D) : RoundsTo round (checkedSub a b) (value a - value b)
  checkedMul (a b : D) : RoundsTo round (checkedMul a b) (value a * value b)

variable {D : Type} [Decimal D]

/-- What is a decimal number comes out exactly. -/
theorem RoundsTo.exact {round : ℚ → ℚ} {result : Option D} {number : ℚ}
    (h : RoundsTo round result number) (hround : round number = number)
    (hdecimal : IsDecimal number) : ∃ d, result = some d ∧ value d = number := by
  cases result with
  | none => exact absurd hdecimal.abs_le (not_le.mpr h)
  | some d => exact ⟨d, rfl, hround ▸ h⟩

namespace Rounding

variable [Rounding D]

theorem value_zero : value (zero : D) = 0 := by
  have hvalue := @value_new D _ _ 0 0 (by simpa using isDecimal_zero)
  simpa [zero] using hvalue

theorem le_max (d : D) : value d ≤ maxDecimal := (le_abs_self _).trans (isDecimal d).abs_le

instance : Lawful D where
  isDecimal := isDecimal
  value_zero := value_zero
  checkedAdd h := (checkedAdd _ _).exact (exact h) h
  checkedSub h := (checkedSub _ _).exact (exact h) h

end Rounding

end Decimal

/-! ## Quotients -/

/-- Between a quotient of whole numbers and the next whole number lies a decimal number. -/
theorem exists_decimal_above {n d : Nat} (hd : 1 ≤ d) (hdn : d ≤ n) (hn : 20 * n < 2 ^ 96) :
    ∃ x, IsDecimal x ∧ (n : ℚ) / d ≤ x ∧ x < (n / d : Nat) + 1 := by
  have hlog : d ≤ 10 ^ Nat.clog 10 d := Nat.le_pow_clog (by decide) d
  have hlog' : 10 ^ Nat.clog 10 d ≤ 10 * d := by
    rcases Nat.eq_zero_or_pos (Nat.clog 10 d) with hzero | hpos
    · rw [hzero]
      omega
    · obtain ⟨e, he⟩ : ∃ e, Nat.clog 10 d = e + 1 := ⟨Nat.clog 10 d - 1, by omega⟩
      have hlt : 10 ^ e < d := Nat.pow_lt_of_lt_clog (by omega)
      rw [he, pow_succ]
      omega
  generalize Nat.clog 10 d = e at hlog hlog'
  have he : e < 29 := by
    have : 10 ^ e < 10 ^ 29 := by omega
    exact (Nat.pow_lt_pow_iff_right (by decide)).mp this
  have hnext : n + 1 ≤ (n / d + 1) * d := Nat.lt_succ_iff.mp (by
    have := Nat.lt_mul_div_succ n (Nat.pos_of_ne_zero (by omega : d ≠ 0))
    rw [mul_comm] at this
    omega)
  have hsmall : (n / d + 1) * d ≤ 2 * n := by
    have := Nat.div_mul_le_self n d
    rw [Nat.add_mul, Nat.one_mul]
    omega
  have hpow : (0 : ℚ) < 10 ^ e := by positivity
  have hdpos : (0 : ℚ) < d := Nat.cast_pos.mpr hd
  refine ⟨((n / d + 1 : Nat) : ℚ) - 1 / 10 ^ e, ?_, ?_, ?_⟩
  · refine isDecimal_iff.mpr ⟨e, he, ((n / d + 1) * 10 ^ e : Nat) - 1, ?_, ?_⟩
    · rw [sub_mul, one_div_mul_cancel hpow.ne']
      push_cast
      rfl
    · have hle : (n / d + 1) * 10 ^ e ≤ (n / d + 1) * (10 * d) := Nat.mul_le_mul_left _ hlog'
      have hbound : (n / d + 1) * (10 * d) ≤ 20 * n := by
        calc (n / d + 1) * (10 * d) = 10 * ((n / d + 1) * d) := by ring
          _ ≤ 10 * (2 * n) := Nat.mul_le_mul_left _ hsmall
          _ = 20 * n := by ring
      omega
  · have hgap : (n : ℚ) / d + 1 / d ≤ (n / d + 1 : Nat) := by
      rw [← add_div, div_le_iff₀ hdpos]
      exact_mod_cast hnext
    have hinv : 1 / (10 : ℚ) ^ e ≤ 1 / d :=
      one_div_le_one_div_of_le hdpos (by exact_mod_cast hlog)
    linarith
  · have : (0 : ℚ) < 1 / 10 ^ e := by positivity
    push_cast
    linarith

/-- A rounded quotient keeps its whole part. -/
theorem Decimal.Rounding.floor_round_div (D : Type) [Decimal D] [Rounding D] {n d : Nat}
    (hd : 1 ≤ d) (hdn : d ≤ n) (hn : 20 * n < 2 ^ 96) :
    ⌊Rounding.round D ((n : ℚ) / d)⌋ = (n / d : Nat) := by
  have hle : n / d ≤ n := Nat.div_le_self n d
  obtain ⟨x, hx, habove, hbelow⟩ := exists_decimal_above hd hdn hn
  rw [Int.floor_eq_iff]
  constructor
  · have hwhole : IsDecimal (((n / d : Nat) : Int) : ℚ) := isDecimal_intCast (by
      rw [Int.natAbs_natCast]
      omega)
    rw [← Rounding.exact (D := D) hwhole]
    refine Rounding.mono ?_
    rw [Int.cast_natCast]
    exact Nat.cast_div_le
  · refine lt_of_le_of_lt ?_ hbelow
    rw [← Rounding.exact (D := D) hx]
    exact Rounding.mono habove

/-! ## The nearest decimal number -/

/-- The nearest whole number, the even one of two. -/
def halfEven (q : ℚ) : Int :=
  if q - ⌊q⌋ < 1 / 2 ∨ q - ⌊q⌋ = 1 / 2 ∧ ⌊q⌋ % 2 = 0 then ⌊q⌋ else ⌊q⌋ + 1

theorem floor_le_halfEven (q : ℚ) : ⌊q⌋ ≤ halfEven q := by
  unfold halfEven
  split <;> omega

theorem halfEven_le_floor (q : ℚ) : halfEven q ≤ ⌊q⌋ + 1 := by
  unfold halfEven
  split <;> omega

theorem halfEven_intCast (n : Int) : halfEven n = n := by
  simp [halfEven]

theorem halfEven_mono {q q' : ℚ} (h : q ≤ q') : halfEven q ≤ halfEven q' := by
  rcases (Int.floor_mono h).lt_or_eq with hlt | heq
  · have := halfEven_le_floor q
    have := floor_le_halfEven q'
    omega
  · unfold halfEven
    rw [← heq]
    split
    · split <;> omega
    · rename_i hup
      rw [if_neg]
      -- the larger of the two is no nearer to the number below
      rintro (hlt | ⟨htie, heven⟩)
      · exact hup (.inl (by linarith))
      · rcases (sub_le_sub_right h (⌊q⌋ : ℚ)).lt_or_eq with hlt | heq'
        · exact hup (.inl (htie ▸ hlt))
        · exact hup (.inr ⟨heq'.trans htie, heven⟩)

/-- The coefficient with that many decimals fits. -/
def fitsAt (scale : Nat) (q : ℚ) : Prop := (halfEven (q * 10 ^ scale)).natAbs < 2 ^ 96

instance (scale : Nat) (q : ℚ) : Decidable (fitsAt scale q) :=
  inferInstanceAs (Decidable (_ < _))

/-- Rounded to that many decimals. -/
def roundAt (scale : Nat) (q : ℚ) : ℚ := halfEven (q * 10 ^ scale) / 10 ^ scale

/-- Rounded to as many decimals as fit, from that many on. -/
def roundFrom : Nat → ℚ → ℚ
  | 0, q => roundAt 0 q
  | scale + 1, q => if fitsAt (scale + 1) q then roundAt (scale + 1) q else roundFrom scale q

/-- Rounded to a decimal number. -/
def roundDecimal (q : ℚ) : ℚ := roundFrom 28 q

theorem roundAt_mono (scale : Nat) {q q' : ℚ} (h : q ≤ q') : roundAt scale q ≤ roundAt scale q' := by
  have hpow : (0 : ℚ) ≤ 10 ^ scale := by positivity
  have := halfEven_mono (mul_le_mul_of_nonneg_right h hpow)
  exact div_le_div_of_nonneg_right (Int.cast_le.mpr this) hpow

theorem roundAt_exact {scale : Nat} {q : ℚ} {n : Int} (h : q * 10 ^ scale = n) :
    roundAt scale q = q := by
  have hpow : (10 : ℚ) ^ scale ≠ 0 := by positivity
  rw [roundAt, h, halfEven_intCast, ← h, mul_div_cancel_right₀ _ hpow]

/-- A coefficient that rounds beyond the range is too large or too small by half. -/
theorem not_fitsAt {scale : Nat} {q : ℚ} (h : ¬ fitsAt scale q) :
    2 ^ 96 - 1 / 2 ≤ q * 10 ^ scale ∨ q * 10 ^ scale ≤ -(2 ^ 96 - 1 / 2) := by
  unfold fitsAt at h
  have habs : 2 ^ 96 ≤ halfEven (q * 10 ^ scale) ∨ halfEven (q * 10 ^ scale) ≤ -2 ^ 96 := by omega
  have hfloor := Int.floor_le (q * 10 ^ scale)
  have hceil := Int.lt_floor_add_one (q * 10 ^ scale)
  unfold halfEven at habs
  generalize q * 10 ^ scale = x at *
  split at habs
  · rename_i hdown
    rcases habs with hlarge | hsmall
    · have : ((2 ^ 96 : Int) : ℚ) ≤ ⌊x⌋ := Int.cast_le.mpr hlarge
      push_cast at this
      exact .inl (by linarith)
    · have : (⌊x⌋ : ℚ) ≤ ((-2 ^ 96 : Int) : ℚ) := Int.cast_le.mpr hsmall
      push_cast at this
      have hhalf : x - ⌊x⌋ ≤ 1 / 2 := by
        rcases hdown with hlt | ⟨heq, -⟩
        · exact hlt.le
        · exact heq.le
      exact .inr (by linarith)
  · rename_i hup
    rcases habs with hlarge | hsmall
    · have : ((2 ^ 96 : Int) : ℚ) ≤ ((⌊x⌋ + 1 : Int) : ℚ) := Int.cast_le.mpr hlarge
      push_cast at this
      have hhalf : 1 / 2 ≤ x - ⌊x⌋ := not_lt.mp fun hlt => hup (.inl hlt)
      exact .inl (by linarith)
    · have : ((⌊x⌋ + 1 : Int) : ℚ) ≤ ((-2 ^ 96 : Int) : ℚ) := Int.cast_le.mpr hsmall
      push_cast at this
      exact .inr (by linarith)

/-- Where one more decimal does not fit, fewer decimals give at least the largest coefficient
with that one more. -/
theorem le_roundFrom {scale : Nat} {q : ℚ} (h : 2 ^ 96 - 1 / 2 ≤ q * 10 ^ (scale + 1)) :
    maxDecimal / 10 ^ (scale + 1) ≤ roundFrom scale q := by
  have hpow (k : Nat) : (0 : ℚ) < 10 ^ k := by positivity
  have hround : maxDecimal / 10 ^ (scale + 1) ≤ roundAt scale q := by
    have hconst : halfEven ((2 ^ 96 - 1 / 2) / 10) = 7922816251426433759354395034 := by
      decide +kernel
    have hle : (2 ^ 96 - 1 / 2) / 10 ≤ q * 10 ^ scale := by
      rw [div_le_iff₀ (by norm_num), mul_assoc, ← pow_succ]
      exact h
    have hcoefficient : (7922816251426433759354395034 : ℚ) ≤ halfEven (q * 10 ^ scale) := by
      have := halfEven_mono hle
      rw [hconst] at this
      exact_mod_cast this
    rw [roundAt, div_le_div_iff₀ (hpow _) (hpow _), pow_succ, mul_comm (10 ^ scale : ℚ) 10,
      ← mul_assoc]
    refine mul_le_mul_of_nonneg_right ?_ (hpow scale).le
    rw [maxDecimal]
    linarith
  cases scale with
  | zero => exact hround
  | succ scale =>
    rw [roundFrom]
    split
    · exact hround
    · rename_i hfit
      have hpos : 0 < q := by
        have : 0 < q * 10 ^ (scale + 1 + 1) := lt_of_lt_of_le (by norm_num) h
        exact pos_of_mul_pos_left this (hpow _).le
      rcases not_fitsAt hfit with hlarge | hsmall
      · refine le_trans ?_ (le_roundFrom hlarge)
        refine div_le_div_of_nonneg_left (by norm_num [maxDecimal]) (hpow _) ?_
        exact pow_le_pow_right₀ (by norm_num) (Nat.le_succ _)
      · have := mul_pos hpos (hpow (scale + 1))
        exact absurd hsmall (not_le.mpr (lt_trans (by norm_num) this))

theorem halfEven_neg (q : ℚ) : halfEven (-q) = -halfEven q := by
  by_cases hint : (⌊q⌋ : ℚ) = q
  · rw [← hint, halfEven_intCast, ← Int.cast_neg, halfEven_intCast]
  · have hlt : (⌊q⌋ : ℚ) < q := lt_of_le_of_ne (Int.floor_le q) hint
    have hfloor : ⌊-q⌋ = -⌊q⌋ - 1 := by
      rw [Int.floor_eq_iff]
      push_cast
      constructor
      · linarith [Int.lt_floor_add_one q]
      · linarith
    have hrest : -q - ((-⌊q⌋ - 1 : Int) : ℚ) = 1 - (q - ⌊q⌋) := by
      push_cast
      ring
    unfold halfEven
    rw [hfloor, hrest]
    generalize q - ⌊q⌋ = rest
    rcases lt_trichotomy rest (1 / 2) with hrest | rfl | hrest
    · rw [if_neg, if_pos (.inl hrest)]
      · omega
      · rintro (h | ⟨h, -⟩) <;> linarith
    · norm_num
      split <;> split <;> omega
    · rw [if_pos (.inl (by linarith)), if_neg]
      · omega
      · rintro (h | ⟨h, -⟩) <;> linarith

theorem roundFrom_neg (scale : Nat) (q : ℚ) : roundFrom scale (-q) = -roundFrom scale q := by
  have hat (scale : Nat) : roundAt scale (-q) = -roundAt scale q := by
    rw [roundAt, neg_mul, halfEven_neg, Int.cast_neg, neg_div, roundAt]
  have hfit (scale : Nat) : fitsAt scale (-q) ↔ fitsAt scale q := by
    rw [fitsAt, neg_mul, halfEven_neg, Int.natAbs_neg, fitsAt]
  induction scale with
  | zero => exact hat 0
  | succ scale ih =>
    rw [roundFrom, roundFrom, hat, ih]
    simp only [hfit]
    split <;> rfl

theorem roundFrom_mono (scale : Nat) : Monotone (roundFrom scale) := by
  intro q q' h
  induction scale with
  | zero => exact roundAt_mono 0 h
  | succ scale ih =>
    have hpow : (0 : ℚ) < 10 ^ (scale + 1) := by positivity
    have hbound {x : ℚ} (hx : fitsAt (scale + 1) x) :
        roundAt (scale + 1) x ≤ maxDecimal / 10 ^ (scale + 1) ∧
          -(maxDecimal / 10 ^ (scale + 1)) ≤ roundAt (scale + 1) x := by
      have hcast : (((2 ^ 96 - 1 : Int)) : ℚ) = maxDecimal := by norm_num [maxDecimal]
      have hle : halfEven (x * 10 ^ (scale + 1)) ≤ 2 ^ 96 - 1 := by
        unfold fitsAt at hx
        omega
      have hge : -(2 ^ 96 - 1) ≤ halfEven (x * 10 ^ (scale + 1)) := by
        unfold fitsAt at hx
        omega
      rw [← hcast, ← neg_div, ← Int.cast_neg]
      exact ⟨div_le_div_of_nonneg_right (Int.cast_le.mpr hle) hpow.le,
        div_le_div_of_nonneg_right (Int.cast_le.mpr hge) hpow.le⟩
    have hmul : q * 10 ^ (scale + 1) ≤ q' * 10 ^ (scale + 1) :=
      mul_le_mul_of_nonneg_right h hpow.le
    rw [roundFrom, roundFrom]
    split
    · rename_i hq
      split
      · exact roundAt_mono _ h
      · rename_i hq'
        rcases not_fitsAt hq' with hlarge | hsmall
        · exact (hbound hq).1.trans (le_roundFrom hlarge)
        · -- the smaller number would not fit either
          have := halfEven_mono (hmul.trans hsmall)
          have hconst : halfEven (-(2 ^ 96 - 1 / 2)) = -2 ^ 96 := by decide +kernel
          unfold fitsAt at hq
          omega
    · rename_i hq
      split
      · rename_i hq'
        rcases not_fitsAt hq with hlarge | hsmall
        · have := halfEven_mono (hlarge.trans hmul)
          have hconst : halfEven (2 ^ 96 - 1 / 2) = 2 ^ 96 := by decide +kernel
          unfold fitsAt at hq'
          omega
        · have hneg : 2 ^ 96 - 1 / 2 ≤ -q * 10 ^ (scale + 1) := by linarith
          have := le_roundFrom hneg
          rw [roundFrom_neg] at this
          linarith [(hbound hq').2]
      · exact ih

theorem isDecimal_roundAt {scale : Nat} {q : ℚ} (hscale : scale < 29) (h : fitsAt scale q) :
    IsDecimal (roundAt scale q) :=
  isDecimal_iff.mpr ⟨scale, hscale, _, div_mul_cancel₀ _ (by positivity), h⟩

/-- Nothing is lost of a decimal number: as many decimals fit as it has. -/
theorem roundFrom_exact {scale digits : Nat} {q : ℚ} {n : Int} (hle : digits ≤ scale)
    (hq : q * 10 ^ digits = n) (hbound : n.natAbs < 2 ^ 96) : roundFrom scale q = q := by
  induction scale with
  | zero =>
    obtain rfl : digits = 0 := by omega
    exact roundAt_exact hq
  | succ scale ih =>
    rw [roundFrom]
    split
    · refine roundAt_exact (n := n * 10 ^ (scale + 1 - digits)) ?_
      push_cast
      rw [← hq, mul_assoc, ← pow_add, Nat.add_sub_cancel' hle]
    · rename_i hfit
      refine ih (Nat.le_of_lt_succ (lt_of_le_of_ne hle ?_))
      rintro rfl
      refine hfit ?_
      rw [fitsAt, hq, halfEven_intCast]
      exact hbound

theorem roundDecimal_mono : Monotone roundDecimal := roundFrom_mono 28

theorem roundDecimal_exact {q : ℚ} (h : IsDecimal q) : roundDecimal q = q := by
  obtain ⟨digits, hdigits, n, hn, hbound⟩ := isDecimal_iff.mp h
  exact roundFrom_exact (by omega) hn hbound

theorem isDecimal_roundFrom {scale : Nat} {q : ℚ} (hscale : scale < 29) (h : |q| ≤ maxDecimal) :
    IsDecimal (roundFrom scale q) := by
  induction scale with
  | zero =>
    refine isDecimal_roundAt (by decide) ?_
    have hlow : ((-(2 ^ 96 - 1) : Int) : ℚ) ≤ q * 10 ^ 0 := by
      push_cast
      linarith [(abs_le.mp h).1, maxDecimal.eq_def]
    have hhigh : q * 10 ^ 0 ≤ ((2 ^ 96 - 1 : Int) : ℚ) := by
      push_cast
      linarith [(abs_le.mp h).2, maxDecimal.eq_def]
    have h1 := halfEven_mono hlow
    have h2 := halfEven_mono hhigh
    rw [halfEven_intCast] at h1 h2
    unfold fitsAt
    omega
  | succ scale ih =>
    rw [roundFrom]
    split
    · rename_i hfit
      exact isDecimal_roundAt hscale hfit
    · exact ih (by omega)

/-! ## Decimals that round -/

/-- A decimal number whose arithmetic rounds. -/
@[ext] structure RoundedDecimal where
  number : ℚ
  isDecimal : IsDecimal number

namespace RoundedDecimal

instance : DecidableEq RoundedDecimal := fun a b =>
  decidable_of_iff (a.number = b.number) RoundedDecimal.ext_iff.symm

/-- The result of an operation, if it is within the range. -/
def result (q : ℚ) : Option RoundedDecimal :=
  if h : IsDecimal (roundDecimal q) then some ⟨roundDecimal q, h⟩ else none

instance : Decimal RoundedDecimal where
  value := number
  new num scale := (result (num / 10 ^ scale)).getD ⟨0, isDecimal_zero⟩
  checkedAdd a b := result (a.number + b.number)
  checkedSub a b := result (a.number - b.number)
  checkedMul a b := result (a.number * b.number)

theorem roundsTo_result (q : ℚ) : Decimal.RoundsTo roundDecimal (result q) q := by
  unfold result
  split
  · rfl
  · rename_i h
    exact not_le.mp fun hle => h (isDecimal_roundFrom (by decide) hle)

instance : Decimal.Rounding RoundedDecimal where
  round := roundDecimal
  mono := roundDecimal_mono
  exact := roundDecimal_exact
  isDecimal := isDecimal
  value_new h := by
    have heq := roundDecimal_exact h
    change ((result _).getD _).number = _
    rw [result, dif_pos (by rwa [heq]), Option.getD_some]
    exact heq
  checkedAdd _ _ := roundsTo_result _
  checkedSub _ _ := roundsTo_result _
  checkedMul _ _ := roundsTo_result _

end RoundedDecimal

end BookAgent.Lib
