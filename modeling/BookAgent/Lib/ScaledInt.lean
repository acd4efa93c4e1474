import BookAgent.Lib.Numeral

/-!
# Scaled integers

An integer over a power of ten: a decimal type whose arithmetic, normalising and
printing are those of a 96-bit decimal as long as nothing is rounded.
-/

namespace BookAgent.Lib

/-- `mantissa / 10 ^ scale`. -/
structure ScaledInt where
  mantissa : Int
  scale : Nat
  deriving DecidableEq

namespace ScaledInt

def value (d : ScaledInt) : ℚ := d.mantissa / (10 : ℚ) ^ d.scale

/-- The largest mantissa of a 96-bit decimal. -/
def maxMantissa : Nat := 2 ^ 96 - 1

def maxScale : Nat := 28

/-- A result that fits is reported, any other is an overflow. -/
def checked (d : ScaledInt) : Option ScaledInt :=
  if d.mantissa.natAbs ≤ maxMantissa ∧ d.scale ≤ maxScale then some d else none

/-- The mantissa at a larger scale. -/
def mantissaAt (d : ScaledInt) (scale : Nat) : Int := d.mantissa * 10 ^ (scale - d.scale)

/-- Drop fractional zeros from the end. -/
def strip (mantissa : Int) : Nat → ScaledInt
  | 0 => ⟨mantissa, 0⟩
  | scale + 1 => if mantissa % 10 = 0 then strip (mantissa / 10) scale else ⟨mantissa, scale + 1⟩

/-- The last `scale` digits of a number, padded with zeros. -/
def fracDigits (n : Nat) : Nat → List Char
  | 0 => []
  | scale + 1 => fracDigits (n / 10) scale ++ [(n % 10).digitChar]

/-- Plain notation without the sign. -/
def unsignedDigits (n scale : Nat) : List Char :=
  if scale = 0 then Nat.toDigits 10 n
  else Nat.toDigits 10 (n / 10 ^ scale) ++ '.' :: fracDigits n scale

def text (d : ScaledInt) : String :=
  String.ofList (if d.mantissa < 0 then '-' :: unsignedDigits d.mantissa.natAbs d.scale
    else unsignedDigits d.mantissa.natAbs d.scale)

instance : DecimalText ScaledInt where
  value := value
  new := .mk
  checkedAdd a b :=
    let scale := max a.scale b.scale
    checked ⟨a.mantissaAt scale + b.mantissaAt scale, scale⟩
  checkedSub a b :=
    let scale := max a.scale b.scale
    checked ⟨a.mantissaAt scale - b.mantissaAt scale, scale⟩
  checkedMul a b := checked ⟨a.mantissa * b.mantissa, a.scale + b.scale⟩
  normalize d := strip d.mantissa d.scale
  scale := ScaledInt.scale
  isZero d := d.mantissa = 0
  toString := text

/-! ## Normalising -/

theorem value_strip (mantissa : Int) (scale : Nat) :
    value (strip mantissa scale) = mantissa / (10 : ℚ) ^ scale := by
  induction scale generalizing mantissa with
  | zero => rfl
  | succ scale ih =>
    rw [strip]
    split
    · rename_i hdvd
      have tens : (mantissa : ℚ) = 10 * (mantissa / 10 : Int) := by
        have := Int.mul_ediv_add_emod mantissa 10
        rw [hdvd, add_zero] at this
        exact_mod_cast this.symm
      rw [ih, tens, pow_succ]
      field_simp
    · rfl

/-! ## Printing -/

theorem length_fracDigits (n scale : Nat) : (fracDigits n scale).length = scale := by
  induction scale generalizing n with
  | zero => rfl
  | succ scale ih => rw [fracDigits, List.length_append, ih, List.length_singleton]

theorem isDigit_fracDigits (n scale : Nat) : ∀ c ∈ fracDigits n scale, c.isDigit = true := by
  induction scale generalizing n with
  | zero => exact fun c hc => absurd hc List.not_mem_nil
  | succ scale ih =>
    intro c hc
    rcases List.mem_append.mp hc with hc | hc
    · exact ih (n / 10) c hc
    · rw [List.mem_singleton.mp hc, Nat.isDigit_digitChar]
      exact decide_eq_true (Nat.mod_lt n (by decide))

/-- The digits of a fraction denote the remainder. -/
theorem ofDigitChars_fracDigits (n scale : Nat) :
    Nat.ofDigitChars 10 (fracDigits n scale) 0 = n % 10 ^ scale := by
  induction scale generalizing n with
  | zero => rw [pow_zero, Nat.mod_one]; rfl
  | succ scale ih =>
    have last : n % 10 < 10 := Nat.mod_lt n (by decide)
    rw [fracDigits, Nat.ofDigitChars_append, ih,
      Nat.ofDigitChars_cons_digitChar_of_lt_ten last, Nat.ofDigitChars_nil, pow_succ',
      Nat.mod_mul, Nat.add_comm]

theorem plainNat_toDigits (n : Nat) : plainNat (Nat.toDigits 10 n) = some n := by
  have digits : (Nat.toDigits 10 n).all Char.isDigit = true :=
    List.all_eq_true.mpr fun c hc => Nat.isDigit_of_mem_toDigits (by decide) (by decide) hc
  rw [plainNat, if_pos ⟨Nat.toDigits_ne_nil, digits⟩, Nat.ofDigitChars_ten_toDigits]

theorem plainNat_fracDigits (n : Nat) {scale : Nat} (h : scale ≠ 0) :
    plainNat (fracDigits n scale) = some (n % 10 ^ scale) := by
  have nonempty : fracDigits n scale ≠ [] := by
    intro hnil
    have := length_fracDigits n scale
    rw [hnil] at this
    exact h this.symm
  rw [plainNat, if_pos ⟨nonempty, List.all_eq_true.mpr (isDigit_fracDigits n scale)⟩,
    ofDigitChars_fracDigits]

theorem point_notMem_toDigits (n : Nat) : '.' ∉ Nat.toDigits 10 n := by
  intro h
  have digit := Nat.isDigit_of_mem_toDigits (by decide) (by decide) h
  exact absurd digit (by decide)

theorem plainUnsigned_unsignedDigits (n scale : Nat) :
    plainUnsigned (unsignedDigits n scale) = some ((n : ℚ) / 10 ^ scale) := by
  unfold unsignedDigits
  split
  · rename_i hscale
    rw [plainUnsigned_whole (point_notMem_toDigits n), plainNat_toDigits, hscale, pow_zero, div_one]
    rfl
  · rename_i hscale
    rw [plainUnsigned_point (point_notMem_toDigits _), plainNat_toDigits,
      plainNat_fracDigits n hscale, length_fracDigits]
    have split : (n : ℚ) = 10 ^ scale * (n / 10 ^ scale : Nat) + (n % 10 ^ scale : Nat) := by
      exact_mod_cast (Nat.div_add_mod n (10 ^ scale)).symm
    have power : (10 : ℚ) ^ scale ≠ 0 := pow_ne_zero scale (by norm_num)
    change some (((n / 10 ^ scale : Nat) : ℚ) + (n % 10 ^ scale : Nat) / 10 ^ scale) = _
    rw [Option.some.injEq, eq_div_iff power, add_mul, div_mul_cancel₀ _ power, mul_comm]
    exact split.symm

theorem minus_notMem_unsignedDigits (n scale : Nat) : '-' ∉ unsignedDigits n scale := by
  have whole : ∀ m : Nat, '-' ∉ Nat.toDigits 10 m := fun m h =>
    absurd (Nat.isDigit_of_mem_toDigits (by decide) (by decide) h) (by decide)
  unfold unsignedDigits
  split
  · exact whole n
  · rw [List.mem_append, List.mem_cons, not_or, not_or]
    exact ⟨whole _, by decide, fun h => absurd (isDigit_fracDigits n scale _ h) (by decide)⟩

theorem plainValue_text (d : ScaledInt) : plainValue d.text = some d.value := by
  unfold plainValue text
  rw [String.toList_ofList]
  split
  · rename_i cs heq
    split at heq
    · rename_i hneg
      have tail := (List.cons.inj heq).2
      rw [← tail, plainUnsigned_unsignedDigits, Option.map_some, value]
      have sign : d.mantissa = -(d.mantissa.natAbs : Int) := by omega
      have cast : (d.mantissa : ℚ) = -(d.mantissa.natAbs : ℚ) := by
        rw [congrArg (Int.cast : Int → ℚ) sign, Int.cast_neg, Int.cast_natCast]
      rw [cast, neg_div]
    · have minus : '-' ∈ unsignedDigits d.mantissa.natAbs d.scale := heq ▸ List.mem_cons_self
      exact absurd minus (minus_notMem_unsignedDigits _ _)
  · rename_i cs hcs
    split
    · rename_i hneg
      exact absurd (if_pos hneg) (hcs _)
    · rename_i hpos
      rw [plainUnsigned_unsignedDigits, value]
      have sign : d.mantissa = (d.mantissa.natAbs : Int) := by omega
      have cast : (d.mantissa : ℚ) = (d.mantissa.natAbs : ℚ) := by
        rw [congrArg (Int.cast : Int → ℚ) sign, Int.cast_natCast]
      rw [cast]

instance : LawfulDecimalText ScaledInt where
  value_normalize d := value_strip d.mantissa d.scale
  value_of_isZero d h := by
    have hzero : d.mantissa = 0 := of_decide_eq_true h
    change (d.mantissa : ℚ) / 10 ^ d.scale = 0
    rw [hzero, Int.cast_zero, zero_div]
  plainValue_toString := plainValue_text

end ScaledInt

end BookAgent.Lib
