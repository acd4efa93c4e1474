import Mathlib.Data.List.TakeWhile
import Mathlib.Tactic.Ring
import Mathlib.Tactic.FieldSimp
import BookAgent.Lib.Decimal

/-!
# Numbers in plain notation

Integers print injectively and without line breaks. A decimal in plain notation
is a sign, digits and possibly a fraction; `plainValue` is the number it denotes,
and `LawfulDecimalText` says that a decimal prints as plain notation of its value.
-/

namespace BookAgent.Lib

/-! ## Integers -/

section Integers

theorem natText_injective {m n : Nat} (h : toString m = toString n) : m = n := by
  have digits : Nat.toDigits 10 m = Nat.toDigits 10 n := by
    rw [← Nat.toList_repr, ← Nat.toList_repr]
    exact congrArg String.toList h
  rw [← @Nat.ofDigitChars_ten_toDigits m, digits, Nat.ofDigitChars_ten_toDigits]

theorem isDigit_of_mem_natText {n : Nat} {c : Char} (h : c ∈ (toString n).toList) :
    c.isDigit = true := by
  have hdigits : c ∈ Nat.toDigits 10 n := by
    rw [← Nat.toList_repr]
    exact h
  exact Nat.isDigit_of_mem_toDigits (by decide) (by decide) hdigits

theorem notMem_natText {n : Nat} {c : Char} (h : c.isDigit = false) :
    c ∉ (toString n).toList := by
  intro hmem
  rw [isDigit_of_mem_natText hmem] at h
  cases h

/-- The text of an integer: its digits, after a minus sign when it is negative. -/
theorem intText_cases (i : Int) :
    (∃ n : Nat, i = n ∧ toString i = toString n) ∨
      ∃ n : Nat, i = -(n + 1 : Nat) ∧ toString i = "-" ++ toString (n + 1) := by
  cases i with
  | ofNat n => exact .inl ⟨n, rfl, rfl⟩
  | negSucc n => exact .inr ⟨n, rfl, rfl⟩

theorem minus_ne_natText {n : Nat} {s : String} : "-" ++ s ≠ toString n := by
  intro h
  have hmem : '-' ∈ (toString n).toList := by
    rw [← h, String.toList_append]
    exact List.mem_append_left _ (by decide)
  exact notMem_natText (by decide) hmem

theorem intText_injective {i j : Int} (h : toString i = toString j) : i = j := by
  rcases intText_cases i with ⟨m, rfl, hm⟩ | ⟨m, rfl, hm⟩ <;>
    rcases intText_cases j with ⟨n, rfl, hn⟩ | ⟨n, rfl, hn⟩ <;> rw [hm, hn] at h
  · rw [natText_injective h]
  · exact absurd h.symm minus_ne_natText
  · exact absurd h minus_ne_natText
  · have tails : toString (m + 1) = toString (n + 1) := by
      rw [← String.toList_inj, String.toList_append, String.toList_append] at h
      exact String.toList_inj.mp (List.append_cancel_left h)
    rw [natText_injective tails]

theorem notMem_intText {i : Int} {c : Char} (hdigit : c.isDigit = false) (hminus : c ≠ '-') :
    c ∉ (toString i).toList := by
  rcases intText_cases i with ⟨n, -, hn⟩ | ⟨n, -, hn⟩ <;> rw [hn]
  · exact notMem_natText hdigit
  · rw [String.toList_append, List.mem_append, not_or]
    refine ⟨?_, notMem_natText hdigit⟩
    intro hmem
    exact hminus (List.mem_singleton.mp hmem)

/-- Values of the type are displayed differently. -/
class InjectiveDisplay (α : Type) [ToString α] : Prop where
  injective : Function.Injective (toString : α → String)

instance : InjectiveDisplay Nat := ⟨fun _ _ => natText_injective⟩

instance : InjectiveDisplay Int := ⟨fun _ _ => intText_injective⟩

instance : InjectiveDisplay UInt32 := ⟨fun _ _ h => UInt32.toNat_inj.mp (natText_injective h)⟩

instance : InjectiveDisplay UInt64 := ⟨fun _ _ h => UInt64.toNat_inj.mp (natText_injective h)⟩

instance : InjectiveDisplay Int32 := ⟨fun _ _ h => Int32.toInt_inj.mp (intText_injective h)⟩

instance : InjectiveDisplay Int64 := ⟨fun _ _ h => Int64.toInt_inj.mp (intText_injective h)⟩

instance : InjectiveDisplay Bool where
  injective b c h := by
    cases b <;> cases c
    · rfl
    · exact absurd h (by decide)
    · exact absurd h (by decide)
    · rfl

end Integers

/-! ## Plain notation -/

section Plain

/-- The number a non-empty run of digits denotes. -/
def plainNat (cs : List Char) : Option Nat :=
  if cs ≠ [] ∧ cs.all Char.isDigit then some (Nat.ofDigitChars 10 cs 0) else none

/-- Digits, and after a point the digits of a fraction. -/
def plainUnsigned (cs : List Char) : Option ℚ :=
  match cs.dropWhile (· != '.') with
  | [] => (plainNat cs).map fun n : Nat => (n : ℚ)
  | _ :: frac => do
    let whole ← plainNat (cs.takeWhile (· != '.'))
    let part ← plainNat frac
    return whole + part / 10 ^ frac.length

/-- The number a text in plain notation denotes. -/
def plainValue (s : String) : Option ℚ :=
  match s.toList with
  | '-' :: cs => (plainUnsigned cs).map fun q => -q
  | cs => plainUnsigned cs

theorem ne_point {cs : List Char} (h : '.' ∉ cs) : ∀ c ∈ cs, (c != '.') = true := by
  intro c hc
  rw [bne_iff_ne]
  rintro rfl
  exact h hc

theorem plainUnsigned_whole {cs : List Char} (h : '.' ∉ cs) :
    plainUnsigned cs = (plainNat cs).map fun n : Nat => (n : ℚ) := by
  unfold plainUnsigned
  rw [List.dropWhile_eq_nil_iff.mpr (ne_point h)]

theorem plainUnsigned_point {cs frac : List Char} (h : '.' ∉ cs) :
    plainUnsigned (cs ++ '.' :: frac) = do
      let whole ← plainNat cs
      let part ← plainNat frac
      return whole + part / 10 ^ frac.length := by
  have drop : (cs ++ '.' :: frac).dropWhile (· != '.') = '.' :: frac := by
    rw [List.dropWhile_append_of_pos (ne_point h)]
    rfl
  have take : (cs ++ '.' :: frac).takeWhile (· != '.') = cs := by
    rw [List.takeWhile_append_of_pos (ne_point h)]
    exact List.append_nil cs
  unfold plainUnsigned
  rw [drop, take]

/-- A whole number is not changed by a fraction of zero. -/
theorem plainUnsigned_append_zero {cs : List Char} (h : '.' ∉ cs) :
    plainUnsigned (cs ++ ['.', '0']) = plainUnsigned cs := by
  have zero : plainNat ['0'] = some 0 := by decide
  rw [plainUnsigned_point h, plainUnsigned_whole h, zero]
  cases plainNat cs with
  | none => rfl
  | some n =>
    change some ((n : ℚ) + (0 : Nat) / 10 ^ 1) = some (n : ℚ)
    rw [Nat.cast_zero, zero_div, add_zero]

theorem plainValue_append_zero {s : String} (h : '.' ∉ s.toList) :
    plainValue (s ++ ".0") = plainValue s := by
  unfold plainValue
  rw [String.toList_append]
  cases hs : s.toList with
  | nil =>
    change plainUnsigned ['.', '0'] = plainUnsigned []
    exact plainUnsigned_append_zero List.not_mem_nil
  | cons c cs =>
    rw [hs] at h
    have hcs : '.' ∉ cs := fun hmem => h (List.mem_cons_of_mem _ hmem)
    by_cases hc : c = '-'
    · subst hc
      change (plainUnsigned (cs ++ ['.', '0'])).map _ = (plainUnsigned cs).map _
      rw [plainUnsigned_append_zero hcs]
    · have unsigned : ∀ ds : List Char,
          (match c :: ds with
            | '-' :: es => (plainUnsigned es).map fun q => -q
            | es => plainUnsigned es) = plainUnsigned (c :: ds) := by
        intro ds
        split
        · rename_i heq
          exact absurd (List.cons.inj heq).1 hc
        · rfl
      rw [List.cons_append, unsigned, unsigned]
      exact plainUnsigned_append_zero h

end Plain

/-! ## Printed decimals -/

/-- Normalising and printing of `rust_decimal::Decimal`. -/
class DecimalText (D : Type) extends Decimal D where
  /-- Strip trailing fractional zeros. -/
  normalize : D → D
  /-- The number of fractional digits. -/
  scale : D → Nat
  isZero : D → Bool
  toString : D → String

/-- As documented: normalising keeps the value, only zero is zero, and a decimal
prints as plain notation of its value. -/
class LawfulDecimalText (D : Type) [DecimalText D] : Prop where
  value_normalize (d : D) : Decimal.value (DecimalText.normalize d) = Decimal.value d
  value_of_isZero (d : D) : DecimalText.isZero d = true → Decimal.value d = 0
  plainValue_toString (d : D) : plainValue (DecimalText.toString d) = some (Decimal.value d)

end BookAgent.Lib
