import Mathlib.Data.Rat.Lemmas
import Mathlib.Algebra.Order.Field.Rat
import Mathlib.Algebra.BigOperators.Group.List.Basic
import Mathlib.Tactic.Linarith
import BookAgent.Lib.Decimal

/-!
# The range of decimal numbers

The numbers a `rust_decimal` stands for, and the arithmetic on them where it is exact: an
operation whose result is such a number returns it.
-/

namespace BookAgent.Lib

/-- At most 28 decimals, and a 96-bit coefficient. -/
def IsDecimal (q : ℚ) : Prop :=
  ∃ scale < 29, (q * 10 ^ scale).den = 1 ∧ (q * 10 ^ scale).num.natAbs < 2 ^ 96

instance : DecidablePred IsDecimal :=
  fun q => inferInstanceAs (Decidable (∃ scale < 29,
    (q * 10 ^ scale).den = 1 ∧ (q * 10 ^ scale).num.natAbs < 2 ^ 96))

theorem isDecimal_iff {q : ℚ} :
    IsDecimal q ↔ ∃ scale < 29, ∃ n : Int, q * 10 ^ scale = n ∧ n.natAbs < 2 ^ 96 := by
  constructor
  · rintro ⟨scale, hscale, hden, hnum⟩
    exact ⟨scale, hscale, _, (Rat.den_eq_one_iff _).mp hden |>.symm, hnum⟩
  · rintro ⟨scale, hscale, n, hn, hbound⟩
    refine ⟨scale, hscale, ?_, ?_⟩
    · rw [hn]
      rfl
    · rw [hn]
      exact hbound

theorem isDecimal_zero : IsDecimal 0 :=
  isDecimal_iff.mpr ⟨0, by decide, 0, by rw [zero_mul, Int.cast_zero], by decide⟩

/-- A number between zero and one of the same scale or more. -/
theorem IsDecimal.of_le {q bound : ℚ} {scale : Nat} {n m : Int} (hscale : scale < 29)
    (hq : q * 10 ^ scale = n) (hbound : bound * 10 ^ scale = m) (hm : m.natAbs < 2 ^ 96)
    (hnonneg : 0 ≤ q) (hle : q ≤ bound) : IsDecimal q := by
  have hpow : (0 : ℚ) < 10 ^ scale := by positivity
  have hn0 : (0 : ℚ) ≤ n := hq ▸ mul_nonneg hnonneg hpow.le
  have hnm : (n : ℚ) ≤ m := hq ▸ hbound ▸ mul_le_mul_of_nonneg_right hle hpow.le
  rw [Int.cast_nonneg_iff] at hn0
  rw [Int.cast_le] at hnm
  exact isDecimal_iff.mpr ⟨scale, hscale, n, hq, by omega⟩

/-- What is left of a target once part of it is paid for, as long as the part is the larger. -/
theorem IsDecimal.residual {target part : ℚ} (htarget : IsDecimal target) (hpart : IsDecimal part)
    (hle : part ≤ target) (hres : target - part ≤ part) : IsDecimal (target - part) := by
  obtain ⟨a, ha, n, hn, hnbound⟩ := isDecimal_iff.mp htarget
  obtain ⟨b, hb, m, hm, hmbound⟩ := isDecimal_iff.mp hpart
  have hnonneg : 0 ≤ target - part := sub_nonneg.mpr hle
  -- at the larger of the two scales both are whole
  rcases le_total a b with hab | hab
  · refine .of_le (n := n * 10 ^ (b - a) - m) hb ?_ hm hmbound hnonneg hres
    push_cast
    rw [sub_mul, hm, ← hn, mul_assoc, ← pow_add, Nat.add_sub_cancel' hab]
  · refine .of_le (n := n - m * 10 ^ (a - b)) ha ?_ hn hnbound hnonneg (by linarith)
    push_cast
    rw [sub_mul, hn, ← hm, mul_assoc, ← pow_add, Nat.add_sub_cancel' hab]

namespace Decimal

variable {D : Type} [Decimal D]

/-- Arithmetic is exact where the result is a decimal number. -/
class Lawful (D : Type) [Decimal D] : Prop where
  isDecimal (d : D) : IsDecimal (value d)
  value_zero : value (zero : D) = 0
  checkedAdd {a b : D} (h : IsDecimal (value a + value b)) :
    ∃ c, checkedAdd a b = some c ∧ value c = value a + value b
  checkedSub {a b : D} (h : IsDecimal (value a - value b)) :
    ∃ c, checkedSub a b = some c ∧ value c = value a - value b

/-- `dec_sum` -/
def decSum (items : List D) : Option D := items.foldlM checkedAdd zero

theorem foldlM_checkedAdd [Lawful D] {items : List D} {total : D}
    (h : ∀ front, front <+: items → IsDecimal (value total + (front.map value).sum)) :
    ∃ c, items.foldlM checkedAdd total = some c ∧ value c = value total + (items.map value).sum := by
  induction items generalizing total with
  | nil => exact ⟨total, rfl, (add_zero _).symm⟩
  | cons d items ih =>
    have hfirst := h [d] ⟨items, rfl⟩
    rw [List.map_singleton, List.sum_singleton] at hfirst
    obtain ⟨next, hnext, hvalue⟩ := Lawful.checkedAdd hfirst
    obtain ⟨c, hc, htotal⟩ := ih fun front hfront => by
      have hrest := h (d :: front) ((List.prefix_cons_inj d).mpr hfront)
      rwa [List.map_cons, List.sum_cons, ← add_assoc, ← hvalue] at hrest
    refine ⟨c, ?_, ?_⟩
    · rw [List.foldlM_cons, hnext]
      exact hc
    · rw [htotal, hvalue, List.map_cons, List.sum_cons, add_assoc]

/-- A sum is exact as long as its partial sums are decimal numbers. -/
theorem decSum_exact [Lawful D] {items : List D}
    (h : ∀ front, front <+: items → IsDecimal (front.map value).sum) :
    ∃ c, decSum items = some c ∧ value c = (items.map value).sum := by
  have hzero : value (zero : D) = 0 := Lawful.value_zero
  obtain ⟨c, hc, hvalue⟩ := foldlM_checkedAdd fun front hfront => by
    rw [hzero, zero_add]
    exact h front hfront
  rw [hzero, zero_add] at hvalue
  exact ⟨c, hc, hvalue⟩

end Decimal

/-! ## Decimals that never round -/

/-- A decimal number, whose operations report a result that is not one. -/
structure ExactDecimal where
  number : ℚ
  isDecimal : IsDecimal number
  deriving DecidableEq

namespace ExactDecimal

def ofRat? (q : ℚ) : Option ExactDecimal := if h : IsDecimal q then some ⟨q, h⟩ else none

instance : Decimal ExactDecimal where
  value := number
  new num scale := (ofRat? (num / 10 ^ scale)).getD ⟨0, isDecimal_zero⟩
  checkedAdd a b := ofRat? (a.number + b.number)
  checkedSub a b := ofRat? (a.number - b.number)
  checkedMul a b := ofRat? (a.number * b.number)

theorem ofRat?_isDecimal {q : ℚ} (h : IsDecimal q) : ofRat? q = some ⟨q, h⟩ := dif_pos h

instance : Decimal.Lawful ExactDecimal where
  isDecimal := isDecimal
  value_zero := by
    change ((ofRat? ((0 : Int) / 10 ^ 0)).getD _).number = 0
    rw [Int.cast_zero, zero_div, ofRat?_isDecimal isDecimal_zero]
    rfl
  checkedAdd h := ⟨_, ofRat?_isDecimal h, rfl⟩
  checkedSub h := ⟨_, ofRat?_isDecimal h, rfl⟩

end ExactDecimal

end BookAgent.Lib
