import Mathlib.Algebra.Order.Group.Abs
import Mathlib.Algebra.Order.Ring.Int
import BookAgent.Lib.ScaledInt

/-!
# Bounded amounts

Decimals as an ordered group with a largest value: addition and subtraction are
exact up to that bound, where they saturate or report an overflow. An amount in
range prints as text that reads back as the same amount.
-/

namespace BookAgent.Lib

/-- The exact decimals up to `rust_decimal::Decimal::MAX`, with their text form. -/
class Amount (D : Type) extends AddCommGroup D, LinearOrder D, IsOrderedAddMonoid D where
  maxValue : D
  maxValue_nonneg : 0 ≤ maxValue
  /-- `Decimal::from_str`. -/
  fromStr : String → Option D
  /-- `to_string`. -/
  print : D → String
  fromStr_le {s : String} {x : D} : fromStr s = some x → |x| ≤ maxValue
  fromStr_print {x : D} : |x| ≤ maxValue → fromStr (print x) = some x

namespace Amount

variable {D : Type} [Amount D]

/-- The nearest value in range. -/
def clamp (x : D) : D := max (-maxValue) (min maxValue x)

def saturatingAdd (a b : D) : D := clamp (a + b)

def saturatingSub (a b : D) : D := clamp (a - b)

def checkedSub (a b : D) : Option D := if |a - b| ≤ maxValue then some (a - b) else none

/-- `from_str(..).unwrap_or_default()`. -/
def parseOrZero (s : String) : D := (fromStr s).getD 0

theorem clamp_eq {x : D} (h : |x| ≤ maxValue) : clamp x = x := by
  obtain ⟨hlow, hhigh⟩ := abs_le.mp h
  unfold clamp
  rw [min_eq_right hhigh, max_eq_right hlow]

theorem abs_le_of_between {x y : D} (hx : 0 ≤ x) (hxy : x ≤ y) (hy : y ≤ maxValue) :
    |x| ≤ maxValue := by
  rw [abs_of_nonneg hx]
  exact hxy.trans hy

theorem abs_saturatingAdd_le {a b : D} : |saturatingAdd a b| ≤ maxValue := by
  have hneg : -maxValue ≤ (maxValue : D) := (neg_nonpos.mpr maxValue_nonneg).trans maxValue_nonneg
  unfold saturatingAdd clamp
  exact abs_le.mpr ⟨le_max_left _ _, max_le hneg (min_le_left _ _)⟩

theorem saturatingAdd_eq {a b : D} (h : 0 ≤ a + b) (hmax : a + b ≤ maxValue) :
    saturatingAdd a b = a + b :=
  clamp_eq (abs_le_of_between h le_rfl hmax)

theorem saturatingSub_eq {a b : D} (h : 0 ≤ a - b) (hmax : a - b ≤ maxValue) :
    saturatingSub a b = a - b :=
  clamp_eq (abs_le_of_between h le_rfl hmax)

theorem checkedSub_eq_some {a b x : D} (h : checkedSub a b = some x) : x = a - b := by
  unfold checkedSub at h
  split at h
  · exact (Option.some.inj h).symm
  · cases h

theorem parseOrZero_le (s : String) : |(parseOrZero s : D)| ≤ maxValue := by
  unfold parseOrZero
  cases h : (fromStr s : Option D) with
  | none => simpa using maxValue_nonneg
  | some x => exact fromStr_le h

theorem parseOrZero_print {x : D} (h : |x| ≤ maxValue) : parseOrZero (print x) = x := by
  unfold parseOrZero
  rw [fromStr_print h, Option.getD_some]

end Amount

/-! ## Whole amounts -/

/-- The integer a text of digits denotes, after a minus sign or not. -/
def wholeValue (s : String) : Option Int :=
  match s.toList with
  | '-' :: cs => (plainNat cs).map fun n : Nat => -(n : Int)
  | cs => (plainNat cs).map fun n : Nat => (n : Int)

theorem plainNat_natText (n : Nat) : plainNat (toString n).toList = some n := by
  rw [show (toString n).toList = Nat.toDigits 10 n from Nat.toList_repr]
  exact ScaledInt.plainNat_toDigits n

theorem wholeValue_toString (i : Int) : wholeValue (toString i) = some i := by
  rcases intText_cases i with ⟨n, rfl, htext⟩ | ⟨n, rfl, htext⟩
  · rw [htext]
    unfold wholeValue
    split
    · rename_i cs hcs
      have hmem : '-' ∈ (toString n).toList := hcs ▸ List.mem_cons_self
      exact absurd hmem (notMem_natText (by decide))
    · rw [plainNat_natText]
      rfl
  · rw [htext]
    unfold wholeValue
    rw [String.toList_append]
    change (plainNat (toString (n + 1)).toList).map _ = _
    rw [plainNat_natText]
    rfl

/-- Decimals of scale zero. -/
instance : Amount Int where
  maxValue := 2 ^ 96 - 1
  maxValue_nonneg := by decide
  fromStr s := (wholeValue s).filter fun x => |x| ≤ 2 ^ 96 - 1
  print x := toString x
  fromStr_le h := of_decide_eq_true (Option.filter_eq_some_iff.mp h).2
  fromStr_print h := by
    rw [wholeValue_toString, Option.filter_some, if_pos (decide_eq_true h)]

end BookAgent.Lib
