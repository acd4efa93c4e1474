import Mathlib.Data.Int.Log
import BookAgent.Lib.ExactFloat
import BookAgent.Lib.FloatOps
import BookAgent.Lib.TenDecimals

/-!
# Binary64 arithmetic

A result is the exact one, rounded to the nearest number with a significand of 53 bits, of two the one
with an even significand, and beyond the range to infinity. The two zeros are one value here.
-/

namespace BookAgent.Lib

namespace Binary64

/-- The exponent of the last place of a number. -/
def lastPlace (q : ℚ) : Int := max (Int.log 2 |q| - 52) (-1074)

/-- The nearest number on the grid of its last place. -/
def nearest (q : ℚ) : ℚ := halfEven (q / 2 ^ lastPlace q) * 2 ^ lastPlace q

/-- The largest finite number. -/
def largest : ℚ := (2 ^ 53 - 1) * 2 ^ 971

def round (q : ℚ) : ExactFloat :=
  if |nearest q| ≤ largest then .finite (nearest q) else .inf (decide (q < 0))

example : round (1 / 10) = .finite (3602879701896397 / 2 ^ 55) := by decide +kernel

/-! ## Rounding keeps the order -/

theorem two_zpow_pos (n : Int) : (0 : ℚ) < 2 ^ n := zpow_pos two_pos n

theorem nearest_zero : nearest 0 = 0 := by
  unfold nearest
  rw [zero_div, show halfEven 0 = 0 from by exact_mod_cast halfEven_intCast 0, Int.cast_zero, zero_mul]

theorem nearest_neg (q : ℚ) : nearest (-q) = -nearest q := by
  have hplace : lastPlace (-q) = lastPlace q := by
    unfold lastPlace
    rw [abs_neg]
  unfold nearest
  rw [hplace, neg_div, halfEven_neg, Int.cast_neg, neg_mul]

theorem lastPlace_mono {a b : ℚ} (ha : 0 < a) (h : a ≤ b) : lastPlace a ≤ lastPlace b := by
  unfold lastPlace
  rw [abs_of_pos ha, abs_of_pos (ha.trans_le h)]
  exact max_le_max (Int.sub_le_sub_right (Int.log_mono_right ha h) 52) le_rfl

/-- Rounding goes no further than the next power of two. -/
theorem nearest_le {a : ℚ} (ha : 0 < a) : nearest a ≤ 2 ^ (lastPlace a + 53) := by
  have hpos := two_zpow_pos (lastPlace a)
  have hlog : a < 2 ^ (Int.log 2 a + 1) := by exact_mod_cast Int.lt_zpow_succ_log_self one_lt_two a
  have hexp : Int.log 2 a + 1 ≤ lastPlace a + 53 := by
    have := le_max_left (Int.log 2 |a| - 52) (-1074)
    rw [abs_of_pos ha] at this
    unfold lastPlace
    rw [abs_of_pos ha]
    omega
  have hlt : a / 2 ^ lastPlace a ≤ ((2 ^ 53 : Int) : ℚ) := by
    rw [div_le_iff₀ hpos]
    calc a ≤ 2 ^ (Int.log 2 a + 1) := hlog.le
      _ ≤ 2 ^ (lastPlace a + 53) := zpow_le_zpow_right₀ one_le_two hexp
      _ = ((2 ^ 53 : Int) : ℚ) * 2 ^ lastPlace a := by
        rw [zpow_add₀ two_ne_zero, mul_comm]
        norm_num
  have hround := halfEven_mono hlt
  rw [halfEven_intCast] at hround
  have hcast : (halfEven (a / 2 ^ lastPlace a) : ℚ) ≤ 2 ^ 53 := by exact_mod_cast hround
  unfold nearest
  rw [zpow_add₀ two_ne_zero, mul_comm ((2 : ℚ) ^ lastPlace a)]
  exact mul_le_mul_of_nonneg_right (by exact_mod_cast hcast) hpos.le

/-- A number with a whole significand does not round below its power of two. -/
theorem le_nearest {b : ℚ} (hb : 0 < b) (hplace : -1074 < lastPlace b) :
    2 ^ (lastPlace b + 52) ≤ nearest b := by
  have hpos := two_zpow_pos (lastPlace b)
  have hlog : (2 : ℚ) ^ Int.log 2 b ≤ b := by exact_mod_cast Int.zpow_log_le_self one_lt_two hb
  have hexp : lastPlace b + 52 = Int.log 2 b := by
    unfold lastPlace at hplace ⊢
    rw [abs_of_pos hb] at hplace ⊢
    omega
  have hle : ((2 ^ 52 : Int) : ℚ) ≤ b / 2 ^ lastPlace b := by
    rw [le_div_iff₀ hpos]
    calc ((2 ^ 52 : Int) : ℚ) * 2 ^ lastPlace b = 2 ^ (lastPlace b + 52) := by
          rw [zpow_add₀ two_ne_zero, mul_comm]
          norm_num
      _ = 2 ^ Int.log 2 b := by rw [hexp]
      _ ≤ b := hlog
  have hround := halfEven_mono hle
  rw [halfEven_intCast] at hround
  have hcast : (2 : ℚ) ^ 52 ≤ halfEven (b / 2 ^ lastPlace b) := by exact_mod_cast hround
  unfold nearest
  rw [zpow_add₀ two_ne_zero, mul_comm ((2 : ℚ) ^ lastPlace b)]
  exact mul_le_mul_of_nonneg_right (by exact_mod_cast hcast) hpos.le

theorem nearest_mono_pos {a b : ℚ} (ha : 0 < a) (h : a ≤ b) : nearest a ≤ nearest b := by
  rcases (lastPlace_mono ha h).eq_or_lt with hsame | hlt
  · unfold nearest
    rw [← hsame]
    have hpos := two_zpow_pos (lastPlace a)
    have hround := halfEven_mono (div_le_div_of_nonneg_right h hpos.le)
    exact mul_le_mul_of_nonneg_right (Int.cast_le.mpr hround) hpos.le
  · have hplace : -1074 < lastPlace b := lt_of_le_of_lt (le_max_right _ _) hlt
    calc nearest a ≤ 2 ^ (lastPlace a + 53) := nearest_le ha
      _ ≤ 2 ^ (lastPlace b + 52) := zpow_le_zpow_right₀ one_le_two (by omega)
      _ ≤ nearest b := le_nearest (ha.trans_le h) hplace

theorem nearest_nonneg {b : ℚ} (h : 0 ≤ b) : 0 ≤ nearest b := by
  have hround := halfEven_mono (div_nonneg h (two_zpow_pos (lastPlace b)).le)
  rw [show halfEven 0 = 0 from by exact_mod_cast halfEven_intCast 0] at hround
  exact mul_nonneg (Int.cast_nonneg hround) (two_zpow_pos _).le

theorem nearest_mono {a b : ℚ} (h : a ≤ b) : nearest a ≤ nearest b := by
  rcases lt_trichotomy a 0 with ha | rfl | ha
  · rcases le_or_gt 0 b with hb | hb
    · have hneg := nearest_nonneg (neg_nonneg.mpr ha.le)
      rw [nearest_neg] at hneg
      exact (neg_nonneg.mp hneg).trans (nearest_nonneg hb)
    · have hneg := nearest_mono_pos (neg_pos.mpr hb) (neg_le_neg h)
      rw [nearest_neg, nearest_neg] at hneg
      exact neg_le_neg_iff.mp hneg
  · rw [nearest_zero]
    exact nearest_nonneg h
  · exact nearest_mono_pos ha h

theorem round_mono {a b : ℚ} (h : a ≤ b) : (round a).le (round b) = true := by
  have hmono := nearest_mono h
  unfold round
  split_ifs with ha hb hb
  · exact ExactFloat.le_finite.mpr hmono
  · rcases lt_or_ge b 0 with hneg | hpos
    · have hrange := nearest_nonneg (neg_nonneg.mpr hneg.le)
      rw [nearest_neg] at hrange
      refine absurd (abs_le.mpr ⟨?_, ?_⟩) hb
      · exact (abs_le.mp ha).1.trans hmono
      · exact (neg_nonneg.mp hrange).trans (by unfold largest; norm_num)
    · rw [decide_eq_false (not_lt.mpr hpos)]
      rfl
  · rcases lt_or_ge a 0 with hneg | hpos
    · rw [decide_eq_true hneg]
      rfl
    · refine absurd (abs_le.mpr ⟨?_, ?_⟩) ha
      · exact le_trans (by unfold largest; norm_num) (nearest_nonneg hpos)
      · exact hmono.trans (abs_le.mp hb).2
  · rcases lt_or_ge a 0 with hneg | hpos
    · rw [decide_eq_true hneg]
      cases decide (b < 0) <;> rfl
    · rw [decide_eq_false (not_lt.mpr hpos), decide_eq_false (not_lt.mpr (hpos.trans h))]
      rfl

/-! ## The operations -/

def rounded : ExactFloat → ExactFloat
  | .finite q => round q
  | other => other

def display : ExactFloat → String
  | .finite q => fixed10 q
  | .inf negative => if negative then "-inf" else "inf"
  | .nan => "NaN"

theorem parse_mono {s t : String} {p q : ℚ} (hs : plainValue s = some p) (ht : plainValue t = some q)
    (h : p ≤ q) : ∃ x y, (ExactFloat.parse s).map rounded = some x ∧
      (ExactFloat.parse t).map rounded = some y ∧ x.le y = true := by
  rw [ExactFloat.parse_of_plain hs, ExactFloat.parse_of_plain ht]
  exact ⟨_, _, rfl, rfl, round_mono h⟩

@[reducible] def ops : FloatOps where
  F := ExactFloat
  ofValue := .finite
  add a b := rounded (a.add b)
  sub a b := rounded (a.sub b)
  mul a b := rounded (a.mul b)
  div a b := rounded (a.div b)
  floor := ExactFloat.floor
  ceil := ExactFloat.ceil
  abs := ExactFloat.abs
  le := ExactFloat.le
  totalLe a b := a.le b || decide (b = .nan)
  fixed10 := display
  parse s := (ExactFloat.parse s).map rounded
  le_self := ExactFloat.le_self
  le_trans := ExactFloat.le_trans
  le_total := ExactFloat.le_total
  parse_mono := parse_mono

end Binary64

end BookAgent.Lib
