import BookAgent.Lib.DecimalRounding
import BookAgent.Lib.ScaledInt

/-!
# Ten decimals

The text of a number with ten digits after the point, as `{:.10}` renders it.
-/

namespace BookAgent.Lib

theorem abs_halfEven_sub_le (q : ℚ) : |(halfEven q : ℚ) - q| ≤ 1 / 2 := by
  have hle := Int.floor_le q
  have hlt := Int.lt_floor_add_one q
  unfold halfEven
  rw [abs_le]
  split
  · rename_i hnear
    rcases hnear with hlow | ⟨htie, -⟩
    · constructor <;> linarith
    · constructor <;> linarith
  · rename_i hfar
    rw [not_or, not_lt] at hfar
    push_cast
    constructor <;> linarith [hfar.1]

/-- Rounded to ten decimals, a tie to the even digit. -/
def tenDecimals (x : ℚ) : ScaledInt := ⟨halfEven (x * 10 ^ 10), 10⟩

theorem abs_tenDecimals_sub_le (x : ℚ) : |(tenDecimals x).value - x| ≤ 1 / 2 / 10 ^ 10 := by
  have hround := abs_halfEven_sub_le (x * 10 ^ 10)
  have hpow : (0 : ℚ) < 10 ^ 10 := by positivity
  have heq : (tenDecimals x).value - x = (halfEven (x * 10 ^ 10) - x * 10 ^ 10) / 10 ^ 10 := by
    unfold tenDecimals ScaledInt.value
    rw [sub_div, mul_div_cancel_right₀ x hpow.ne']
  rw [heq, abs_div, abs_of_pos hpow]
  exact div_le_div_of_nonneg_right hround hpow.le

/-- A number as `{:.10}`: what rounds to zero keeps its sign. -/
def fixed10 (x : ℚ) : String :=
  if x < 0 ∧ (tenDecimals x).mantissa = 0 then "-0.0000000000" else (tenDecimals x).text

theorem plainValue_fixed10 (x : ℚ) : plainValue (fixed10 x) = some (tenDecimals x).value := by
  unfold fixed10
  split
  · rename_i hzero
    have hvalue : (tenDecimals x).value = 0 := by
      unfold ScaledInt.value
      rw [hzero.2, Int.cast_zero, zero_div]
    rw [hvalue]
    decide +kernel
  · exact ScaledInt.plainValue_text _

end BookAgent.Lib
