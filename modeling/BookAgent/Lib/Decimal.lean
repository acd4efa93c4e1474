import Mathlib.Data.Rat.Defs
import Mathlib.Algebra.Order.Ring.Rat

/-!
# Decimal numbers

What the agents use of `rust_decimal`: a decimal stands for an exact number,
comparisons compare these numbers, and arithmetic reports what it cannot
represent. The library itself is a parameter.
-/

namespace BookAgent.Lib

/-- The arithmetic of `rust_decimal::Decimal`. -/
class Decimal (D : Type) where
  /-- The number a decimal stands for; decimals compare by it. -/
  value : D → ℚ
  /-- `Decimal::new(num, scale)`. -/
  new : Int → Nat → D
  checkedAdd : D → D → Option D
  checkedSub : D → D → Option D
  checkedMul : D → D → Option D

namespace Decimal

variable {D : Type} [Decimal D]

def zero : D := new 0 0

def one : D := new 1 0

/-- `a < b` on decimals. -/
def lt (a b : D) : Bool := decide (value a < value b)

/-- `a <= b` on decimals. -/
def le (a b : D) : Bool := decide (value a ≤ value b)

end Decimal

end BookAgent.Lib
