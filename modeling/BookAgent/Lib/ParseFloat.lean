/-!
# Decimal text to binary64

Rust's `f64::from_str`: an optional sign, then `inf`, `infinity`, `nan` in any
case, or digits with an optional point and exponent and at least one digit. The
result is the correctly rounded binary64 number, which is Lean's `Float`.
-/

namespace BookAgent.Lib

/-- What a text names without its sign. -/
inductive FloatText
  | inf
  | nan
  /-- `mantissa * 10 ^ exponent` -/
  | number (mantissa : Nat) (exponent : Int)
  deriving DecidableEq

/-- Digits at the front of a text, and the rest. -/
def takeDigits : List Char → List Char × List Char :=
  List.span Char.isDigit

/-- The exponent after the mantissa: none, or `e`, an optional sign and digits up
to the end. -/
def parseExponent : List Char → Option Int
  | [] => some 0
  | c :: cs =>
    if c = 'e' ∨ c = 'E' then
      let (negative, cs) := match cs with
        | '-' :: rest => (true, rest)
        | '+' :: rest => (false, rest)
        | _ => (false, cs)
      let (ds, rest) := takeDigits cs
      if ds = [] ∨ rest ≠ [] then none
      else
        let e := Nat.ofDigitChars 10 ds 0
        some (if negative then -e else e)
    else none

/-- Digits with an optional point and exponent. -/
def parseDecimal (cs : List Char) : Option FloatText :=
  let (whole, rest) := takeDigits cs
  let (fraction, rest) := match rest with
    | '.' :: rest => takeDigits rest
    | _ => ([], rest)
  if whole = [] ∧ fraction = [] then none
  else (parseExponent rest).map fun e =>
    .number (Nat.ofDigitChars 10 (whole ++ fraction) 0) (e - fraction.length)

/-- A text without its sign. -/
def parseUnsigned (cs : List Char) : Option FloatText :=
  let lower := cs.map Char.toLower
  if lower = "inf".toList ∨ lower = "infinity".toList then some .inf
  else if lower = "nan".toList then some .nan
  else parseDecimal cs

/-- `str::parse::<f64>` up to rounding: whether there is a minus sign, and what follows. -/
def parseSigned (s : String) : Option (Bool × FloatText) :=
  match s.toList with
  | '-' :: cs => (parseUnsigned cs).map (true, ·)
  | '+' :: cs => (parseUnsigned cs).map (false, ·)
  | cs => (parseUnsigned cs).map (false, ·)

def FloatText.toFloat : FloatText → Float
  | .inf => 1.0 / 0.0
  | .nan => 0.0 / 0.0
  | .number m e => OfScientific.ofScientific m (decide (e < 0)) e.natAbs

/-- `str::parse::<f64>`. -/
def parseF64 (s : String) : Option Float :=
  (parseSigned s).map fun (negative, text) => if negative then -text.toFloat else text.toFloat

example : parseF64 "-12.50e1" = some (-125.0) := by decide +kernel
example : parseF64 "." = none ∧ parseF64 "1 " = none ∧ parseF64 "5e" = none := by decide +kernel

end BookAgent.Lib
