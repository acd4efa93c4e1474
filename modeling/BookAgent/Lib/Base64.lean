import BookAgent.Lib.Lines

/-!
# Base64

The encoding is a parameter of which only one law is used, that a text has no line break. It is
instantiated by the standard alphabet with padding: three bytes are four characters, and what is
left over is padded to four.
-/

namespace BookAgent.Lib

/-- The `base64` crate. -/
class Base64 where
  /-- `STANDARD.encode` -/
  base64Encode : List UInt8 → String
  oneLine_base64Encode : ∀ bytes, OneLine (base64Encode bytes)

/-- The character of a six-bit digit. -/
def base64Char (n : Nat) : Char :=
  if n < 26 then Char.ofNat ('A'.toNat + n)
  else if n < 52 then Char.ofNat ('a'.toNat + (n - 26))
  else if n < 62 then Char.ofNat ('0'.toNat + (n - 52))
  else if n = 62 then '+'
  else '/'

def base64Chars : List UInt8 → List Char
  | a :: b :: c :: rest =>
    let n := a.toNat * 65536 + b.toNat * 256 + c.toNat
    base64Char (n / 262144) :: base64Char (n / 4096 % 64) :: base64Char (n / 64 % 64) ::
      base64Char (n % 64) :: base64Chars rest
  | [a, b] =>
    let n := a.toNat * 256 + b.toNat
    [base64Char (n / 1024), base64Char (n / 16 % 64), base64Char (n % 16 * 4), '=']
  | [a] => [base64Char (a.toNat / 4), base64Char (a.toNat % 4 * 16), '=', '=']
  | [] => []

theorem base64Char_ne_newline (n : Nat) : base64Char n ≠ '\n' := by
  have digits : ∀ m < 63, base64Char m ≠ '\n' := by decide
  by_cases h : n < 63
  · exact digits n h
  · unfold base64Char
    rw [if_neg (by omega), if_neg (by omega), if_neg (by omega), if_neg (by omega)]
    decide

/-- The encoding is on one line. -/
theorem newline_notMem_base64Chars (bytes : List UInt8) : '\n' ∉ base64Chars bytes := by
  have digit (n : Nat) : '\n' ≠ base64Char n := (base64Char_ne_newline n).symm
  have padding : '\n' ≠ '=' := by decide
  induction bytes using base64Chars.induct with
  | case1 a b c rest ih =>
    rw [base64Chars]
    simp only [List.mem_cons, digit, ih, or_self, not_false_eq_true]
  | case2 a b =>
    rw [base64Chars]
    simp only [List.mem_cons, digit, padding, List.not_mem_nil, or_self, not_false_eq_true]
  | case3 a =>
    rw [base64Chars]
    simp only [List.mem_cons, digit, padding, List.not_mem_nil, or_self, not_false_eq_true]
  | case4 => exact List.not_mem_nil

/-- The standard alphabet. -/
abbrev standardBase64 : Base64 where
  base64Encode bytes := String.ofList (base64Chars bytes)
  oneLine_base64Encode bytes := oneLine_ofList (newline_notMem_base64Chars bytes)

example : standardBase64.base64Encode [0x4D, 0x61, 0x6E, 0x4D] = "TWFuTQ==" := by decide

end BookAgent.Lib
