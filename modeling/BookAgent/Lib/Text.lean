import Mathlib.Data.List.Infix
import BookAgent.Lib.PrefixCode

/-!
# Text as bytes

UTF-8 bytes of a string, hexadecimal text, and the pieces of a dotted name.
-/

namespace BookAgent.Lib

/-! ## UTF-8 -/

section Utf8

/-- The UTF-8 bytes of a string (`str::as_bytes`). -/
def utf8 (s : String) : List UInt8 := s.toByteArray.data.toList

theorem utf8_inj {s t : String} (h : utf8 s = utf8 t) : s = t := by
  unfold utf8 at h
  exact String.toByteArray_inj.mp (ByteArray.ext (Array.toList_inj.mp h))

@[simp] theorem utf8_append (s t : String) : utf8 (s ++ t) = utf8 s ++ utf8 t := by
  simp [utf8]

theorem utf8_ofList (cs : List Char) :
    utf8 (String.ofList cs) = cs.flatMap String.utf8EncodeChar := by
  simp [utf8, List.utf8Encode]

/-- The text whose bytes are the given ASCII codes. -/
def asciiText (bs : List UInt8) : String :=
  String.ofList (bs.map fun b => Char.ofNat b.toNat)

theorem utf8EncodeChar_ofNat {b : UInt8} (hb : b.toNat < 128) :
    String.utf8EncodeChar (Char.ofNat b.toNat) = [b] := by
  have hval : (Char.ofNat b.toNat).val.toNat = b.toNat := by
    rw [Char.ofNat, dif_pos (Or.inl (by omega))]
    rfl
  have hle : (Char.ofNat b.toNat).val.toNat ≤ 127 := by omega
  unfold String.utf8EncodeChar
  simp only [hval]
  rw [if_pos (by omega)]
  simp

theorem utf8_asciiText {bs : List UInt8} (h : ∀ b ∈ bs, b.toNat < 128) :
    utf8 (asciiText bs) = bs := by
  rw [asciiText, utf8_ofList]
  induction bs with
  | nil => rfl
  | cons b bs ih =>
    rw [List.map_cons, List.flatMap_cons, utf8EncodeChar_ofNat (h b List.mem_cons_self),
      ih fun x hx => h x (List.mem_cons_of_mem _ hx), List.singleton_append]

end Utf8

/-! ## Search -/

section Search

/-- `str::contains`, which searches the bytes. -/
def containsText (text part : String) : Bool := decide (utf8 part <:+: utf8 text)

theorem containsText_append_left (part rest : String) : containsText (part ++ rest) part = true := by
  refine decide_eq_true ?_
  rw [utf8_append]
  exact (List.prefix_append _ _).isInfix

end Search

/-! ## Hexadecimal -/

section Hex

/-- ASCII letters in lower case (`to_ascii_lowercase`). -/
def lowerCase (s : String) : String := String.ofList (s.toList.map Char.toLower)

/-- The `hex` crate: what is encoded is decoded again, and a text that is decoded is, but for the
case of its letters, the encoding of its bytes. -/
class Hex where
  decode : String → Option (List UInt8)
  encode : List UInt8 → String
  decode_encode : ∀ bs, decode (encode bs) = some bs
  lowerCase_of_decode : ∀ {s bs}, decode s = some bs → lowerCase s = encode bs

/-- The value of a hexadecimal digit, either case. -/
def hexDigit? (c : Char) : Option Nat :=
  if '0' ≤ c ∧ c ≤ '9' then some (c.toNat - '0'.toNat)
  else if 'a' ≤ c ∧ c ≤ 'f' then some (c.toNat - 'a'.toNat + 10)
  else if 'A' ≤ c ∧ c ≤ 'F' then some (c.toNat - 'A'.toNat + 10)
  else none

/-- Pairs of hexadecimal digits; an odd rest or another character fails. -/
def hexDecodeChars : List Char → Option (List UInt8)
  | [] => some []
  | [_] => none
  | c :: d :: cs => do
    let hi ← hexDigit? c
    let lo ← hexDigit? d
    let bs ← hexDecodeChars cs
    return UInt8.ofNat (16 * hi + lo) :: bs

/-- Lower-case hexadecimal digit. -/
def hexChar (n : Nat) : Char :=
  if n < 10 then Char.ofNat ('0'.toNat + n) else Char.ofNat ('a'.toNat + (n - 10))

/-- Lower-case hexadecimal text of a byte string. -/
def hexChars (bs : List UInt8) : List Char :=
  bs.flatMap fun b => [hexChar (b.toNat / 16), hexChar (b.toNat % 16)]

theorem hexDigit?_hexChar : ∀ n < 16, hexDigit? (hexChar n) = some n := by decide

theorem hexDecodeChars_hexChars (bs : List UInt8) : hexDecodeChars (hexChars bs) = some bs := by
  unfold hexChars
  induction bs with
  | nil => rfl
  | cons b bs ih =>
    have hb : b.toNat < 256 := b.toNat_lt
    have hi : hexDigit? (hexChar (b.toNat / 16)) = some (b.toNat / 16) :=
      hexDigit?_hexChar _ (by omega)
    have lo : hexDigit? (hexChar (b.toNat % 16)) = some (b.toNat % 16) :=
      hexDigit?_hexChar _ (by omega)
    have join : UInt8.ofNat (16 * (b.toNat / 16) + b.toNat % 16) = b := by
      rw [Nat.div_add_mod, UInt8.ofNat_toNat]
    rw [List.flatMap_cons, List.cons_append, List.cons_append, List.nil_append, hexDecodeChars,
      hi, lo, ih]
    simp only [Option.bind_eq_bind, Option.bind_some, join]
    rfl

/-- A digit in lower case is the one its value is written with. -/
theorem toLower_of_hexDigit? {c : Char} {n : Nat} (h : hexDigit? c = some n) :
    c.toLower = hexChar n ∧ n < 16 := by
  have digits : ∀ k < 128, ∀ m ∈ hexDigit? (Char.ofNat k),
      (Char.ofNat k).toLower = hexChar m ∧ m < 16 := by
    decide
  have ascii : c.toNat < 128 := by
    by_contra hc
    have outside : ∀ d : Char, d.toNat < 128 → ¬ c ≤ d := fun d hd hle => by
      have hle : c.toNat ≤ d.toNat := hle
      omega
    simp only [hexDigit?, outside '9' (by decide), outside 'f' (by decide),
      outside 'F' (by decide), and_false, if_false, reduceCtorEq] at h
  have hdigit := digits c.toNat ascii
  rw [Char.ofNat_toNat] at hdigit
  exact hdigit n h

theorem toLower_of_hexDecodeChars {cs : List Char} {bs : List UInt8}
    (h : hexDecodeChars cs = some bs) : cs.map Char.toLower = hexChars bs := by
  unfold hexChars
  induction cs using hexDecodeChars.induct generalizing bs with
  | case1 =>
    obtain rfl := Option.some.inj h
    rfl
  | case2 c => cases h
  | case3 c d cs ih =>
    rw [hexDecodeChars] at h
    simp only [Option.bind_eq_bind, Option.bind_eq_some_iff] at h
    obtain ⟨hi, hhi, lo, hlo, rest, hrest, hbs⟩ := h
    obtain rfl := Option.some.inj hbs
    obtain ⟨hc, hhi⟩ := toLower_of_hexDigit? hhi
    obtain ⟨hd, hlo⟩ := toLower_of_hexDigit? hlo
    have byte : (UInt8.ofNat (16 * hi + lo)).toNat = 16 * hi + lo :=
      UInt8.toNat_ofNat_of_lt' (by unfold UInt8.size; omega)
    have high : (16 * hi + lo) / 16 = hi := by omega
    have low : (16 * hi + lo) % 16 = lo := by omega
    rw [List.map_cons, List.map_cons, hc, hd, ih hrest, List.flatMap_cons, byte, high, low]
    rfl

/-- Pairs of digits, read in either case and written in lower case. -/
abbrev pairedHex : Hex where
  decode s := hexDecodeChars s.toList
  encode bs := String.ofList (hexChars bs)
  decode_encode bs := by rw [String.toList_ofList, hexDecodeChars_hexChars]
  lowerCase_of_decode h := congrArg String.ofList (toLower_of_hexDecodeChars h)

end Hex

/-! ## Dotted names -/

section Dots

/-- The pieces between dots; a name without dots is one piece (`split('.')`). -/
def splitDots (s : String) : List String :=
  (s.toList.splitOn '.').map String.ofList

theorem splitDots_inj {s t : String} (h : splitDots s = splitDots t) : s = t := by
  have hmap : s.toList.splitOn '.' = t.toList.splitOn '.' :=
    List.map_injective_iff.mpr (fun _ _ e => String.ofList_inj.mp e) h
  have := congrArg (List.intercalate ['.']) hmap
  rw [List.intercalate_splitOn, List.intercalate_splitOn] at this
  exact String.toList_inj.mp this

end Dots

end BookAgent.Lib
