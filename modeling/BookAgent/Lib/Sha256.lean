import BookAgent.Lib.PrefixCode

/-!
# SHA-256

The hash function of FIPS 180-4 on byte strings, as a plain executable
definition: the compression keeps the eight working words in a record and slides
a window of sixteen words over the message schedule. A word is a natural number
below `2 ^ 32`; sums and left shifts are reduced.
-/

namespace BookAgent.Lib.Sha256

/-- The eight 32-bit words. -/
structure State where
  a : Nat
  b : Nat
  c : Nat
  d : Nat
  e : Nat
  f : Nat
  g : Nat
  h : Nat

def word (n : Nat) : Nat := n % 0x100000000

def rotr (x n : Nat) : Nat := (x >>> n) ||| word (x <<< (32 - n))

def complement (x : Nat) : Nat := 0xffffffff ^^^ x

def initial : State :=
  ⟨0x6a09e667, 0xbb67ae85, 0x3c6ef372, 0xa54ff53a, 0x510e527f, 0x9b05688c, 0x1f83d9ab, 0x5be0cd19⟩

def roundConstants : List Nat := [
  0x428a2f98, 0x71374491, 0xb5c0fbcf, 0xe9b5dba5, 0x3956c25b, 0x59f111f1, 0x923f82a4, 0xab1c5ed5,
  0xd807aa98, 0x12835b01, 0x243185be, 0x550c7dc3, 0x72be5d74, 0x80deb1fe, 0x9bdc06a7, 0xc19bf174,
  0xe49b69c1, 0xefbe4786, 0x0fc19dc6, 0x240ca1cc, 0x2de92c6f, 0x4a7484aa, 0x5cb0a9dc, 0x76f988da,
  0x983e5152, 0xa831c66d, 0xb00327c8, 0xbf597fc7, 0xc6e00bf3, 0xd5a79147, 0x06ca6351, 0x14292967,
  0x27b70a85, 0x2e1b2138, 0x4d2c6dfc, 0x53380d13, 0x650a7354, 0x766a0abb, 0x81c2c92e, 0x92722c85,
  0xa2bfe8a1, 0xa81a664b, 0xc24b8b70, 0xc76c51a3, 0xd192e819, 0xd6990624, 0xf40e3585, 0x106aa070,
  0x19a4c116, 0x1e376c08, 0x2748774c, 0x34b0bcb5, 0x391c0cb3, 0x4ed8aa4a, 0x5b9cca4f, 0x682e6ff3,
  0x748f82ee, 0x78a5636f, 0x84c87814, 0x8cc70208, 0x90befffa, 0xa4506ceb, 0xbef9a3f7, 0xc67178f2]

/-- Sixteen words of the message schedule, in order. -/
structure Window where
  w0 : Nat
  w1 : Nat
  w2 : Nat
  w3 : Nat
  w4 : Nat
  w5 : Nat
  w6 : Nat
  w7 : Nat
  w8 : Nat
  w9 : Nat
  w10 : Nat
  w11 : Nat
  w12 : Nat
  w13 : Nat
  w14 : Nat
  w15 : Nat

def Window.ofBlock (ws : List Nat) : Window :=
  ⟨ws.getD 0 0, ws.getD 1 0, ws.getD 2 0, ws.getD 3 0, ws.getD 4 0, ws.getD 5 0, ws.getD 6 0,
    ws.getD 7 0, ws.getD 8 0, ws.getD 9 0, ws.getD 10 0, ws.getD 11 0, ws.getD 12 0, ws.getD 13 0,
    ws.getD 14 0, ws.getD 15 0⟩

/-- One word on. -/
def Window.next (w : Window) : Window :=
  ⟨w.w1, w.w2, w.w3, w.w4, w.w5, w.w6, w.w7, w.w8, w.w9, w.w10, w.w11, w.w12, w.w13, w.w14, w.w15,
    word ((rotr w.w14 17 ^^^ rotr w.w14 19 ^^^ (w.w14 >>> 10)) + w.w9 +
      (rotr w.w1 7 ^^^ rotr w.w1 18 ^^^ (w.w1 >>> 3)) + w.w0)⟩

def round (s : State) (k w : Nat) : State :=
  let t₁ := s.h + (rotr s.e 6 ^^^ rotr s.e 11 ^^^ rotr s.e 25) +
    ((s.e &&& s.f) ^^^ (complement s.e &&& s.g)) + k + w
  let t₂ := (rotr s.a 2 ^^^ rotr s.a 13 ^^^ rotr s.a 22) +
    ((s.a &&& s.b) ^^^ (s.a &&& s.c) ^^^ (s.b &&& s.c))
  ⟨word (t₁ + t₂), s.a, s.b, s.c, word (s.d + t₁), s.e, s.f, s.g⟩

def compress (s : State) (block : List Nat) : State :=
  let r := (roundConstants.foldl (fun (acc : State × Window) k =>
    (round acc.1 k acc.2.w0, acc.2.next)) (s, .ofBlock block)).1
  ⟨word (s.a + r.a), word (s.b + r.b), word (s.c + r.c), word (s.d + r.d), word (s.e + r.e),
    word (s.f + r.f), word (s.g + r.g), word (s.h + r.h)⟩

/-- One `1` bit, zeros and the bit length, up to a multiple of 64 bytes. -/
def pad (msg : List UInt8) : List UInt8 :=
  msg ++ 0x80 :: List.replicate ((119 - msg.length % 64) % 64) 0 ++ beBytes 8 (8 * msg.length)

def words : List UInt8 → List Nat
  | a :: b :: c :: d :: rest =>
    (((a.toNat * 256 + b.toNat) * 256 + c.toNat) * 256 + d.toNat) :: words rest
  | _ => []

def blocks : Nat → List Nat → List (List Nat)
  | 0, _ => []
  | n + 1, ws => ws.take 16 :: blocks n (ws.drop 16)

def State.bytes (s : State) : List UInt8 :=
  beBytes 4 s.a ++ beBytes 4 s.b ++ beBytes 4 s.c ++ beBytes 4 s.d ++ beBytes 4 s.e ++
    beBytes 4 s.f ++ beBytes 4 s.g ++ beBytes 4 s.h

@[simp] theorem State.length_bytes (s : State) : s.bytes.length = 32 := by
  simp [State.bytes]

def hash (msg : List UInt8) : {b : List UInt8 // b.length = 32} :=
  let padded := pad msg
  ⟨((blocks (padded.length / 64) (words padded)).foldl compress initial).bytes, by simp⟩

/-- The digest of `abc`. -/
example : (hash [0x61, 0x62, 0x63]).val =
    [0xba, 0x78, 0x16, 0xbf, 0x8f, 0x01, 0xcf, 0xea, 0x41, 0x41, 0x40, 0xde, 0x5d, 0xae, 0x22,
     0x23, 0xb0, 0x03, 0x61, 0xa3, 0x96, 0x17, 0x7a, 0x9c, 0xb4, 0x10, 0xff, 0x61, 0xf2, 0x00,
     0x15, 0xad] := by
  decide +kernel

end BookAgent.Lib.Sha256
