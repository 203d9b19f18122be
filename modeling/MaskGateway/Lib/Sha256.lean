import MaskGateway.Lib.Bytes

/-!
# `MaskGateway.Lib.Sha256`: SHA-256 and HMAC-SHA-256

The functions of FIPS 180-4 and FIPS 198-1, on lists of bytes. They are here to be run: nothing is
proved of them but the length of what they give.
-/

set_option autoImplicit false

namespace MaskGateway.Lib.Sha256

/-! ### Words of 32 bits -/

/-- The sum of two words. -/
def add (x y : Nat) : Nat := (x + y) % 4294967296

/-- `ROTR`. -/
def rotr (n x : Nat) : Nat := x >>> n ||| (x <<< (32 - n)) % 4294967296

/-- `K`: the first 32 bits of the cube roots of the first primes. -/
def constants : List Nat :=
  [0x428A2F98, 0x71374491, 0xB5C0FBCF, 0xE9B5DBA5, 0x3956C25B, 0x59F111F1, 0x923F82A4, 0xAB1C5ED5,
   0xD807AA98, 0x12835B01, 0x243185BE, 0x550C7DC3, 0x72BE5D74, 0x80DEB1FE, 0x9BDC06A7, 0xC19BF174,
   0xE49B69C1, 0xEFBE4786, 0x0FC19DC6, 0x240CA1CC, 0x2DE92C6F, 0x4A7484AA, 0x5CB0A9DC, 0x76F988DA,
   0x983E5152, 0xA831C66D, 0xB00327C8, 0xBF597FC7, 0xC6E00BF3, 0xD5A79147, 0x06CA6351, 0x14292967,
   0x27B70A85, 0x2E1B2138, 0x4D2C6DFC, 0x53380D13, 0x650A7354, 0x766A0ABB, 0x81C2C92E, 0x92722C85,
   0xA2BFE8A1, 0xA81A664B, 0xC24B8B70, 0xC76C51A3, 0xD192E819, 0xD6990624, 0xF40E3585, 0x106AA070,
   0x19A4C116, 0x1E376C08, 0x2748774C, 0x34B0BCB5, 0x391C0CB3, 0x4ED8AA4A, 0x5B9CCA4F, 0x682E6FF3,
   0x748F82EE, 0x78A5636F, 0x84C87814, 0x8CC70208, 0x90BEFFFA, 0xA4506CEB, 0xBEF9A3F7, 0xC67178F2]

/-- The working variables, and the hash value between two blocks. -/
structure Words where
  a : Nat
  b : Nat
  c : Nat
  d : Nat
  e : Nat
  f : Nat
  g : Nat
  h : Nat

/-- `H(0)`: the first 32 bits of the square roots of the first primes. -/
def initial : Words :=
  ⟨0x6A09E667, 0xBB67AE85, 0x3C6EF372, 0xA54FF53A, 0x510E527F, 0x9B05688C, 0x1F83D9AB, 0x5BE0CD19⟩

/-- The message schedule, continued by `more` words from the words so far, the last one first. -/
def extend : (more : Nat) → List Nat → List Nat
  | 0, words => words.reverse
  | more + 1, words =>
      let x := words.getD 14 0
      let y := words.getD 1 0
      let s0 := rotr 7 x ^^^ rotr 18 x ^^^ x >>> 3
      let s1 := rotr 17 y ^^^ rotr 19 y ^^^ y >>> 10
      extend more (add (add s1 (words.getD 6 0)) (add s0 (words.getD 15 0)) :: words)

/-- One round, with its constant and its word of the schedule. -/
def round (s : Words) (kw : Nat × Nat) : Words :=
  let s1 := rotr 6 s.e ^^^ rotr 11 s.e ^^^ rotr 25 s.e
  let ch := (s.e &&& s.f) ^^^ ((4294967295 - s.e) &&& s.g)
  let t1 := add (add (add s.h s1) (add ch kw.1)) kw.2
  let s0 := rotr 2 s.a ^^^ rotr 13 s.a ^^^ rotr 22 s.a
  let maj := (s.a &&& s.b) ^^^ (s.a &&& s.c) ^^^ (s.b &&& s.c)
  ⟨add t1 (add s0 maj), s.a, s.b, s.c, add s.d t1, s.e, s.f, s.g⟩

/-- The hash value after one block. -/
def compress (s : Words) (block : List UInt8) : Words :=
  let words := extend 48 ((blocks 4 block).map ofBytes).reverse
  let t := (constants.zip words).foldl round s
  ⟨add s.a t.a, add s.b t.b, add s.c t.c, add s.d t.d, add s.e t.e, add s.f t.f, add s.g t.g,
    add s.h t.h⟩

/-! ### The functions -/

/-- The message with its padding: whole blocks of 64 bytes. -/
def pad (message : List UInt8) : List UInt8 :=
  message ++ 0x80 :: List.replicate ((119 - message.length % 64) % 64) 0 ++
    toBytes 8 (8 * message.length)

/-- The bytes of a hash value. -/
def digest (s : Words) : List UInt8 :=
  toBytes 4 s.a ++ toBytes 4 s.b ++ toBytes 4 s.c ++ toBytes 4 s.d ++ toBytes 4 s.e ++
    toBytes 4 s.f ++ toBytes 4 s.g ++ toBytes 4 s.h

/-- SHA-256. -/
def sha256 (message : List UInt8) : List UInt8 :=
  digest ((blocks 64 (pad message)).foldl compress initial)

/-- HMAC-SHA-256. -/
def hmac (key message : List UInt8) : List UInt8 :=
  let short := if key.length > 64 then sha256 key else key
  let whole := short ++ List.replicate (64 - short.length) 0
  sha256 (whole.map (· ^^^ 0x5C) ++ sha256 (whole.map (· ^^^ 0x36) ++ message))

@[simp] theorem length_sha256 (message : List UInt8) : (sha256 message).length = 32 := by
  simp [sha256, digest]

@[simp] theorem length_hmac (key message : List UInt8) : (hmac key message).length = 32 :=
  length_sha256 _

end MaskGateway.Lib.Sha256
