import Mathlib

/-!
# `MaskGateway.Lib.Base64`: both alphabets, without and with padding

`encode` writes three bytes as four characters of the URL-safe alphabet and a shorter last
group as two or three characters. `decode` reads groups of four back and accepts a last group
of two or three characters; like the common decoders it does not look at the bits that such a
group leaves over. The library has the one direction that a writer needs: what was encoded is
read back (`decode_encode`).

`encodePadded` and `decodePadded` are the same for the standard alphabet, where a text is filled up
with `=` to whole groups.
-/

set_option autoImplicit false

namespace MaskGateway.Lib.Base64

/-- The alphabet, in the order of the values. -/
def alphabet : List Char :=
  "ABCDEFGHIJKLMNOPQRSTUVWXYZabcdefghijklmnopqrstuvwxyz0123456789-_".toList

/-- The character of a value below 64. -/
def encodeChar (n : Nat) : Char := alphabet.getD n 'A'

/-- The value of a character of the alphabet. -/
def decodeChar (c : Char) : Option Nat := alphabet.findIdx? (· == c)

/-- The characters of a byte string. -/
def encode : List UInt8 → List Char
  | a :: b :: c :: rest =>
      let n := a.toNat * 65536 + b.toNat * 256 + c.toNat
      encodeChar (n / 262144) :: encodeChar (n / 4096 % 64) :: encodeChar (n / 64 % 64) ::
        encodeChar (n % 64) :: encode rest
  | [a, b] =>
      let n := a.toNat * 1024 + b.toNat * 4
      [encodeChar (n / 4096), encodeChar (n / 64 % 64), encodeChar (n % 64)]
  | [a] =>
      let n := a.toNat * 16
      [encodeChar (n / 64), encodeChar (n % 64)]
  | [] => []

/-- The byte string of some characters, or nothing when one is not of the alphabet or a single
one is left over. -/
def decode : List Char → Option (List UInt8)
  | c₁ :: c₂ :: c₃ :: c₄ :: rest => do
      let v₁ ← decodeChar c₁
      let v₂ ← decodeChar c₂
      let v₃ ← decodeChar c₃
      let v₄ ← decodeChar c₄
      let n := v₁ * 262144 + v₂ * 4096 + v₃ * 64 + v₄
      let bytes ← decode rest
      return UInt8.ofNat (n / 65536) :: UInt8.ofNat (n / 256 % 256) ::
        UInt8.ofNat (n % 256) :: bytes
  | [c₁, c₂, c₃] => do
      let v₁ ← decodeChar c₁
      let v₂ ← decodeChar c₂
      let v₃ ← decodeChar c₃
      let n := v₁ * 4096 + v₂ * 64 + v₃
      return [UInt8.ofNat (n / 1024), UInt8.ofNat (n / 4 % 256)]
  | [c₁, c₂] => do
      let v₁ ← decodeChar c₁
      let v₂ ← decodeChar c₂
      return [UInt8.ofNat ((v₁ * 64 + v₂) / 16)]
  | [_] => none
  | [] => some []

/-- Every value below 64 is read back from its character. -/
theorem decodeChar_encodeChar {n : Nat} (h : n < 64) : decodeChar (encodeChar n) = some n := by
  have hall : ∀ i : Fin 64, decodeChar (encodeChar i) = some i.val := by decide +kernel
  exact hall ⟨n, h⟩

/-- A byte is read back from its value. -/
theorem ofNat_eq {a : UInt8} {n : Nat} (h : n = a.toNat) : UInt8.ofNat n = a := by
  rw [h, UInt8.ofNat_toNat]

/-- **What was encoded is read back.** -/
theorem decode_encode (bytes : List UInt8) : decode (encode bytes) = some bytes := by
  fun_induction encode bytes with
  | case1 a b c rest n ih =>
      have ha := a.toNat_lt
      have hb := b.toNat_lt
      have hc := c.toNat_lt
      have hn : n = a.toNat * 65536 + b.toNat * 256 + c.toNat := rfl
      clear_value n
      rw [decode, decodeChar_encodeChar (by omega), decodeChar_encodeChar (by omega),
        decodeChar_encodeChar (by omega), decodeChar_encodeChar (by omega), ih]
      have hsum : n / 262144 * 262144 + n / 4096 % 64 * 4096 + n / 64 % 64 * 64 + n % 64 = n := by
        omega
      simp only [Option.bind_eq_bind, Option.bind_some, hsum, Option.pure_def,
        Option.some.injEq, List.cons.injEq]
      exact ⟨ofNat_eq (by omega), ofNat_eq (by omega), ofNat_eq (by omega), trivial⟩
  | case2 a b n =>
      have ha := a.toNat_lt
      have hb := b.toNat_lt
      have hn : n = a.toNat * 1024 + b.toNat * 4 := rfl
      clear_value n
      rw [decode, decodeChar_encodeChar (by omega), decodeChar_encodeChar (by omega),
        decodeChar_encodeChar (by omega)]
      have hsum : n / 4096 * 4096 + n / 64 % 64 * 64 + n % 64 = n := by omega
      simp only [Option.bind_eq_bind, Option.bind_some, hsum, Option.pure_def,
        Option.some.injEq, List.cons.injEq]
      exact ⟨ofNat_eq (by omega), ofNat_eq (by omega), trivial⟩
  | case3 a n =>
      have ha := a.toNat_lt
      have hn : n = a.toNat * 16 := rfl
      clear_value n
      rw [decode, decodeChar_encodeChar (by omega), decodeChar_encodeChar (by omega)]
      have hsum : n / 64 * 64 + n % 64 = n := by omega
      simp only [Option.bind_eq_bind, Option.bind_some, hsum, Option.pure_def,
        Option.some.injEq, List.cons.injEq]
      exact ⟨ofNat_eq (by omega), trivial⟩
  | case4 => rfl

/-- Bytes leave characters. -/
theorem encode_ne_nil {bytes : List UInt8} (h : bytes ≠ []) : encode bytes ≠ [] := by
  intro hnil
  have hdecode := decode_encode bytes
  rw [hnil, decode] at hdecode
  exact h (Option.some.inj hdecode).symm

/-! ### The standard alphabet, with padding -/

/-- The character of the standard alphabet in the place of one of the URL-safe alphabet. -/
def toStandard (c : Char) : Char :=
  if c = '-' then '+' else if c = '_' then '/' else c

/-- The other way round. What is not of the standard alphabet is not of the URL-safe one. -/
def ofStandard (c : Char) : Char :=
  if c = '+' then '-' else if c = '/' then '_' else if c = '-' ∨ c = '_' then '=' else c

/-- A character of the standard alphabet. -/
def isStandard (c : Char) : Bool := c.isAlphanum || c == '+' || c == '/'

/-- The characters of a byte string, filled up to whole groups. -/
def encodePadded (bytes : List UInt8) : List Char :=
  (encode bytes).map toStandard ++ List.replicate ((3 - bytes.length % 3) % 3) '='

/-- The byte string of some characters that are filled up to whole groups. -/
def decodePadded (text : List Char) : Option (List UInt8) :=
  let data := text.takeWhile (· ≠ '=')
  if text.dropWhile (· ≠ '=') = List.replicate ((4 - data.length % 4) % 4) '=' then
    decode (data.map ofStandard)
  else none

theorem encodeChar_mem (n : Nat) : encodeChar n ∈ alphabet := by
  rw [encodeChar, List.getD_eq_getElem?_getD]
  cases h : alphabet[n]? with
  | none => decide
  | some c => exact List.mem_of_getElem? h

/-- What is written is of the alphabet. -/
theorem mem_encode (bytes : List UInt8) : ∀ c ∈ encode bytes, c ∈ alphabet := by
  fun_induction encode bytes with
  | case1 a b c rest n ih =>
      simp only [List.forall_mem_cons]
      exact ⟨encodeChar_mem _, encodeChar_mem _, encodeChar_mem _, encodeChar_mem _, ih⟩
  | case2 a b n =>
      simp only [List.forall_mem_cons]
      exact ⟨encodeChar_mem _, encodeChar_mem _, encodeChar_mem _, fun _ h => nomatch h⟩
  | case3 a n =>
      simp only [List.forall_mem_cons]
      exact ⟨encodeChar_mem _, encodeChar_mem _, fun _ h => nomatch h⟩
  | case4 => exact fun _ h => nomatch h

/-- The characters of the standard alphabet, by the ones of the URL-safe one. -/
theorem standard_of_mem :
    ∀ c ∈ alphabet, ofStandard (toStandard c) = c ∧ isStandard (toStandard c) = true := by
  rw [← List.all_iff_forall_prop]
  decide +kernel

/-- No character of the standard alphabet is the padding. -/
theorem ne_pad_of_isStandard {c : Char} (h : isStandard c = true) : c ≠ '=' := by
  rintro rfl
  exact absurd h (by decide)

/-- The characters that are written before the padding. -/
theorem isStandard_of_mem {bytes : List UInt8} {c : Char}
    (h : c ∈ (encode bytes).map toStandard) : isStandard c = true := by
  obtain ⟨d, hd, rfl⟩ := List.mem_map.mp h
  exact (standard_of_mem d (mem_encode bytes d hd)).2

/-- The padding fills the last group of characters. -/
theorem padding_eq (bytes : List UInt8) :
    (4 - (encode bytes).length % 4) % 4 = (3 - bytes.length % 3) % 3 := by
  fun_induction encode bytes with
  | case1 a b c rest n ih =>
      simp only [List.length_cons]
      omega
  | case2 a b n => rfl
  | case3 a n => rfl
  | case4 => rfl

/-- A text in two parts: up to the padding, and the padding. -/
theorem span_padded {data : List Char} (h : ∀ c ∈ data, isStandard c = true) (n : Nat) :
    (data ++ List.replicate n '=').takeWhile (· ≠ '=') = data ∧
      (data ++ List.replicate n '=').dropWhile (· ≠ '=') = List.replicate n '=' := by
  have hne : ∀ c ∈ data, decide (c ≠ '=') = true := by
    intro c hc
    exact decide_eq_true (ne_pad_of_isStandard (h c hc))
  constructor
  · rw [List.takeWhile_append_of_pos hne]
    cases n with
    | zero => simp
    | succ n => simp [List.replicate_succ]
  · rw [List.dropWhile_append_of_pos hne]
    cases n with
    | zero => rfl
    | succ n => simp [List.replicate_succ]

/-- **What was encoded with padding is read back.** -/
theorem decodePadded_encodePadded (bytes : List UInt8) :
    decodePadded (encodePadded bytes) = some bytes := by
  have hstandard : ∀ c ∈ (encode bytes).map toStandard, isStandard c = true :=
    fun c hc => isStandard_of_mem hc
  obtain ⟨hdata, hpad⟩ := span_padded hstandard ((3 - bytes.length % 3) % 3)
  have hback : ((encode bytes).map toStandard).map ofStandard = encode bytes := by
    calc ((encode bytes).map toStandard).map ofStandard
        = (encode bytes).map (ofStandard ∘ toStandard) := List.map_map
      _ = (encode bytes).map id :=
          List.map_congr_left fun c hc => (standard_of_mem c (mem_encode bytes c hc)).1
      _ = encode bytes := List.map_id _
  rw [decodePadded, encodePadded, hdata, hpad, List.length_map, padding_eq, if_pos rfl, hback,
    decode_encode]

end MaskGateway.Lib.Base64
