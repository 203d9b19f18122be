import MaskGateway.Lib.Texts

/-!
# `MaskGateway.Lib.Utf8`: a strict UTF-8 decoder that can stop between any two bytes

Encoding is Lean's own `String.utf8EncodeChar`. A strict decoder that is fed block by block has
to carry, from one block to the next, what it still expects of the character it is in. That is
`Pending`, and `feed` moves it by one byte along the table of well-formed sequences: the range of
a second byte depends on the first one (no overlong forms, no surrogates, nothing above
`U+10FFFF`), every later byte is between `80` and `BF`.

`feed_all_iff` is what the decoder is for: it goes from `ready` to `ready` on the encodings of
texts and on nothing else.
-/

set_option autoImplicit false

namespace MaskGateway.Lib

/-- The UTF-8 encoding of a text. -/
def utf8 (text : List Char) : List UInt8 :=
  text.flatMap String.utf8EncodeChar

/-- What a decoder expects next. -/
inductive Pending where
  /-- the start of a character -/
  | ready
  /-- a byte from `low` to `high`, and `more` bytes after it -/
  | inside (more low high : Nat)
  deriving DecidableEq

/-- What the first byte of a character leaves to come. -/
def lead (b : Nat) : Option Pending :=
  if b < 0x80 then some .ready
  else if b < 0xC2 then none
  else if b < 0xE0 then some (.inside 0 0x80 0xBF)
  else if b = 0xE0 then some (.inside 1 0xA0 0xBF)
  else if b = 0xED then some (.inside 1 0x80 0x9F)
  else if b < 0xF0 then some (.inside 1 0x80 0xBF)
  else if b = 0xF0 then some (.inside 2 0x90 0xBF)
  else if b < 0xF4 then some (.inside 2 0x80 0xBF)
  else if b = 0xF4 then some (.inside 2 0x80 0x8F)
  else none

/-- One byte: the next expectation, or nothing when the byte is not the one expected. -/
def feed : Pending → UInt8 → Option Pending
  | .ready, b => lead b.toNat
  | .inside more low high, b =>
      if low ≤ b.toNat ∧ b.toNat ≤ high then
        match more with
        | 0 => some .ready
        | more + 1 => some (.inside more 0x80 0xBF)
      else none

/-! ### The encoding of one character -/

section Encoding

variable {c : Char}

/-- The code of a character is a scalar value. -/
theorem char_valid (c : Char) :
    c.val.toNat < 0xD800 ∨ 0xDFFF < c.val.toNat ∧ c.val.toNat < 0x110000 := c.valid

/-- Every scalar value is the code of a character. -/
theorem exists_char {v : Nat} (h : v < 0xD800 ∨ 0xDFFF < v ∧ v < 0x110000) :
    ∃ c : Char, c.val.toNat = v :=
  ⟨Char.ofNatAux v h, rfl⟩

/-- One byte per character below `80`. -/
theorem encode_one (h : c.val.toNat < 0x80) :
    String.utf8EncodeChar c = [UInt8.ofNat c.val.toNat] := by
  simp only [String.utf8EncodeChar]
  rw [if_pos (by omega)]

/-- Two bytes up to `7FF`. -/
theorem encode_two (h : 0x80 ≤ c.val.toNat) (h' : c.val.toNat < 0x800) :
    String.utf8EncodeChar c =
      [UInt8.ofNat (c.val.toNat / 64 + 0xC0), UInt8.ofNat (c.val.toNat % 64 + 0x80)] := by
  simp only [String.utf8EncodeChar]
  rw [if_neg (by omega), if_pos (by omega), Nat.mod_eq_of_lt (by omega)]

/-- Three bytes up to `FFFF`. -/
theorem encode_three (h : 0x800 ≤ c.val.toNat) (h' : c.val.toNat < 0x10000) :
    String.utf8EncodeChar c =
      [UInt8.ofNat (c.val.toNat / 4096 + 0xE0), UInt8.ofNat (c.val.toNat / 64 % 64 + 0x80),
        UInt8.ofNat (c.val.toNat % 64 + 0x80)] := by
  simp only [String.utf8EncodeChar]
  rw [if_neg (by omega), if_neg (by omega), if_pos (by omega),
    Nat.mod_eq_of_lt (a := c.val.toNat / 4096) (by omega)]

/-- Four bytes above. -/
theorem encode_four (h : 0x10000 ≤ c.val.toNat) :
    String.utf8EncodeChar c =
      [UInt8.ofNat (c.val.toNat / 262144 + 0xF0), UInt8.ofNat (c.val.toNat / 4096 % 64 + 0x80),
        UInt8.ofNat (c.val.toNat / 64 % 64 + 0x80), UInt8.ofNat (c.val.toNat % 64 + 0x80)] := by
  have hmax := char_valid c
  simp only [String.utf8EncodeChar]
  rw [if_neg (by omega), if_neg (by omega), if_neg (by omega),
    Nat.mod_eq_of_lt (a := c.val.toNat / 262144) (by omega)]

/-- The four lengths of an encoding. -/
theorem encode_cases (c : Char) :
    c.val.toNat < 0x80 ∨ (0x80 ≤ c.val.toNat ∧ c.val.toNat < 0x800) ∨
      (0x800 ≤ c.val.toNat ∧ c.val.toNat < 0x10000) ∨ 0x10000 ≤ c.val.toNat := by
  omega

/-- Reading the number of a byte that was written from a number below 256. -/
theorem toNat_ofNat_byte {n : Nat} (h : n < 256) : (UInt8.ofNat n).toNat = n := by
  rw [UInt8.toNat_ofNat']
  exact Nat.mod_eq_of_lt h

/-- A byte that spells a number is the byte of that number. -/
theorem ofNat_eq_byte {n : Nat} {b : UInt8} (h : n = b.toNat) : UInt8.ofNat n = b := by
  rw [h, UInt8.ofNat_toNat]

/-- A zero byte occurs in the encoding of `U+0000` only. -/
theorem zero_mem_encode_iff : 0 ∈ String.utf8EncodeChar c ↔ c = '\x00' := by
  have hmax := char_valid c
  have hzero : c = '\x00' ↔ c.val.toNat = 0 := by
    rw [Char.ext_iff, ← UInt32.toNat_inj]
    rfl
  have hbyte : ∀ n : Nat, n < 256 → ((0 : UInt8) = UInt8.ofNat n ↔ n = 0) := by
    intro n hn
    rw [← UInt8.toNat_inj, toNat_ofNat_byte hn]
    exact eq_comm
  rw [hzero]
  rcases encode_cases c with h | ⟨h, h'⟩ | ⟨h, h'⟩ | h
  · rw [encode_one h, List.mem_singleton, hbyte _ (by omega)]
  · rw [encode_two h h']
    simp only [List.mem_cons, List.not_mem_nil, or_false]
    rw [hbyte _ (by omega), hbyte _ (by omega)]
    omega
  · rw [encode_three h h']
    simp only [List.mem_cons, List.not_mem_nil, or_false]
    rw [hbyte _ (by omega), hbyte _ (by omega), hbyte _ (by omega)]
    omega
  · rw [encode_four h]
    simp only [List.mem_cons, List.not_mem_nil, or_false]
    rw [hbyte _ (by omega), hbyte _ (by omega), hbyte _ (by omega), hbyte _ (by omega)]
    omega

end Encoding

/-! ### The encoding of a text -/

@[simp] theorem utf8_nil : utf8 [] = [] := rfl

@[simp] theorem utf8_cons (c : Char) (text : List Char) :
    utf8 (c :: text) = String.utf8EncodeChar c ++ utf8 text := List.flatMap_cons

@[simp] theorem utf8_append (s t : List Char) : utf8 (s ++ t) = utf8 s ++ utf8 t :=
  List.flatMap_append

/-- A character takes at least one byte. -/
theorem length_le_length_utf8 (text : List Char) : text.length ≤ (utf8 text).length := by
  induction text with
  | nil => exact Nat.le_refl 0
  | cons c text ih =>
      have hpos := Char.utf8Size_pos c
      rw [utf8_cons, List.length_cons, List.length_append, String.length_utf8EncodeChar]
      omega

/-- A text without `U+0000` is encoded without zero bytes, and conversely. -/
theorem zero_mem_utf8_iff {text : List Char} : 0 ∈ utf8 text ↔ '\x00' ∈ text := by
  rw [utf8, List.mem_flatMap]
  constructor
  · rintro ⟨c, hc, hzero⟩
    rwa [zero_mem_encode_iff.mp hzero] at hc
  · intro h
    exact ⟨_, h, zero_mem_encode_iff.mpr rfl⟩

/-- An ASCII text takes one byte for each character. -/
theorem length_utf8_of_ascii {text : List Char} (h : ∀ c ∈ text, c.val.toNat < 0x80) :
    (utf8 text).length = text.length := by
  induction text with
  | nil => rfl
  | cons c text ih =>
      rw [List.forall_mem_cons] at h
      rw [utf8_cons, encode_one h.1, List.length_append, ih h.2]
      simp only [List.length_cons, List.length_nil]
      omega

/-- Lean's decoder reads a text back from its encoding. -/
theorem utf8Decode?_utf8 (text : List Char) :
    (utf8 text).toByteArray.utf8Decode? = some text.toArray :=
  List.utf8Decode?_utf8Encode

/-- `bytes.decode("utf-8", errors="strict")`. -/
def decodeUtf8 (bytes : List UInt8) : Option (List Char) :=
  bytes.toByteArray.utf8Decode?.map Array.toList

/-- Only the encoding of a text is read as that text. -/
theorem decodeUtf8_eq_some {bytes : List UInt8} {text : List Char} :
    decodeUtf8 bytes = some text ↔ bytes = utf8 text := by
  rw [decodeUtf8]
  constructor
  · intro h
    obtain ⟨chars, hchars, rfl⟩ := Option.map_eq_some_iff.mp h
    obtain ⟨text, htext⟩ := ByteArray.isSome_utf8Decode?_iff.mp (by rw [hchars]; rfl)
    have hbytes : bytes.toByteArray = (utf8 text).toByteArray := htext
    rw [hbytes, utf8Decode?_utf8] at hchars
    obtain rfl := Option.some.inj hchars
    simpa using congrArg (fun b => b.data.toList) hbytes
  · rintro rfl
    rw [utf8Decode?_utf8]
    rfl

/-! ### The decoder accepts encodings -/

/-- A byte in the expected range is taken, and the last one ends the character. -/
theorem feed_last {low high n : Nat} (hn : n < 256) (hlow : low ≤ n) (hhigh : n ≤ high) :
    feed (.inside 0 low high) (UInt8.ofNat n) = some .ready := by
  rw [feed, toNat_ofNat_byte hn]
  exact if_pos ⟨hlow, hhigh⟩

/-- A byte in the expected range is taken, with more to come. -/
theorem feed_more {more low high n : Nat} (hn : n < 256) (hlow : low ≤ n) (hhigh : n ≤ high) :
    feed (.inside (more + 1) low high) (UInt8.ofNat n) = some (.inside more 0x80 0xBF) := by
  rw [feed, toNat_ofNat_byte hn]
  exact if_pos ⟨hlow, hhigh⟩

/-- The second byte that a three-byte sequence may have. -/
theorem lead_three {x y : Nat} (hx : 0xE0 ≤ x) (hx' : x < 0xF0)
    (hy : 0x80 ≤ y ∧ y ≤ 0xBF) (hover : x = 0xE0 → 0xA0 ≤ y) (hsurrogate : x = 0xED → y ≤ 0x9F) :
    ∃ low high, lead x = some (.inside 1 low high) ∧ low ≤ y ∧ y ≤ high := by
  rw [lead, if_neg (by omega), if_neg (by omega), if_neg (by omega)]
  by_cases hE0 : x = 0xE0
  · exact ⟨0xA0, 0xBF, if_pos hE0, hover hE0, hy.2⟩
  · by_cases hED : x = 0xED
    · exact ⟨0x80, 0x9F, by rw [if_neg hE0, if_pos hED], hy.1, hsurrogate hED⟩
    · exact ⟨0x80, 0xBF, by rw [if_neg hE0, if_neg hED, if_pos hx'], hy.1, hy.2⟩

/-- The second byte that a four-byte sequence may have. -/
theorem lead_four {x y : Nat} (hx : 0xF0 ≤ x) (hx' : x < 0xF5)
    (hy : 0x80 ≤ y ∧ y ≤ 0xBF) (hover : x = 0xF0 → 0x90 ≤ y) (hmax : x = 0xF4 → y ≤ 0x8F) :
    ∃ low high, lead x = some (.inside 2 low high) ∧ low ≤ y ∧ y ≤ high := by
  rw [lead, if_neg (by omega), if_neg (by omega), if_neg (by omega), if_neg (by omega),
    if_neg (by omega), if_neg (by omega)]
  by_cases hF0 : x = 0xF0
  · exact ⟨0x90, 0xBF, if_pos hF0, hover hF0, hy.2⟩
  · by_cases hF4 : x = 0xF4
    · exact ⟨0x80, 0x8F, by rw [if_neg hF0, if_neg (by omega), if_pos hF4], hy.1, hmax hF4⟩
    · exact ⟨0x80, 0xBF, by rw [if_neg hF0, if_pos (by omega)], hy.1, hy.2⟩

/-- The decoder goes through the encoding of a character. -/
theorem feed_encode (c : Char) : (String.utf8EncodeChar c).foldlM feed .ready = some .ready := by
  have hvalid := char_valid c
  have hcases := encode_cases c
  -- Every continuation byte is six bits above `80`.
  have htail : ∀ n : Nat, n % 64 + 0x80 < 256 ∧ 0x80 ≤ n % 64 + 0x80 ∧ n % 64 + 0x80 ≤ 0xBF := by
    omega
  rcases hcases with h | ⟨h, h'⟩ | ⟨h, h'⟩ | h
  · rw [encode_one h]
    have hfirst : feed .ready (UInt8.ofNat c.val.toNat) = some .ready := by
      rw [feed, toNat_ofNat_byte (by omega), lead, if_pos h]
    simp only [List.foldlM_cons, List.foldlM_nil, hfirst, Option.bind_eq_bind, Option.bind_some,
      pure]
  · rw [encode_two h h']
    generalize c.val.toNat = v at *
    have hfirst : feed .ready (UInt8.ofNat (v / 64 + 0xC0)) = some (.inside 0 0x80 0xBF) := by
      rw [feed, toNat_ofNat_byte (by omega), lead, if_neg (by omega), if_neg (by omega),
        if_pos (by omega)]
    have hsecond := feed_last (htail v).1 (htail v).2.1 (htail v).2.2
    simp only [List.foldlM_cons, List.foldlM_nil, hfirst, hsecond, Option.bind_eq_bind,
      Option.bind_some, pure]
  · rw [encode_three h h']
    generalize c.val.toNat = v at *
    obtain ⟨low, high, hlead, hlow, hhigh⟩ := lead_three (x := v / 4096 + 0xE0)
      (y := v / 64 % 64 + 0x80) (by omega) (by omega) (by omega) (by omega) (by omega)
    have hfirst : feed .ready (UInt8.ofNat (v / 4096 + 0xE0)) = some (.inside 1 low high) := by
      rw [feed, toNat_ofNat_byte (by omega), hlead]
    have hsecond : feed (.inside 1 low high) _ = _ := feed_more (htail (v / 64)).1 hlow hhigh
    have hthird := feed_last (htail v).1 (htail v).2.1 (htail v).2.2
    simp only [List.foldlM_cons, List.foldlM_nil, hfirst, hsecond, hthird, Option.bind_eq_bind,
      Option.bind_some, pure]
  · rw [encode_four h]
    generalize c.val.toNat = v at *
    obtain ⟨low, high, hlead, hlow, hhigh⟩ := lead_four (x := v / 262144 + 0xF0)
      (y := v / 4096 % 64 + 0x80) (by omega) (by omega) (by omega) (by omega) (by omega)
    have hfirst : feed .ready (UInt8.ofNat (v / 262144 + 0xF0)) = some (.inside 2 low high) := by
      rw [feed, toNat_ofNat_byte (by omega), hlead]
    have hsecond : feed (.inside 2 low high) _ = _ := feed_more (htail (v / 4096)).1 hlow hhigh
    have hthird : feed (.inside 1 0x80 0xBF) _ = _ :=
      feed_more (htail (v / 64)).1 (htail (v / 64)).2.1 (htail (v / 64)).2.2
    have hfourth := feed_last (htail v).1 (htail v).2.1 (htail v).2.2
    simp only [List.foldlM_cons, List.foldlM_nil, hfirst, hsecond, hthird, hfourth,
      Option.bind_eq_bind, Option.bind_some, pure]

/-- The decoder goes through the encoding of a text. -/
theorem feed_utf8 (text : List Char) : (utf8 text).foldlM feed .ready = some .ready := by
  induction text with
  | nil => rfl
  | cons c text ih =>
      rw [utf8_cons, List.foldlM_append, feed_encode]
      exact ih

/-! ### The decoder accepts nothing else -/

/-- What each first byte announces. -/
theorem lead_cases {x : Nat} {p : Pending} (h : lead x = some p) :
    (x < 0x80 ∧ p = .ready) ∨
      (0xC2 ≤ x ∧ x < 0xE0 ∧ p = .inside 0 0x80 0xBF) ∨
      (0xE0 ≤ x ∧ x < 0xF0 ∧ ∃ low high, p = .inside 1 low high ∧ 0x80 ≤ low ∧ high ≤ 0xBF ∧
        (x = 0xE0 → 0xA0 ≤ low) ∧ (x = 0xED → high ≤ 0x9F)) ∨
      (0xF0 ≤ x ∧ x < 0xF5 ∧ ∃ low high, p = .inside 2 low high ∧ 0x80 ≤ low ∧ high ≤ 0xBF ∧
        (x = 0xF0 → 0x90 ≤ low) ∧ (x = 0xF4 → high ≤ 0x8F)) := by
  unfold lead at h
  split at h
  · exact .inl ⟨‹_›, (Option.some.inj h).symm⟩
  split at h
  · cases h
  split at h
  · exact .inr (.inl ⟨by omega, ‹_›, (Option.some.inj h).symm⟩)
  split at h
  · exact .inr (.inr (.inl ⟨by omega, by omega, _, _, (Option.some.inj h).symm, by omega, by omega,
      by omega, by omega⟩))
  split at h
  · exact .inr (.inr (.inl ⟨by omega, by omega, _, _, (Option.some.inj h).symm, by omega, by omega,
      by omega, by omega⟩))
  split at h
  · exact .inr (.inr (.inl ⟨by omega, by omega, _, _, (Option.some.inj h).symm, by omega, by omega,
      by omega, by omega⟩))
  split at h
  · exact .inr (.inr (.inr ⟨by omega, by omega, _, _, (Option.some.inj h).symm, by omega, by omega,
      by omega, by omega⟩))
  split at h
  · exact .inr (.inr (.inr ⟨by omega, by omega, _, _, (Option.some.inj h).symm, by omega, by omega,
      by omega, by omega⟩))
  split at h
  · exact .inr (.inr (.inr ⟨by omega, by omega, _, _, (Option.some.inj h).symm, by omega, by omega,
      by omega, by omega⟩))
  · cases h

/-- A run that starts inside a character takes a byte of the expected range first. -/
theorem feed_inside {more low high : Nat} {bytes : List UInt8}
    (h : bytes.foldlM feed (.inside more low high) = some .ready) :
    ∃ y rest, bytes = y :: rest ∧ low ≤ y.toNat ∧ y.toNat ≤ high ∧
      rest.foldlM feed (match more with
        | 0 => .ready
        | more + 1 => .inside more 0x80 0xBF) = some .ready := by
  cases bytes with
  | nil => cases h
  | cons y rest =>
      rw [List.foldlM_cons] at h
      by_cases hy : low ≤ y.toNat ∧ y.toNat ≤ high
      · refine ⟨y, rest, rfl, hy.1, hy.2, ?_⟩
        cases more with
        | zero => rwa [show feed (.inside 0 low high) y = some .ready from if_pos hy] at h
        | succ more =>
            rwa [show feed (.inside (more + 1) low high) y = some (.inside more 0x80 0xBF) from
              if_pos hy] at h
      · rw [show feed (.inside more low high) y = none from if_neg hy] at h
        cases h

/-- A run from `ready` to `ready` that is not empty starts with the encoding of a character. -/
theorem feed_ready {bytes : List UInt8} (h : bytes.foldlM feed .ready = some .ready)
    (hne : bytes ≠ []) :
    ∃ c rest, bytes = String.utf8EncodeChar c ++ rest ∧
      rest.foldlM feed .ready = some .ready := by
  obtain ⟨x, bytes, rfl⟩ := List.exists_cons_of_ne_nil hne
  rw [List.foldlM_cons, Option.bind_eq_bind, Option.bind_eq_some_iff] at h
  obtain ⟨p, hlead, h⟩ := h
  have hx := x.toNat_lt
  rcases lead_cases hlead with ⟨hlt, rfl⟩ | ⟨hlow, hlt, rfl⟩ | ⟨hlow, hlt, low, high, rfl, hb⟩ |
    ⟨hlow, hlt, low, high, rfl, hb⟩
  · obtain ⟨c, hc⟩ := exists_char (v := x.toNat) (by omega)
    refine ⟨c, bytes, ?_, h⟩
    rw [encode_one (by omega), hc, UInt8.ofNat_toNat]
    rfl
  · obtain ⟨y, rest, rfl, hy, hy', h⟩ := feed_inside h
    obtain ⟨c, hc⟩ := exists_char (v := (x.toNat - 0xC0) * 64 + (y.toNat - 0x80)) (by omega)
    refine ⟨c, rest, ?_, h⟩
    rw [encode_two (by omega) (by omega), ofNat_eq_byte (b := x) (by omega),
      ofNat_eq_byte (b := y) (by omega)]
    rfl
  · obtain ⟨y, rest, rfl, hy, hy', h⟩ := feed_inside h
    obtain ⟨z, rest, rfl, hz, hz', h⟩ := feed_inside h
    obtain ⟨c, hc⟩ := exists_char
      (v := (x.toNat - 0xE0) * 4096 + (y.toNat - 0x80) * 64 + (z.toNat - 0x80)) (by omega)
    refine ⟨c, rest, ?_, h⟩
    rw [encode_three (by omega) (by omega), ofNat_eq_byte (b := x) (by omega),
      ofNat_eq_byte (b := y) (by omega), ofNat_eq_byte (b := z) (by omega)]
    rfl
  · obtain ⟨y, rest, rfl, hy, hy', h⟩ := feed_inside h
    obtain ⟨z, rest, rfl, hz, hz', h⟩ := feed_inside h
    obtain ⟨w, rest, rfl, hw, hw', h⟩ := feed_inside h
    obtain ⟨c, hc⟩ := exists_char (v := (x.toNat - 0xF0) * 262144 + (y.toNat - 0x80) * 4096 +
      (z.toNat - 0x80) * 64 + (w.toNat - 0x80)) (by omega)
    refine ⟨c, rest, ?_, h⟩
    rw [encode_four (by omega), ofNat_eq_byte (b := x) (by omega),
      ofNat_eq_byte (b := y) (by omega), ofNat_eq_byte (b := z) (by omega),
      ofNat_eq_byte (b := w) (by omega)]
    rfl

/-- The decoder goes from `ready` to `ready` on the encodings of texts and on nothing else. -/
theorem feed_all_iff {bytes : List UInt8} :
    bytes.foldlM feed .ready = some .ready ↔ ∃ text, bytes = utf8 text := by
  constructor
  · -- By the length: each character takes a non-empty front off the bytes.
    induction hlen : bytes.length using Nat.strongRecOn generalizing bytes with
    | ind n ih =>
      intro h
      by_cases hne : bytes = []
      · exact ⟨[], hne⟩
      · obtain ⟨c, rest, rfl, hrest⟩ := feed_ready h hne
        have hpos := Char.utf8Size_pos c
        rw [List.length_append, String.length_utf8EncodeChar] at hlen
        obtain ⟨text, rfl⟩ := ih rest.length (by omega) rfl hrest
        exact ⟨c :: text, (utf8_cons c text).symm⟩
  · rintro ⟨text, rfl⟩
    exact feed_utf8 text

/-- Bytes below `80` are an encoding. -/
theorem exists_utf8_of_ascii {bytes : List UInt8} (h : ∀ b ∈ bytes, b.toNat < 0x80) :
    ∃ text, bytes = utf8 text := by
  rw [← feed_all_iff]
  induction bytes with
  | nil => rfl
  | cons b bytes ih =>
      rw [List.forall_mem_cons] at h
      have hb : feed .ready b = some .ready := if_pos h.1
      rw [List.foldlM_cons, hb]
      exact ih h.2

/-- A single byte is an encoding when it is below `80`. -/
theorem exists_utf8_singleton_iff {b : UInt8} : (∃ text, [b] = utf8 text) ↔ b.toNat < 0x80 := by
  constructor
  · rw [← feed_all_iff]
    intro h
    by_contra hb
    rw [List.foldlM_cons, Option.bind_eq_bind, Option.bind_eq_some_iff] at h
    obtain ⟨p, hlead, hp⟩ := h
    cases hp
    rcases lead_cases hlead with ⟨hlt, -⟩ | ⟨-, -, hp⟩ | ⟨-, -, _, _, hp, -⟩ | ⟨-, -, _, _, hp, -⟩
    · exact hb hlt
    · cases hp
    · cases hp
    · cases hp
  · intro h
    exact exists_utf8_of_ascii (by simpa using h)

/-- Feeding block after block is feeding the blocks joined. -/
theorem feed_flatten (parts : List (List UInt8)) (p : Pending) :
    parts.flatten.foldlM feed p = parts.foldlM (fun p part => part.foldlM feed p) p := by
  induction parts generalizing p with
  | nil => rfl
  | cons part parts ih =>
      rw [List.flatten_cons, List.foldlM_append, List.foldlM_cons]
      exact congrArg _ (funext ih)

end MaskGateway.Lib
