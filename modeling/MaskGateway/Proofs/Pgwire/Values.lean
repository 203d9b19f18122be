import MaskGateway.Pgwire.ResultEncoder

/-!
# `MaskGateway.Proofs.Pgwire.Values`: which byte strings are values, on both sides

The validator looks at bytes and the encoder at Python objects, each with its own fast paths and
its own arithmetic. This module says what either of them accepts in one vocabulary: a text without
`U+0000` and without surrogates, an integer within the range of its type, a boolean. A value is
written as `content` whatever its column is; `CellFits` says which column takes it.
-/

set_option autoImplicit false

namespace MaskGateway.Proofs.Pgwire

open Lib MaskGateway.Db MaskGateway.Pgwire

/-! ### What a value is on the wire -/

/-- The bytes of a text. A surrogate, which no accepted text has, gives none. -/
def textBytes (value : List CodePoint) : List UInt8 :=
  value.flatMap fun
    | .scalar c => String.utf8EncodeChar c
    | .surrogate _ => []

/-- A text that can be sent: characters only, and none of them `U+0000`. -/
def PlainText (value : List CodePoint) : Prop :=
  ∃ chars : List Char, value = chars.map .scalar ∧ '\x00' ∉ chars

/-- The bytes of a value. NULL has none, not even an empty string. -/
def content : Cell → Option (List UInt8)
  | .null => none
  | .text t => some (textBytes t)
  | .int z => some (signedDecimal z)
  | .bool b => some [if b then 0x74 else 0x66]
  | .other => some []

/-- The column of this type can hold the value within the limits. -/
def CellFits (limits : ResultLimits) (oid : Nat) : Cell → Prop
  | .null => True
  | .text t => oid ∈ textTypes ∧ PlainText t ∧ (oid = nameOid → (textBytes t).length ≤ 63) ∧
      (textBytes t).length ≤ limits.maxCellBytes
  | .int z => (∃ bits, integerBits oid = some bits ∧ -(2 ^ (bits - 1)) ≤ z ∧ z < 2 ^ (bits - 1)) ∧
      (signedDecimal z).length ≤ limits.maxCellBytes
  | .bool _ => oid = Encoder.boolOid
  | .other => False

/-- Only NULL has no content. -/
theorem content_eq_none {cell : Cell} : content cell = none ↔ cell = .null := by
  cases cell <;> simp [content]

/-- The bytes of a text of characters. -/
@[simp] theorem textBytes_map_scalar (chars : List Char) :
    textBytes (chars.map .scalar) = utf8 chars := by
  rw [textBytes, List.flatMap_map]
  rfl

theorem textBytes_append (s t : List CodePoint) :
    textBytes (s ++ t) = textBytes s ++ textBytes t := List.flatMap_append

theorem textBytes_flatten (parts : List (List CodePoint)) :
    textBytes parts.flatten = parts.flatMap textBytes := by
  induction parts with
  | nil => rfl
  | cons part parts ih => rw [List.flatten_cons, textBytes_append, ih, List.flatMap_cons]

/-! ### Texts in the validator -/

/-- The block decoder, when it is the last one, accepts what brings it back to `ready`. -/
theorem decodeBlock_last {decoder p : Pending} {view : List UInt8} :
    decodeBlock decoder view true = some p ↔ p = .ready ∧ view.foldlM feed decoder = some .ready := by
  rw [decodeBlock]
  cases view.foldlM feed decoder with
  | none => simp
  | some q =>
      by_cases hq : q = .ready
      · subst hq
        simp only [Bool.true_and, ne_eq, decide_not, decide_true, Bool.not_true,
          Bool.false_eq_true, if_false, Option.some_inj, and_true]
        exact eq_comm
      · simp [hq]

/-- Before the last block it goes on with whatever is pending. -/
theorem decodeBlock_inner (decoder : Pending) (view : List UInt8) :
    decodeBlock decoder view false = view.foldlM feed decoder := by
  rw [decodeBlock]
  cases view.foldlM feed decoder with
  | none => rfl
  | some q => rfl

/-- The loop over the blocks accepts what the decoder accepts at once. -/
theorem textBlocks_eq_ok {decoder : Pending} {parts : List (List UInt8)} (hne : parts ≠ []) :
    textBlocks decoder parts = .ok () ↔
      0 ∉ parts.flatten ∧ parts.flatten.foldlM feed decoder = some .ready := by
  induction parts generalizing decoder with
  | nil => exact absurd rfl hne
  | cons part parts ih =>
      rw [textBlocks, bind_eq_ok, List.flatten_cons, List.mem_append, not_or,
        List.foldlM_append]
      simp only [refuseIf_eq_ok, exists_const]
      rw [and_assoc]
      refine and_congr_right fun _ => ?_
      by_cases hrest : parts = []
      · subst hrest
        simp only [List.isEmpty_nil, List.flatten_nil, List.not_mem_nil, not_false_eq_true,
          true_and, List.foldlM_nil, bind_pure]
        cases hdecode : decodeBlock decoder part true with
        | none =>
            have hnot := mt (fun h => decodeBlock_last.mpr ⟨rfl, h⟩)
              (by rw [hdecode]; exact fun h => by cases h)
            simpa using hnot
        | some p =>
            obtain ⟨-, hfeed⟩ := decodeBlock_last.mp hdecode
            exact iff_of_true rfl hfeed
      · have hempty : parts.isEmpty = false := by simpa using hrest
        rw [hempty, decodeBlock_inner]
        cases part.foldlM feed decoder with
        | none => simp
        | some p => simpa using ih hrest

/-- `text` accepts the encodings of the texts without `U+0000`. -/
theorem text_eq_ok {piece : List UInt8} :
    text piece = .ok () ↔ ∃ chars : List Char, piece = utf8 chars ∧ '\x00' ∉ chars := by
  have hsplit : (∃ chars : List Char, piece = utf8 chars ∧ '\x00' ∉ chars) ↔
      0 ∉ piece ∧ ∃ chars, piece = utf8 chars := by
    constructor
    · rintro ⟨chars, rfl, hzero⟩
      exact ⟨mt zero_mem_utf8_iff.mp hzero, chars, rfl⟩
    · rintro ⟨hzero, chars, rfl⟩
      exact ⟨chars, rfl, mt zero_mem_utf8_iff.mpr hzero⟩
  rw [hsplit]
  match piece with
  | [] => exact iff_of_true rfl ⟨List.not_mem_nil, [], rfl⟩
  | [b] =>
      rw [text, refuseIf_eq_ok, exists_utf8_singleton_iff, List.mem_singleton, not_not]
      refine and_congr_left' ?_
      rw [← UInt8.toNat_inj]
      show 0 < b.toNat ↔ ¬ 0 = b.toNat
      omega
  | b :: c :: piece =>
      show (if (b :: c :: piece).length ≤ textBlock then _ else _) = _ ↔ _
      generalize b :: c :: piece = piece
      split
      · -- up to one block: ASCII without decoding, anything else at once
        rw [refuseIf_eq_ok, not_or, ← feed_all_iff]
        refine and_congr_right fun _ => ?_
        have hshort : shortUtf8 piece = true ↔ piece.foldlM feed .ready = some .ready := by
          rw [shortUtf8, Option.isSome_iff_exists]
          simp only [decodeBlock_last, exists_eq_left]
        rw [not_and_or, Bool.not_eq_false, Bool.not_eq_false, hshort]
        refine or_iff_right_of_imp fun hascii => ?_
        rw [feed_all_iff]
        refine exists_utf8_of_ascii fun b hb => ?_
        simpa using List.all_eq_true.mp hascii b hb
      · rename_i hlong
        have hflat : (blocks textBlock piece).flatten = piece := flatten_blocks (by decide) piece
        have hne : blocks textBlock piece ≠ [] := by
          intro hnil
          rw [hnil] at hflat
          rw [← hflat] at hlong
          exact hlong (by decide)
        rw [textBlocks_eq_ok hne, hflat, feed_all_iff]

/-! ### Integers in the validator -/

/-- A digit is added when it is one and the result is within the bound. -/
theorem integerStep_eq_ok {bound : Int} {acc : Nat} {b : UInt8} {r : Int} :
    integerStep bound acc b = .ok r ↔
      IsDigit b ∧ r = (acc * 10 + (b.toNat - 0x30) : Nat) ∧ r ≤ bound := by
  rw [integerStep, bind_eq_ok]
  simp only [refuseIf_eq_ok, exists_const, pure_eq_ok, IsDigit]
  omega

/-- The loop accepts the digit strings whose value is within the bound. -/
theorem integerLoop_eq_ok {bound : Int} (hbound : 0 ≤ bound) {digits : List UInt8} {r : Int} :
    digits.foldlM (integerStep bound) 0 = .ok r ↔
      (∀ b ∈ digits, IsDigit b) ∧ r = decimalValue digits ∧ r ≤ bound := by
  induction digits using List.reverseRecOn generalizing r with
  | nil =>
      simp only [List.foldlM_nil, pure_eq_ok, List.not_mem_nil, false_imp_iff, implies_true,
        true_and]
      show (0 : Int) = r ↔ r = 0 ∧ r ≤ bound
      omega
  | append_singleton digits b ih =>
      rw [List.foldlM_append, bind_eq_ok, decimalValue_concat]
      simp only [ih, List.foldlM_cons, List.foldlM_nil, bind_pure]
      constructor
      · rintro ⟨v, ⟨hdigits, rfl, -⟩, hread⟩
        rw [integerStep_eq_ok] at hread
        refine ⟨?_, hread.2.1, hread.2.2⟩
        intro c hc
        rcases List.mem_append.mp hc with hc | hc
        · exact hdigits c hc
        · rw [List.mem_singleton.mp hc]
          exact hread.1
      · rintro ⟨hdigits, hr, hle⟩
        refine ⟨decimalValue digits, ⟨fun c hc => hdigits c (by simp [hc]), rfl, by omega⟩, ?_⟩
        rw [integerStep_eq_ok]
        exact ⟨hdigits b (by simp), hr, hle⟩

/-- The text of an integer that is not negative does not start with a minus sign. -/
theorem head?_decimal_ne_minus (n : Nat) : (decimal n).head? ≠ some 0x2D := by
  intro hhead
  have hmem : (0x2D : UInt8) ∈ decimal n := List.mem_of_mem_head? hhead
  exact absurd ((canonical_decimal n).digit _ hmem).1 (by decide)

/-- Reading the digits after the sign: a canonical string with a value within the bound. -/
theorem digits_eq_ok {digits : List UInt8} {bound : Int} (hbound : 0 ≤ bound) {forbidZero : Prop}
    [Decidable forbidZero] :
    (¬ (digits = [] ∨ (digits.head? = some 0x30 ∧ (forbidZero ∨ digits.length ≠ 1))) ∧
        ∃ r, digits.foldlM (integerStep bound) 0 = .ok r) ↔
      ∃ n : Nat, digits = decimal n ∧ n ≤ bound ∧ (forbidZero → n ≠ 0) := by
  simp only [integerLoop_eq_ok hbound]
  constructor
  · rintro ⟨hshape, r, hdigits, rfl, hle⟩
    rw [not_or, not_and_or, not_or, not_not] at hshape
    have hcanonical : Canonical digits := by
      refine ⟨hshape.1, hdigits, fun hhead => ?_⟩
      rcases hshape.2 with hnot | ⟨-, hone⟩
      · exact absurd hhead hnot
      · exact hone
    have hdecimal := (decimal_decimalValue hcanonical).symm
    refine ⟨decimalValue digits, hdecimal, hle, fun hforbid hzero => ?_⟩
    rw [hzero] at hdecimal
    rcases hshape.2 with hnot | ⟨hallow, -⟩
    · exact hnot (by rw [hdecimal]; rfl)
    · exact hallow hforbid
  · rintro ⟨n, rfl, hle, hforbid⟩
    have hcanonical := canonical_decimal n
    refine ⟨?_, n, hcanonical.digit, by rw [decimalValue_decimal], hle⟩
    rintro (hnil | ⟨hhead, hzero | hlen⟩)
    · exact hcanonical.ne_nil hnil
    · exact head?_decimal (Nat.pos_of_ne_zero (hforbid hzero)) hhead
    · exact hlen (hcanonical.no_leading_zero hhead)

/-- The length that `integer` allows is enough for the values that it allows. -/
theorem length_decimal_of_le {n : Nat} (h : n ≤ 2 ^ 63) : (decimal n).length ≤ 19 :=
  length_decimal_le (by decide) (Nat.lt_of_le_of_lt h (by decide))

/-- `integer` accepts the texts of the integers in the range of the type. -/
theorem integer_eq_ok {piece : List UInt8} {bits : Nat} (hbits : bits ≤ 64) :
    integer piece bits = .ok () ↔
      ∃ z : Int, piece = signedDecimal z ∧ -(2 ^ (bits - 1)) ≤ z ∧ z < 2 ^ (bits - 1) := by
  have hpos : 1 ≤ 2 ^ (bits - 1) := Nat.one_le_two_pow
  have hmax : 2 ^ (bits - 1) ≤ 2 ^ 63 := Nat.pow_le_pow_right (by decide) (by omega)
  have hcast : (2 : Int) ^ (bits - 1) = (2 ^ (bits - 1) : Nat) := (Int.natCast_pow ..).symm
  simp only [integer, bind_eq_ok, refuseIf_eq_ok, exists_const, hcast]
  generalize 2 ^ (bits - 1) = half at hpos hmax
  by_cases hminus : piece.head? = some 0x2D
  · -- a minus sign, then the digits of the absolute value
    obtain ⟨digits, rfl⟩ : ∃ digits, piece = 0x2D :: digits := by
      cases piece with
      | nil => cases hminus
      | cons b digits => exact ⟨digits, by rw [Option.some.inj hminus]⟩
    have hread := @digits_eq_ok digits half (by omega) True _
    simp only [true_or, and_true, true_implies] at hread
    simp only [List.head?_cons, beq_self_eq_true, if_true, List.drop_one, List.tail_cons,
      Int.sub_zero, true_or, and_true, pure_eq_ok, hread, not_not, List.length_cons]
    constructor
    · rintro ⟨-, n, rfl, hle, hn⟩
      refine ⟨-(n : Int), ?_, by omega, by omega⟩
      rw [signedDecimal, if_pos (by omega), Int.natAbs_neg, Int.natAbs_natCast]
    · rintro ⟨z, heq, hlow, hhigh⟩
      rw [signedDecimal] at heq
      split at heq
      · obtain ⟨-, rfl⟩ := List.cons.inj heq
        have hlen := length_decimal_of_le (n := z.natAbs) (by omega)
        exact ⟨by omega, z.natAbs, rfl, by omega, by omega⟩
      · exact absurd (by rw [← heq]; rfl) (head?_decimal_ne_minus z.natAbs)
  · have hsign : (piece.head? == some 0x2D) = false := by simpa using hminus
    have hread := @digits_eq_ok piece (half - 1) (by omega) False _
    simp only [false_or, false_implies, and_true] at hread
    simp only [hsign, Bool.false_eq_true, if_false, false_or, pure_eq_ok, and_true, hread, not_not]
    constructor
    · rintro ⟨-, n, rfl, hle⟩
      refine ⟨n, ?_, by omega, by omega⟩
      rw [signedDecimal, if_neg (by omega), Int.natAbs_natCast]
    · rintro ⟨z, rfl, hlow, hhigh⟩
      rw [signedDecimal] at hminus ⊢
      split at hminus
      · exact absurd rfl hminus
      · rename_i hneg
        have hlen := length_decimal_of_le (n := z.natAbs) (by omega)
        have hpos := List.length_pos_iff.mpr (decimal_ne_nil z.natAbs)
        rw [if_neg hneg]
        exact ⟨⟨hpos, by omega⟩, z.natAbs, rfl, by omega⟩

/-! ### Values in the validator -/

/-- The known types are the texts, the integers and the boolean. -/
theorem oid_cases {oid : Nat} (h : (typeSize oid).isSome) :
    (oid ∈ textTypes ∧ integerBits oid = none ∧ oid ≠ Encoder.boolOid) ∨
      (oid ∉ textTypes ∧ oid ≠ Encoder.boolOid ∧ ∃ bits, integerBits oid = some bits ∧ bits ≤ 64) ∨
      (oid ∉ textTypes ∧ integerBits oid = none ∧ oid = Encoder.boolOid) := by
  have hmem : oid ∈ [16, 21, 23, 20, 19, 25, 1042, 1043] := by
    by_contra hnot
    simp only [List.mem_cons, List.not_mem_nil, or_false, not_or] at hnot
    have hnone : typeSize oid = none := by
      rw [typeSize, List.lookup_eq_none_iff]
      simpa using hnot
    rw [hnone] at h
    cases h
  simp only [List.mem_cons, List.not_mem_nil, or_false] at hmem
  rcases hmem with rfl | rfl | rfl | rfl | rfl | rfl | rfl | rfl
  · exact .inr (.inr (by decide))
  · exact .inr (.inl ⟨by decide, by decide, 16, rfl, by decide⟩)
  · exact .inr (.inl ⟨by decide, by decide, 32, rfl, by decide⟩)
  · exact .inr (.inl ⟨by decide, by decide, 64, rfl, by decide⟩)
  · exact .inl (by decide)
  · exact .inl (by decide)
  · exact .inl (by decide)
  · exact .inl (by decide)

/-- `value` and the limit on its length accept the contents of the values that fit. -/
theorem value_eq_ok {limits : ResultLimits} {piece : List UInt8} {oid : Nat}
    (hoid : (typeSize oid).isSome) :
    (value piece oid = .ok () ∧ piece.length ≤ limits.maxCellBytes) ↔
      ∃ cell, CellFits limits oid cell ∧ content cell = some piece := by
  rcases oid_cases hoid with ⟨htext, hbits, hbool⟩ | ⟨htext, hbool, bits, hbits, hle⟩ |
    ⟨htext, hbits, hbool⟩
  · rw [value, if_pos htext, bind_eq_ok]
    simp only [refuseIf_eq_ok, exists_const, text_eq_ok, not_and, gt_iff_lt, Nat.not_lt]
    constructor
    · rintro ⟨⟨hname, chars, rfl, hzero⟩, hlen⟩
      refine ⟨.text (chars.map .scalar), ⟨htext, ⟨chars, rfl, hzero⟩, ?_, ?_⟩, ?_⟩
      · rw [textBytes_map_scalar]
        exact hname
      · rw [textBytes_map_scalar]
        exact hlen
      · rw [content, textBytes_map_scalar]
    · rintro ⟨cell, hfits, hcontent⟩
      cases cell with
      | null => cases hcontent
      | other => exact hfits.elim
      | text t =>
          obtain ⟨-, ⟨chars, rfl, hzero⟩, hname, hlen⟩ := hfits
          rw [content, textBytes_map_scalar, Option.some_inj] at hcontent
          rw [textBytes_map_scalar, hcontent] at hname hlen
          exact ⟨⟨hname, chars, hcontent.symm, hzero⟩, hlen⟩
      | int _ =>
          obtain ⟨⟨bits, hsome, -⟩, -⟩ := hfits
          exact absurd (hbits.symm.trans hsome) (by simp)
      | bool _ => exact absurd hfits hbool
  · rw [value, if_neg htext, hbits]
    simp only [integer_eq_ok hle]
    constructor
    · rintro ⟨⟨z, rfl, hrange⟩, hlen⟩
      exact ⟨.int z, ⟨⟨bits, hbits, hrange⟩, hlen⟩, rfl⟩
    · rintro ⟨cell, hfits, hcontent⟩
      cases cell with
      | null => cases hcontent
      | other => exact hfits.elim
      | text _ => exact absurd hfits.1 htext
      | int z =>
          obtain ⟨⟨bits', hsome, hrange⟩, hlen⟩ := hfits
          obtain rfl : bits' = bits := Option.some.inj (hsome.symm.trans hbits)
          rw [content, Option.some_inj] at hcontent
          rw [hcontent] at hlen
          exact ⟨⟨z, hcontent.symm, hrange⟩, hlen⟩
      | bool _ => exact absurd hfits hbool
  · rw [value, if_neg htext, hbits]
    simp only [refuseIf_eq_ok]
    rw [not_or, not_not, not_not]
    constructor
    · rintro ⟨⟨hlen, hhead⟩, -⟩
      obtain ⟨b, rfl⟩ := List.length_eq_one_iff.mp hlen
      rcases hhead with hb | hb
      · exact ⟨.bool true, hbool, by rw [Option.some.inj hb]; rfl⟩
      · exact ⟨.bool false, hbool, by rw [Option.some.inj hb]; rfl⟩
    · rintro ⟨cell, hfits, hcontent⟩
      cases cell with
      | null => cases hcontent
      | other => exact hfits.elim
      | text _ => exact absurd hfits.1 htext
      | int _ =>
          obtain ⟨⟨bits, hsome, -⟩, -⟩ := hfits
          exact absurd (hbits.symm.trans hsome) (by simp)
      | bool b =>
          obtain rfl := Option.some.inj hcontent
          refine ⟨⟨rfl, ?_⟩, limits.maxCellBytes_range.1⟩
          cases b
          · exact .inr rfl
          · exact .inl rfl

/-! ### Texts in the encoder -/

/-- An ASCII text is a text of characters, and its bytes are those of UTF-8. -/
theorem isAscii_eq_true {value : List CodePoint} (h : Encoder.isAscii value = true) :
    ∃ chars : List Char, value = chars.map .scalar ∧ Encoder.asciiBytes value = utf8 chars ∧
      (utf8 chars).length = value.length := by
  induction value with
  | nil => exact ⟨[], rfl, rfl, rfl⟩
  | cons point value ih =>
      rw [Encoder.isAscii, List.all_cons, Bool.and_eq_true] at h
      obtain ⟨chars, rfl, hbytes, hlen⟩ := ih h.2
      match point, h.1 with
      | .scalar c, hc =>
          have hsmall : c.val.toNat < 0x80 := by simpa using hc
          refine ⟨c :: chars, rfl, ?_, ?_⟩
          · rw [utf8_cons, encode_one hsmall, ← hbytes]
            rfl
          · rw [utf8_cons, encode_one hsmall, List.length_append, hlen]
            simp only [List.length_cons, List.length_nil, List.length_map]
            omega

/-- Encoding code point by code point. -/
theorem mapM_encodePoint {value : List CodePoint} {parts : List (List UInt8)} :
    value.mapM Encoder.encodePoint = some parts ↔
      ∃ chars : List Char, value = chars.map .scalar ∧ parts = chars.map String.utf8EncodeChar := by
  induction value generalizing parts with
  | nil =>
      rw [List.mapM_nil]
      constructor
      · intro h
        exact ⟨[], rfl, (Option.some.inj h).symm⟩
      · rintro ⟨chars, hnil, rfl⟩
        rw [List.map_eq_nil_iff.mp hnil.symm]
        rfl
  | cons point value ih =>
      rw [List.mapM_cons]
      simp only [Option.bind_eq_bind, Option.bind_eq_some_iff, ih]
      constructor
      · rintro ⟨first, hfirst, _, ⟨chars, rfl, rfl⟩, hparts⟩
        match point, hfirst with
        | .scalar c, hfirst =>
            refine ⟨c :: chars, rfl, ?_⟩
            rw [← Option.some.inj hparts, ← Option.some.inj hfirst]
            rfl
      · rintro ⟨chars, hvalue, rfl⟩
        cases chars with
        | nil => cases hvalue
        | cons c chars =>
            obtain ⟨rfl, rfl⟩ := List.cons.inj hvalue
            exact ⟨_, rfl, _, ⟨chars, rfl, rfl⟩, rfl⟩

/-- `_utf8` encodes the texts without surrogates. -/
theorem utf8Bytes_eq_ok {value : List CodePoint} {bytes : List UInt8} :
    Encoder.utf8Bytes value = .ok bytes ↔
      ∃ chars : List Char, value = chars.map .scalar ∧ bytes = utf8 chars := by
  have hinj : Function.Injective (List.map CodePoint.scalar) :=
    List.map_injective_iff.mpr fun _ _ h => CodePoint.scalar.inj h
  rw [Encoder.utf8Bytes]
  split
  · rename_i hascii
    obtain ⟨chars, rfl, hbytes, -⟩ := isAscii_eq_true hascii
    rw [hbytes, Except.ok.injEq]
    constructor
    · intro h
      exact ⟨chars, rfl, h.symm⟩
    · rintro ⟨chars', hchars, rfl⟩
      rw [hinj hchars]
  · constructor
    · intro h
      split at h
      · cases h
      · rename_i parts hparts
        obtain ⟨chars, rfl, rfl⟩ := mapM_encodePoint.mp hparts
        refine ⟨chars, rfl, ?_⟩
        rw [← Except.ok.inj h, utf8, List.flatMap]
    · rintro ⟨chars, hvalue, rfl⟩
      rw [mapM_encodePoint.mpr ⟨chars, hvalue, rfl⟩, utf8, List.flatMap]

/-- A text is plain when its blocks are. -/
theorem plainText_append {s t : List CodePoint} :
    PlainText (s ++ t) ↔ PlainText s ∧ PlainText t := by
  constructor
  · rintro ⟨chars, hvalue, hzero⟩
    obtain ⟨cs, ct, rfl, rfl, rfl⟩ := List.append_eq_map_iff.mp hvalue
    rw [List.mem_append, not_or] at hzero
    exact ⟨⟨cs, rfl, hzero.1⟩, ct, rfl, hzero.2⟩
  · rintro ⟨⟨cs, rfl, hs⟩, ct, rfl, ht⟩
    refine ⟨cs ++ ct, (List.map_append ..).symm, ?_⟩
    rw [List.mem_append, not_or]
    exact ⟨hs, ht⟩

/-- The blocks of a plain text are plain. -/
theorem PlainText.of_mem_flatten {parts : List (List CodePoint)} (h : PlainText parts.flatten) :
    ∀ part ∈ parts, PlainText part := by
  induction parts with
  | nil => exact fun _ hmem => (nomatch hmem)
  | cons part parts ih =>
      rw [List.flatten_cons, plainText_append] at h
      rw [List.forall_mem_cons]
      exact ⟨h.1, ih h.2⟩

/-- Plain texts are the ones without `U+0000` that `_utf8` encodes. -/
theorem plainText_iff {value : List CodePoint} {bytes : List UInt8} :
    (.scalar '\x00' ∉ value ∧ Encoder.utf8Bytes value = .ok bytes) ↔
      PlainText value ∧ bytes = textBytes value := by
  have hzero : ∀ chars : List Char, CodePoint.scalar '\x00' ∈ chars.map .scalar ↔ '\x00' ∈ chars := by
    intro chars
    simp
  rw [utf8Bytes_eq_ok]
  constructor
  · rintro ⟨hnot, chars, rfl, rfl⟩
    exact ⟨⟨chars, rfl, mt (hzero chars).mpr hnot⟩, (textBytes_map_scalar chars).symm⟩
  · rintro ⟨⟨chars, rfl, hnot⟩, rfl⟩
    exact ⟨mt (hzero chars).mp hnot, chars, rfl, textBytes_map_scalar chars⟩

/-- One block of `text_size`. -/
theorem blockSize_eq_ok {maximum size n : Nat} {excess : Encoder.EncodeFailure}
    {block : List CodePoint} :
    Encoder.blockSize maximum excess size block = .ok n ↔
      PlainText block ∧ n = size + (textBytes block).length ∧ n ≤ maximum := by
  simp only [Encoder.blockSize, bind_eq_ok, refuseIf_eq_ok, exists_const, pure_eq_ok]
  constructor
  · rintro ⟨hzero, bytes, hbytes, hle, rfl⟩
    obtain ⟨hplain, rfl⟩ := plainText_iff.mp ⟨hzero, hbytes⟩
    exact ⟨hplain, rfl, by omega⟩
  · rintro ⟨hplain, rfl, hle⟩
    obtain ⟨hzero, hbytes⟩ := plainText_iff.mpr ⟨hplain, rfl⟩
    exact ⟨hzero, _, hbytes, by omega, rfl⟩

/-- All blocks of `text_size`: the running sum is within the maximum when the last one is. -/
theorem blocksSize_eq_ok {maximum size n : Nat} {excess : Encoder.EncodeFailure}
    {parts : List (List CodePoint)} (hsize : size ≤ maximum) :
    parts.foldlM (Encoder.blockSize maximum excess) size = .ok n ↔
      PlainText parts.flatten ∧ n = size + (textBytes parts.flatten).length ∧ n ≤ maximum := by
  induction parts generalizing size with
  | nil =>
      rw [List.foldlM_nil, pure_eq_ok]
      constructor
      · rintro rfl
        exact ⟨⟨[], rfl, List.not_mem_nil⟩, rfl, hsize⟩
      · rintro ⟨-, rfl, -⟩
        rfl
  | cons part parts ih =>
      rw [List.foldlM_cons, bind_eq_ok, List.flatten_cons, plainText_append, textBytes_append,
        List.length_append]
      constructor
      · rintro ⟨m, hpart, hrest⟩
        obtain ⟨hplain, rfl, hle⟩ := blockSize_eq_ok.mp hpart
        obtain ⟨hplain', rfl, hle'⟩ := (ih hle).mp hrest
        exact ⟨⟨hplain, hplain'⟩, by omega, hle'⟩
      · rintro ⟨⟨hplain, hplain'⟩, rfl, hle⟩
        have hfirst : size + (textBytes part).length ≤ maximum := by omega
        exact ⟨_, blockSize_eq_ok.mpr ⟨hplain, rfl, hfirst⟩,
          (ih hfirst).mpr ⟨hplain', by omega, hle⟩⟩

/-- `text_size` measures the plain texts within the maximum. -/
theorem textSize_eq_ok {value : List CodePoint} {maximum n : Nat} {excess : Encoder.EncodeFailure} :
    Encoder.textSize value maximum excess = .ok n ↔
      PlainText value ∧ n = (textBytes value).length ∧ n ≤ maximum := by
  rw [Encoder.textSize, bind_eq_ok]
  simp only [refuseIf_eq_ok, exists_const, gt_iff_lt, Nat.not_lt]
  have hlength : PlainText value → value.length ≤ (textBytes value).length := by
    rintro ⟨chars, rfl, -⟩
    rw [textBytes_map_scalar, List.length_map]
    exact length_le_length_utf8 chars
  split
  · rename_i hshort
    obtain ⟨chars, rfl, hbytes, hlen⟩ := isAscii_eq_true hshort.2
    have hplain := @plainText_iff (chars.map .scalar) (utf8 chars)
    rw [Encoder.utf8Bytes, if_pos hshort.2, hbytes, textBytes_map_scalar] at hplain
    simp only [and_true] at hplain
    rw [bind_eq_ok]
    simp only [refuseIf_eq_ok, exists_const, pure_eq_ok, hplain, textBytes_map_scalar, hlen]
    constructor
    · rintro ⟨hle, htext, rfl⟩
      exact ⟨htext, rfl, hle⟩
    · rintro ⟨htext, rfl, hle⟩
      exact ⟨hle, htext, rfl⟩
  · have hflat : (blocks Encoder.blockChars value).flatten = value := flatten_blocks (by decide) value
    rw [blocksSize_eq_ok (Nat.zero_le _), hflat, Nat.zero_add]
    constructor
    · exact And.right
    · rintro ⟨hplain, rfl, hle⟩
      exact ⟨Nat.le_trans (hlength hplain) hle, hplain, rfl, hle⟩

/-! ### Values in the encoder -/

/-- The size that `cell_size` reports. -/
def contentSize (cell : Cell) : Int :=
  match content cell with
  | none => -1
  | some bytes => bytes.length

/-- `cell_size` measures the values that fit. -/
theorem cellSize_eq_ok {limits : ResultLimits} {cell : Cell} {oid : Nat} {n : Int}
    (hoid : (typeSize oid).isSome) :
    Encoder.cellSize limits cell oid = .ok n ↔ CellFits limits oid cell ∧ n = contentSize cell := by
  have hcases := oid_cases hoid
  cases cell with
  | null =>
      simp only [Encoder.cellSize, if_true, Except.ok.injEq]
      exact ⟨fun h => ⟨trivial, h.symm⟩, fun h => h.2.symm⟩
  | text t =>
      simp only [Encoder.cellSize, reduceCtorEq, if_false]
      by_cases htext : oid ∈ textTypes
      · rw [if_pos (show oid ∈ Encoder.textOids from htext)]
        by_cases hname : oid = nameOid
        · rw [if_pos (show oid = Encoder.nameOid from hname)]
          simp only [bind_eq_ok, textSize_eq_ok, refuseIf_eq_ok, exists_const, pure_eq_ok,
            gt_iff_lt, Nat.not_lt]
          constructor
          · rintro ⟨size, ⟨hplain, rfl, hmax⟩, hle, rfl⟩
            exact ⟨⟨htext, hplain, fun _ => hmax, hle⟩, rfl⟩
          · rintro ⟨⟨-, hplain, hmax, hle⟩, rfl⟩
            exact ⟨_, ⟨hplain, rfl, hmax hname⟩, hle, rfl⟩
        · rw [if_neg (show ¬ oid = Encoder.nameOid from hname)]
          simp only [bind_eq_ok, textSize_eq_ok, pure_eq_ok]
          constructor
          · rintro ⟨size, ⟨hplain, rfl, hle⟩, rfl⟩
            exact ⟨⟨htext, hplain, fun h => absurd h hname, hle⟩, rfl⟩
          · rintro ⟨⟨-, hplain, -, hle⟩, rfl⟩
            exact ⟨_, ⟨hplain, rfl, hle⟩, rfl⟩
      · rw [if_neg (show oid ∉ Encoder.textOids from htext)]
        refine iff_of_false ?_ fun h => htext h.1.1
        cases Encoder.integerBits oid with
        | none => exact fun h => by cases h
        | some bits => exact fun h => by cases h
  | int z =>
      simp only [Encoder.cellSize, reduceCtorEq, if_false]
      cases hbits : integerBits oid with
      | some bits =>
          have htext : oid ∉ Encoder.textOids := by
            rcases hcases with ⟨-, hnone, -⟩ | ⟨htext, -⟩ | ⟨htext, -⟩
            · rw [hnone] at hbits
              cases hbits
            · exact htext
            · exact htext
          rw [if_neg htext, show Encoder.integerBits oid = some bits from hbits]
          simp only [bind_eq_ok, refuseIf_eq_ok, exists_const, pure_eq_ok, not_not, gt_iff_lt,
            Nat.not_lt]
          constructor
          · rintro ⟨hrange, hle, rfl⟩
            exact ⟨⟨⟨bits, hbits, hrange⟩, hle⟩, rfl⟩
          · rintro ⟨⟨⟨bits', hsome, hrange⟩, hle⟩, rfl⟩
            obtain rfl : bits' = bits := Option.some.inj (hsome.symm.trans hbits)
            exact ⟨hrange, hle, rfl⟩
      | none =>
          refine iff_of_false ?_ ?_
          · rw [show Encoder.integerBits oid = none from hbits]
            split
            · exact fun h => by cases h
            · exact fun h => by cases h
          · rintro ⟨⟨⟨bits, hsome, -⟩, -⟩, -⟩
            rw [hbits] at hsome
            cases hsome
  | bool b =>
      simp only [Encoder.cellSize, reduceCtorEq, if_false]
      rcases hcases with ⟨htext, -, hbool⟩ | ⟨htext, hbool, bits, hbits, -⟩ | ⟨htext, hbits, hbool⟩
      · rw [if_pos (show oid ∈ Encoder.textOids from htext)]
        exact iff_of_false (fun h => by cases h) fun h => hbool h.1
      · rw [if_neg (show oid ∉ Encoder.textOids from htext),
          show Encoder.integerBits oid = some bits from hbits]
        exact iff_of_false (fun h => by cases h) fun h => hbool h.1
      · rw [if_neg (show oid ∉ Encoder.textOids from htext),
          show Encoder.integerBits oid = none from hbits]
        simp only [bind_eq_ok, refuseIf_eq_ok, exists_const, pure_eq_ok, not_not, gt_iff_lt,
          Nat.not_lt]
        constructor
        · rintro ⟨-, -, rfl⟩
          exact ⟨hbool, rfl⟩
        · rintro ⟨-, rfl⟩
          exact ⟨hbool, limits.maxCellBytes_range.1, rfl⟩
  | other =>
      refine iff_of_false ?_ fun h => h.1
      simp only [Encoder.cellSize, reduceCtorEq, if_false]
      split
      · exact fun h => by cases h
      · cases Encoder.integerBits oid with
        | none => exact fun h => by cases h
        | some bits => exact fun h => by cases h

end MaskGateway.Proofs.Pgwire
