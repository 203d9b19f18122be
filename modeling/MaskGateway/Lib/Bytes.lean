import Mathlib

/-!
# `MaskGateway.Lib.Bytes`: fixed-width numbers, records and blocks

A number of `w` bytes in network order, unsigned or in two's complement; the record that is a row
of such fields; and a sequence read in blocks of a fixed size. Each reader is stated against its writer as an equivalence on byte strings
of the right length, so that a proof about a parser rewrites "the field reads as `n`" into "the
bytes are those of `n`" and back.
-/

set_option autoImplicit false

namespace MaskGateway.Lib

/-! ### Unsigned numbers -/

/-- The `width` low bytes of a number, most significant first. -/
def toBytes : (width : Nat) → (n : Nat) → List UInt8
  | 0, _ => []
  | width + 1, n => toBytes width (n / 256) ++ [UInt8.ofNat n]

/-- The number that a byte string spells, most significant byte first. -/
def ofBytes (bytes : List UInt8) : Nat :=
  bytes.foldl (fun acc b => acc * 256 + b.toNat) 0

@[simp] theorem length_toBytes (width n : Nat) : (toBytes width n).length = width := by
  induction width generalizing n with
  | zero => rfl
  | succ width ih => simp [toBytes, ih]

/-- One more byte is one more digit. -/
theorem ofBytes_concat (bytes : List UInt8) (b : UInt8) :
    ofBytes (bytes ++ [b]) = ofBytes bytes * 256 + b.toNat := by
  simp [ofBytes]

/-- Reading back a number that fits its width. -/
theorem ofBytes_toBytes {width n : Nat} (h : n < 256 ^ width) : ofBytes (toBytes width n) = n := by
  induction width generalizing n with
  | zero =>
      have hzero : n = 0 := by simpa using h
      rw [hzero]
      rfl
  | succ width ih =>
      have hquot : n / 256 < 256 ^ width := by
        rw [Nat.pow_succ] at h
        omega
      rw [toBytes, ofBytes_concat, ih hquot, UInt8.toNat_ofNat']
      omega

/-- Writing back what was read. -/
theorem toBytes_ofBytes (bytes : List UInt8) : toBytes bytes.length (ofBytes bytes) = bytes := by
  induction bytes using List.reverseRecOn with
  | nil => rfl
  | append_singleton bytes b ih =>
      have hb : b.toNat < 256 := b.toNat_lt
      have hquot : (ofBytes bytes * 256 + b.toNat) / 256 = ofBytes bytes := by omega
      have hbyte : UInt8.ofNat (ofBytes bytes * 256 + b.toNat) = b := by
        apply UInt8.toNat_inj.mp
        rw [UInt8.toNat_ofNat']
        omega
      rw [List.length_append, List.length_singleton, ofBytes_concat, toBytes, hquot, ih, hbyte]

/-- A byte string spells a number below the power of its length. -/
theorem ofBytes_lt (bytes : List UInt8) : ofBytes bytes < 256 ^ bytes.length := by
  induction bytes using List.reverseRecOn with
  | nil => decide
  | append_singleton bytes b ih =>
      have hb : b.toNat < 256 := b.toNat_lt
      rw [ofBytes_concat, List.length_append, List.length_singleton, Nat.pow_succ]
      omega

/-- The bytes of `n` are the only ones of their length that read as `n`. -/
theorem eq_toBytes_iff {width n : Nat} {bytes : List UInt8} (h : n < 256 ^ width) :
    bytes = toBytes width n ↔ bytes.length = width ∧ ofBytes bytes = n := by
  constructor
  · rintro rfl
    exact ⟨length_toBytes width n, ofBytes_toBytes h⟩
  · rintro ⟨rfl, rfl⟩
    exact (toBytes_ofBytes bytes).symm

/-- A field of a known width is the bytes of the number that it spells. -/
theorem eq_toBytes_ofBytes {width : Nat} {bytes : List UInt8} (h : bytes.length = width) :
    bytes = toBytes width (ofBytes bytes) := by
  rw [← h, toBytes_ofBytes]

/-! ### Two's complement -/

/-- The `width` bytes of a signed number. -/
def signedToBytes (width : Nat) (z : Int) : List UInt8 :=
  toBytes width (z % (256 ^ width : Nat)).toNat

/-- The signed number that a byte string spells. -/
def signedOfBytes (bytes : List UInt8) : Int :=
  if 2 * ofBytes bytes < 256 ^ bytes.length then ofBytes bytes
  else (ofBytes bytes : Int) - (256 ^ bytes.length : Nat)

@[simp] theorem length_signedToBytes (width : Nat) (z : Int) :
    (signedToBytes width z).length = width := length_toBytes ..

/-- The bytes of a signed number in range are the only ones that read as it. -/
theorem eq_signedToBytes_iff {width : Nat} {z : Int} {bytes : List UInt8}
    (hlow : -((256 ^ width : Nat) : Int) ≤ 2 * z) (hhigh : 2 * z < (256 ^ width : Nat)) :
    bytes = signedToBytes width z ↔ bytes.length = width ∧ signedOfBytes bytes = z := by
  have hpos : 0 < 256 ^ width := Nat.pow_pos (by decide)
  have hrange : (z % (256 ^ width : Nat)).toNat < 256 ^ width := by
    have := Int.emod_lt_of_pos z (Int.natCast_pos.mpr hpos)
    have := Int.emod_nonneg z (Int.natCast_ne_zero.mpr (Nat.ne_of_gt hpos))
    omega
  rw [signedToBytes, eq_toBytes_iff hrange]
  refine and_congr_right fun hlen => ?_
  have hlt := ofBytes_lt bytes
  rw [signedOfBytes, hlen]
  rw [hlen] at hlt
  generalize 256 ^ width = size at *
  by_cases hneg : z < 0
  · have hmod : z % (size : Int) = z + size := by
      rw [← Int.add_emod_right]
      exact Int.emod_eq_of_lt (by omega) (by omega)
    rw [hmod]
    split <;> omega
  · have hmod : z % (size : Int) = z := Int.emod_eq_of_lt (by omega) (by omega)
    rw [hmod]
    split <;> omega

/-- Reading back a signed number in range. -/
theorem signedOfBytes_signedToBytes {width : Nat} {z : Int}
    (hlow : -((256 ^ width : Nat) : Int) ≤ 2 * z) (hhigh : 2 * z < (256 ^ width : Nat)) :
    signedOfBytes (signedToBytes width z) = z :=
  ((eq_signedToBytes_iff hlow hhigh).mp rfl).2

/-! ### Records -/

/-- The fields of a record, given their widths: `struct.unpack` before the numbers are read. -/
def cut {α : Type} : (widths : List Nat) → (record : List α) → List (List α)
  | [], _ => []
  | width :: widths, record => record.take width :: cut widths (record.drop width)

/-- The fields of a record of the right length are the record. -/
theorem flatten_cut {α : Type} {widths : List Nat} {record : List α}
    (h : record.length = widths.sum) : (cut widths record).flatten = record := by
  induction widths generalizing record with
  | nil =>
      have hnil : record = [] := List.eq_nil_of_length_eq_zero (by simpa using h)
      rw [hnil]
      rfl
  | cons width widths ih =>
      have hrest : (record.drop width).length = widths.sum := by
        rw [List.sum_cons] at h
        rw [List.length_drop]
        omega
      rw [cut, List.flatten_cons, ih hrest, List.take_append_drop]

/-- The fields of a record of the right length have the widths asked for. -/
theorem forall₂_cut {α : Type} {widths : List Nat} {record : List α}
    (h : record.length = widths.sum) :
    List.Forall₂ (fun field width => field.length = width) (cut widths record) widths := by
  induction widths generalizing record with
  | nil => exact List.Forall₂.nil
  | cons width widths ih =>
      rw [List.sum_cons] at h
      refine List.Forall₂.cons ?_ (ih ?_)
      · rw [List.length_take_of_le (by omega)]
      · rw [List.length_drop]
        omega

/-- Cutting a record that was put together from fields of these widths. -/
theorem cut_flatten {α : Type} {widths : List Nat} {fields : List (List α)}
    (h : List.Forall₂ (fun field width => field.length = width) fields widths) :
    cut widths fields.flatten = fields := by
  induction h with
  | nil => rfl
  | @cons field width fields widths hhead _ ih =>
      rw [List.flatten_cons, cut, ← hhead, List.take_left, List.drop_left, ih]

/-- Cutting a record off the front of a longer one. -/
theorem cut_append {α : Type} {widths : List Nat} {fields : List (List α)}
    (h : List.Forall₂ (fun field width => field.length = width) fields widths) (rest : List α) :
    cut widths (fields.flatten ++ rest) = fields := by
  induction h with
  | nil => rfl
  | @cons field width fields widths hhead _ ih =>
      rw [List.flatten_cons, cut, List.append_assoc, ← hhead, List.take_left, List.drop_left, ih]

/-- The fields lie within the first bytes. -/
theorem cut_take {α : Type} (widths : List Nat) (record : List α) :
    cut widths (record.take widths.sum) = cut widths record := by
  induction widths generalizing record with
  | nil => rfl
  | cons width widths ih =>
      rw [List.sum_cons, cut, cut, List.take_take, Nat.min_eq_left (Nat.le_add_right ..),
        List.drop_take, Nat.add_sub_cancel_left, ih]

/-- The fields at the front of a record that is long enough. -/
theorem cut_eq_iff {α : Type} {widths : List Nat} {record : List α} {fields : List (List α)}
    (h : widths.sum ≤ record.length) :
    cut widths record = fields ↔
      List.Forall₂ (fun field width => field.length = width) fields widths ∧
        record.take widths.sum = fields.flatten := by
  have hlen : (record.take widths.sum).length = widths.sum := List.length_take_of_le h
  rw [← cut_take]
  constructor
  · rintro rfl
    exact ⟨forall₂_cut hlen, (flatten_cut hlen).symm⟩
  · rintro ⟨hwidths, hflat⟩
    rw [hflat]
    exact cut_flatten hwidths

/-- A sequence in two parts, by its front and what is left after it. -/
theorem eq_append_iff {α : Type} {l front rest : List α} :
    l = front ++ rest ↔ l.take front.length = front ∧ l.drop front.length = rest := by
  constructor
  · rintro rfl
    exact ⟨List.take_left, List.drop_left⟩
  · rintro ⟨hfront, rfl⟩
    calc l = l.take front.length ++ l.drop front.length := (List.take_append_drop ..).symm
      _ = front ++ l.drop front.length := by rw [hfront]

/-! ### Blocks -/

/-- The slices `l[start : start + size]` for `start` in `range(0, len(l), size)`. -/
def blocks {α : Type} (size : Nat) (l : List α) : List (List α) :=
  (List.range ((l.length + size - 1) / size)).map fun i => (l.drop (i * size)).take size

/-- The blocks of a sequence are the sequence. -/
theorem flatten_blocks {α : Type} {size : Nat} (h : 0 < size) (l : List α) :
    (blocks size l).flatten = l := by
  -- The first `k` blocks are the first `k * size` entries.
  have hfirst : ∀ k, ((List.range k).map fun i => (l.drop (i * size)).take size).flatten =
      l.take (k * size) := by
    intro k
    induction k with
    | zero => simp
    | succ k ih =>
        rw [List.range_succ, List.map_append, List.flatten_append, ih, Nat.succ_mul,
          List.take_add]
        simp
  rw [blocks, hfirst]
  have hlast := Nat.lt_div_mul_add h (a := l.length + size - 1)
  exact List.take_of_length_le (by omega)

end MaskGateway.Lib
