import MaskGateway.Proofs.Pgwire.Validation

/-!
# `MaskGateway.Proofs.Pgwire.Encoding`: the encoder writes the frame of its table

The writer fills a buffer of fixed size and goes back to patch the length of a message when the
message ends. `Writes f size bytes` hides all of that: on a buffer of this size, `f` appends
`bytes` to what is written, provided there is room. Writers compose by appending (`Writes.bind`,
`Writes.foldlM`), and a message is written by writing its payload (`Writes.message`), so the frame
follows part by part.
-/

set_option autoImplicit false

namespace MaskGateway.Proofs.Pgwire

open Lib MaskGateway.Db MaskGateway.Pgwire MaskGateway.Pgwire.Encoder

variable {limits : ResultLimits} {size : Nat}

/-! ### The writer -/

/-- The buffer starts with what is written, and the writer stands behind it. -/
structure Holds (w : Writer) (size : Nat) (written : List UInt8) : Prop where
  length_eq : w.buffer.length = size
  offset_eq : w.offset = written.length
  starts : written <+: w.buffer

/-- The step appends these bytes to what is written, when there is room for them. -/
def Writes (f : Writer → Except EncodeFailure Writer) (size : Nat) (bytes : List UInt8) : Prop :=
  ∀ ⦃w : Writer⦄ ⦃written : List UInt8⦄, Holds w size written →
    written.length + bytes.length ≤ size →
    ∃ w', f w = .ok w' ∧ Holds w' size (written ++ bytes)

/-- Replacing bytes in the middle of a buffer. -/
theorem splice_append {front old new back : List UInt8} (h : old.length = new.length) :
    splice (front ++ (old ++ back)) front.length new = front ++ (new ++ back) := by
  rw [splice, List.take_left, ← List.drop_drop, List.drop_left, ← h, List.drop_left,
    List.append_assoc]

/-- Overwriting the bytes behind what is written. -/
theorem Holds.extend {w : Writer} {written bytes : List UInt8} (h : Holds w size written)
    (hroom : written.length + bytes.length ≤ size) :
    Holds { buffer := splice w.buffer w.offset bytes, offset := w.offset + bytes.length } size
      (written ++ bytes) := by
  obtain ⟨back, hback⟩ := h.starts
  have hlength := h.length_eq
  rw [← hback, List.length_append] at hlength
  have hsplice : splice w.buffer w.offset bytes =
      written ++ (bytes ++ back.drop bytes.length) := by
    rw [h.offset_eq, ← hback, ← List.take_append_drop bytes.length back,
      splice_append (List.length_take_of_le (by omega)), List.take_append_drop]
  refine ⟨?_, ?_, ?_⟩
  · simp only [hsplice, List.length_append, List.length_drop]
    omega
  · simp only [h.offset_eq, List.length_append]
  · simp only [hsplice, ← List.append_assoc]
    exact List.prefix_append _ _

/-- Patching a number that is already written. -/
theorem Holds.packInto {w : Writer} {front old new back : List UInt8} {fmt : Format} {value : Int}
    (h : Holds w size (front ++ (old ++ back))) (hpack : fmt.pack value = .ok new)
    (hlen : old.length = new.length) :
    ∃ w', w.packInto fmt front.length value = .ok w' ∧ Holds w' size (front ++ (new ++ back)) := by
  obtain ⟨tail, htail⟩ := h.starts
  have hsplice : splice w.buffer front.length new = front ++ (new ++ back) ++ tail := by
    rw [← htail, List.append_assoc, List.append_assoc, splice_append hlen]
    simp
  have hlength := h.length_eq
  have hoffset := h.offset_eq
  rw [← htail] at hlength
  simp only [List.length_append] at hlength hoffset
  refine ⟨{ w with buffer := splice w.buffer front.length new }, ?_, ?_, ?_, ?_⟩
  · rw [Writer.packInto, hpack]
    rfl
  · simp only [hsplice, List.length_append]
    omega
  · simp only [List.length_append]
    omega
  · simp only [hsplice]
    exact List.prefix_append _ _

/-- `put` appends its bytes. -/
theorem writes_put (bytes : List UInt8) : Writes (fun w => w.put bytes) size bytes := by
  intro w written h hroom
  refine ⟨_, ?_, h.extend hroom⟩
  show w.put bytes = _
  rw [Writer.put, refuseIf, if_neg (by rw [h.offset_eq, h.length_eq]; omega)]
  rfl

/-- `number` appends the packed number. -/
theorem writes_number {fmt : Format} {value : Int} {bytes : List UInt8}
    (hpack : fmt.pack value = .ok bytes) (hlen : bytes.length = fmt.size) :
    Writes (fun w => w.number fmt value) size bytes := by
  intro w written h hroom
  refine ⟨_, ?_, h.extend hroom⟩
  show w.number fmt value = _
  rw [Writer.number, refuseIf, if_neg (by rw [h.offset_eq, h.length_eq, ← hlen]; omega), hpack,
    ← hlen]
  rfl

/-- One step after the other. -/
theorem Writes.bind {f g : Writer → Except EncodeFailure Writer} {a b : List UInt8}
    (hf : Writes f size a) (hg : Writes g size b) :
    Writes (fun w => f w >>= g) size (a ++ b) := by
  intro w written h hroom
  rw [List.length_append] at hroom
  obtain ⟨w₁, hw₁, h₁⟩ := hf h (by omega)
  obtain ⟨w₂, hw₂, h₂⟩ := hg h₁ (by rw [List.length_append]; omega)
  refine ⟨w₂, ?_, ?_⟩
  · simp only [hw₁]
    exact hw₂
  · rwa [List.append_assoc] at h₂

/-- A loop of steps. -/
theorem Writes.foldlM {α : Type} {f : Writer → α → Except EncodeFailure Writer}
    {bytes : α → List UInt8} {l : List α}
    (h : ∀ x ∈ l, Writes (fun w => f w x) size (bytes x)) :
    Writes (fun w => l.foldlM f w) size (l.flatMap bytes) := by
  induction l with
  | nil =>
      intro w written hw _
      exact ⟨w, rfl, by simpa using hw⟩
  | cons x l ih =>
      rw [List.forall_mem_cons] at h
      exact h.1.bind (ih h.2)

/-! ### Numbers -/

theorem pack_u16 {n : Nat} (h : n < 2 ^ 16) : Format.u16.pack n = .ok (toBytes 2 n) := by
  rw [Format.pack, refuseIf, if_neg (by omega)]
  rfl

theorem pack_u32 {n : Nat} (h : n < 2 ^ 32) : Format.u32.pack n = .ok (toBytes 4 n) := by
  rw [Format.pack, refuseIf, if_neg (by omega)]
  rfl

theorem pack_i32 {z : Int} (hlow : -(2 ^ 31) ≤ z) (hhigh : z < 2 ^ 31) :
    Format.i32.pack z = .ok (signedToBytes 4 z) := by
  rw [Format.pack, refuseIf, if_neg (by omega)]
  rfl

/-- A message is written by writing its payload between `start` and `finish`. -/
theorem Writes.message {tag : UInt8} {f : Writer → Except EncodeFailure Writer}
    {payload : List UInt8} (hsize : size < 2 ^ 32) (hf : Writes f size payload) :
    Writes (fun w => do
      let (w, lengthAt) ← w.start tag
      let w ← f w
      w.finish lengthAt) size (framed tag payload) := by
  intro w written h hroom
  rw [length_framed] at hroom
  have hzero : Format.u32.pack 0 = .ok (toBytes 4 0) := pack_u32 (by decide)
  obtain ⟨w₁, hw₁, h₁⟩ := writes_put [tag] h (by rw [List.length_singleton]; omega)
  obtain ⟨w₂, hw₂, h₂⟩ := writes_number hzero (length_toBytes ..) h₁
    (by simp only [List.length_append, List.length_singleton, length_toBytes]; omega)
  obtain ⟨w₃, hw₃, h₃⟩ := hf h₂
    (by simp only [List.length_append, List.length_singleton, length_toBytes]; omega)
  have hfront := h₁.offset_eq
  have hback := h₃.offset_eq
  simp only [List.length_append, List.length_singleton, length_toBytes] at hfront hback
  have hpack : Format.u32.pack (w₃.offset - w₁.offset) = .ok (toBytes 4 (4 + payload.length)) := by
    rw [show (w₃.offset : Int) - w₁.offset = (4 + payload.length : Nat) by omega]
    exact pack_u32 (by omega)
  rw [List.append_assoc] at h₃
  obtain ⟨w₄, hw₄, h₄⟩ := h₃.packInto hpack (by rw [length_toBytes, length_toBytes])
  refine ⟨w₄, ?_, ?_⟩
  · have hstart : w.start tag = .ok (w₂, w₁.offset) := by
      rw [Writer.start, show w.put [tag] = .ok w₁ from hw₁]
      show (w₁.number .u32 0 >>= fun w => pure (w, w₁.offset)) = _
      rw [show w₁.number .u32 0 = .ok w₂ from hw₂]
      rfl
    show (w.start tag >>= _) = _
    rw [hstart]
    show (f w₂ >>= fun w => w.finish w₁.offset) = _
    rw [hw₃]
    rw [← h₁.offset_eq] at hw₄
    exact hw₄
  · rw [framed]
    simpa using h₄

/-! ### Texts and cells -/

/-- `write_text` writes a plain text. -/
theorem writes_text {value : List CodePoint} (hplain : PlainText value) :
    Writes (fun w => writeText w value) size (textBytes value) := by
  by_cases hshort : value.length ≤ blockChars ∧ isAscii value
  · obtain ⟨chars, hvalue, hbytes, -⟩ := isAscii_eq_true hshort.2
    simp only [writeText, if_pos hshort]
    rw [show textBytes value = asciiBytes value by rw [hbytes, hvalue, textBytes_map_scalar]]
    exact writes_put _
  · simp only [writeText, if_neg hshort]
    have hflat : (blocks blockChars value).flatten = value := flatten_blocks (by decide) value
    have hbytes : textBytes value = (blocks blockChars value).flatMap textBytes := by
      rw [← textBytes_flatten, hflat]
    rw [hbytes]
    refine Writes.foldlM fun block hblock => ?_
    have hplainBlock : PlainText block :=
      PlainText.of_mem_flatten (by rwa [hflat]) block hblock
    obtain ⟨-, hutf8⟩ := plainText_iff.mpr ⟨hplainBlock, rfl⟩
    simp only [hutf8]
    exact writes_put _

/-- The value of a cell is written without its length. -/
theorem writes_content {oid : Nat} {cell : Cell} {bytes : List UInt8}
    (hoid : (typeSize oid).isSome) (hfits : CellFits limits oid cell)
    (hcontent : content cell = some bytes) :
    Writes (fun w => writeContent w cell oid) size bytes := by
  match cell, hfits, hcontent with
  | .text t, hfits, hcontent =>
      obtain rfl := Option.some.inj hcontent
      simp only [writeContent, if_pos (show oid ∈ textOids from hfits.1)]
      exact writes_text hfits.2.1
  | .int z, ⟨⟨bits, hbits, _⟩, _⟩, hcontent =>
      obtain rfl := Option.some.inj hcontent
      have htext : oid ∉ textOids := by
        rcases oid_cases hoid with ⟨-, hnone, -⟩ | ⟨htext, -⟩ | ⟨htext, -⟩
        · rw [hnone] at hbits
          cases hbits
        · exact htext
        · exact htext
      simp only [writeContent, if_neg htext,
        show Encoder.integerBits oid = some bits from hbits, Option.isSome_some, if_true]
      exact writes_put _
  | .bool b, hfits, hcontent =>
      obtain rfl := Option.some.inj hcontent
      obtain rfl : oid = boolOid := hfits
      cases b
      · exact writes_put _
      · exact writes_put _

/-- A value with its length patched in front of it. -/
theorem writes_counted {oid : Nat} {cell : Cell} {bytes : List UInt8}
    (hoid : (typeSize oid).isSome) (hfits : CellFits limits oid cell)
    (hcontent : content cell = some bytes) :
    Writes (fun w => writeCell.writeCounted w cell oid) size
      (signedToBytes 4 bytes.length ++ bytes) := by
  intro w written h hroom
  have hmax := limits.maxCellBytes_range.2
  have hlen := content_length_le hfits hcontent
  have hzero : Format.i32.pack 0 = .ok (signedToBytes 4 0) := pack_i32 (by decide) (by decide)
  rw [List.length_append, length_signedToBytes] at hroom
  obtain ⟨w₁, hw₁, h₁⟩ := writes_number hzero (length_signedToBytes ..) h
    (by rw [length_signedToBytes]; omega)
  obtain ⟨w₂, hw₂, h₂⟩ := writes_content hoid hfits hcontent h₁
    (by rw [List.length_append, length_signedToBytes]; omega)
  have hfront := h.offset_eq
  have hback := h₂.offset_eq
  simp only [List.length_append, length_signedToBytes] at hback
  have hpack : Format.i32.pack (w₂.offset - w.offset - Format.i32.size) =
      .ok (signedToBytes 4 bytes.length) := by
    rw [show (w₂.offset : Int) - w.offset - Format.i32.size = (bytes.length : Nat) by
      simp only [Format.size]; omega]
    exact pack_i32 (by omega) (by omega)
  rw [List.append_assoc] at h₂
  obtain ⟨w₃, hw₃, h₃⟩ := h₂.packInto hpack (by rw [length_signedToBytes, length_signedToBytes])
  refine ⟨w₃, ?_, h₃⟩
  show (w.number .i32 0 >>= _) = _
  rw [show w.number .i32 0 = .ok w₁ from hw₁]
  show (writeContent w₁ cell oid >>= fun w' => w'.packInto .i32 w.offset
    (w'.offset - w.offset - Format.i32.size)) = _
  rw [show writeContent w₁ cell oid = .ok w₂ from hw₂]
  rw [← hfront] at hw₃
  exact hw₃

/-- A short text is written with its length at once. -/
theorem writes_shortText {data : List UInt8} (hlen : data.length < 2 ^ 31) :
    Writes (fun w => writeShortText w data) size (signedToBytes 4 data.length ++ data) := by
  intro w written h hroom
  have hpack : Format.i32.pack data.length = .ok (signedToBytes 4 data.length) :=
    pack_i32 (by omega) (by omega)
  rw [List.length_append, length_signedToBytes] at hroom
  have h₁ : Holds _ size (written ++ signedToBytes 4 data.length) :=
    h.extend (by rw [length_signedToBytes]; omega)
  have h₂ : Holds _ size (written ++ signedToBytes 4 data.length ++ data) :=
    h₁.extend (by rw [List.length_append, length_signedToBytes]; omega)
  rw [List.append_assoc] at h₂
  refine ⟨_, ?_, h₂⟩
  show writeShortText w data = _
  rw [writeShortText, refuseIf, if_neg (by
    rw [h.offset_eq, h.length_eq]; simp only [Format.size]; omega), hpack, length_signedToBytes]
  rfl

/-- `write_cell` writes the cell with its length. -/
theorem writes_cell {oid : Nat} {cell : Cell} (hoid : (typeSize oid).isSome)
    (hfits : CellFits limits oid cell) :
    Writes (fun w => writeCell w cell oid) size (cellWire cell) := by
  have hmax := limits.maxCellBytes_range.2
  cases cell with
  | null => exact writes_number (pack_i32 (by decide) (by decide)) (length_signedToBytes ..)
  | text t =>
      by_cases hshort : oid ∈ textOids ∧ t.length ≤ blockChars ∧ isAscii t
      · obtain ⟨chars, ht, hbytes, -⟩ := isAscii_eq_true hshort.2.2
        have heq : textBytes t = asciiBytes t := by rw [hbytes, ht, textBytes_map_scalar]
        have hlen := hfits.2.2.2
        simp only [writeCell, if_pos hshort, cellWire, content, heq]
        exact writes_shortText (by rw [← heq]; omega)
      · simp only [writeCell, if_neg hshort]
        exact writes_counted hoid hfits rfl
  | int z => exact writes_counted hoid hfits rfl
  | bool b => exact writes_counted hoid hfits rfl
  | other => exact hfits.elim

/-! ### The frame -/

/-- The plan of a column that fits. -/
def planOf (column : Name × Nat) : ColumnPlan where
  name := column.1.map .scalar
  oid := column.2
  nameBytes := (utf8 column.1).length

/-- One column of the RowDescription. -/
theorem writes_column {column : Name × Nat} (hfits : ColumnFits limits column) :
    Writes (fun w => writeColumn w (planOf column)) size (columnWire column) := by
  obtain ⟨oidSize, hsize⟩ := Option.isSome_iff_exists.mp hfits.known
  have hname : Writes (fun w => writeText w (column.1.map .scalar)) size _ :=
    writes_text ⟨column.1, rfl, hfits.plain⟩
  rw [textBytes_map_scalar] at hname
  simp only [writeColumn, show wireTypeSize (planOf column).oid = some oidSize from hsize]
  rw [columnWire, hsize]
  exact hname.bind ((writes_put [0]).bind (writes_put _))

/-- The cells of one DataRow. -/
theorem writes_cells {columns : List (Name × Nat)} {row : List Cell}
    (hcolumns : ∀ column ∈ columns, ColumnFits limits column)
    (hrow : List.Forall₂ (CellFits limits) (columns.map Prod.snd) row) :
    Writes (fun w => writeCells w row (columns.map planOf)) size (row.flatMap cellWire) := by
  induction columns generalizing row with
  | nil =>
      cases hrow
      intro w written h _
      exact ⟨w, rfl, by simpa using h⟩
  | cons column columns ih =>
      rw [List.forall_mem_cons] at hcolumns
      obtain _ | @⟨_, cell, _, row, hcell, hrow⟩ := hrow
      exact (writes_cell hcolumns.1.known hcell).bind (ih hcolumns.2 hrow)

/-- One DataRow. -/
theorem writes_row {columns : List (Name × Nat)} {row : List Cell} (hsize : size < 2 ^ 32)
    (hcolumns : ∀ column ∈ columns, ColumnFits limits column)
    (hwidth : columns.length < 2 ^ 16)
    (hrow : List.Forall₂ (CellFits limits) (columns.map Prod.snd) row) :
    Writes (fun w => writeRow (columns.map planOf) w row) size (rowWire columns.length row) := by
  have hcount : Writes (fun w => w.number .u16 (columns.map planOf).length) size
      (toBytes 2 columns.length) := by
    rw [List.length_map]
    exact writes_number (pack_u16 hwidth) (length_toBytes ..)
  have hpayload := hcount.bind (writes_cells hcolumns hrow)
  have hmessage : Writes _ size (framed 0x44 _) := hpayload.message hsize
  simp only [bind_assoc] at hmessage
  exact hmessage

/-! ### The sizes -/

/-- The size that `cell_size` reports is the length that is written. -/
theorem toNat_contentSize (cell : Cell) : (max 0 (contentSize cell)).toNat = contentLength cell := by
  rw [contentSize, contentLength]
  cases content cell with
  | none => rfl
  | some bytes => simp

/-- The cells of one row in `preflight`. -/
theorem rowTotal_eq {columns : List (Name × Nat)} {row : List Cell} {total : Nat}
    (hcolumns : ∀ column ∈ columns, ColumnFits limits column)
    (hrow : List.Forall₂ (CellFits limits) (columns.map Prod.snd) row)
    (hle : total + (row.map fun cell => 4 + contentLength cell).sum ≤ limits.maxFrameBytes) :
    rowTotal limits row (columns.map planOf) total =
      .ok (total + (row.map fun cell => 4 + contentLength cell).sum) := by
  induction columns generalizing row total with
  | nil =>
      cases hrow
      rfl
  | cons column columns ih =>
      rw [List.forall_mem_cons] at hcolumns
      obtain _ | @⟨_, cell, _, row, hcell, hrow⟩ := hrow
      have hsize : cellSize limits cell (planOf column).oid = .ok (contentSize cell) :=
        (cellSize_eq_ok hcolumns.1.known).mpr ⟨hcell, rfl⟩
      rw [List.map_cons, List.sum_cons, ← Nat.add_assoc] at hle
      rw [List.map_cons, List.map_cons, List.sum_cons, ← Nat.add_assoc, rowTotal, hsize]
      simp only [bind_eq_ok, Except.ok.injEq, exists_eq_left', refuseIf_eq_ok, exists_const,
        toNat_contentSize]
      exact ⟨by omega, ih hcolumns.2 hrow hle⟩

/-- All rows in `preflight`. -/
theorem rowsTotal_eq {columns : List (Name × Nat)} {rows : List (List Cell)} {total : Nat}
    (hcolumns : ∀ column ∈ columns, ColumnFits limits column)
    (hrows : ∀ row ∈ rows, List.Forall₂ (CellFits limits) (columns.map Prod.snd) row)
    (hle : total + (rows.map fun row => 7 + (row.map fun cell => 4 + contentLength cell).sum).sum ≤
      limits.maxFrameBytes) :
    rows.foldlM (fun total row => rowTotal limits row (columns.map planOf) (total + 7)) total =
      .ok (total + (rows.map fun row => 7 + (row.map fun cell => 4 + contentLength cell).sum).sum) := by
  induction rows generalizing total with
  | nil => rfl
  | cons row rows ih =>
      rw [List.forall_mem_cons] at hrows
      rw [List.map_cons, List.sum_cons, ← Nat.add_assoc, ← Nat.add_assoc] at hle ⊢
      rw [List.foldlM_cons, rowTotal_eq hcolumns hrows.1 (by omega)]
      exact ih hrows.2 hle

/-- `preflight` computes the size of the frame. -/
theorem preflight_eq {item : MaskedResult} {t : Table} (hfits : t.Fits limits)
    (hrows : item.rows = t.rows) (htruncated : item.truncated = t.truncated) :
    preflight item (t.columns.map planOf) limits = .ok t.size := by
  have hcount : item.rowCount = t.rows.length := congrArg List.length hrows
  have hsize := hfits.size_le
  have hcolumns := hfits.columns_le
  have hlimit := hfits.rows_le
  rw [Table.size] at hsize ⊢
  have htotal := rowsTotal_eq hfits.column hfits.row hsize
  simp only [preflight, hcount, htruncated, hrows, List.length_map, List.map_map, Function.comp_def,
    planOf, bind_eq_ok, refuseIf_eq_ok, exists_const]
  refine ⟨by omega, ?_, by omega, htotal⟩
  rintro ⟨hmark, hne⟩
  exact hne (hfits.full hmark)

/-! ### The encoder -/

/-- The header is packed from the dimensions of the table. -/
theorem headerFields_eq {identity : ResultIdentity} {truncated : Bool} {columns rows body : Nat}
    (hcolumns : columns < 2 ^ 32) (hrows : rows < 2 ^ 32) (hbody : body < 2 ^ 32) :
    headerFields identity truncated columns rows body =
      .ok (headerWire identity truncated columns rows body) := by
  rw [headerFields, pack_u32 hcolumns, pack_u32 hrows, pack_u32 hbody]
  rfl

/-- What `_Encoder.run` writes behind the header. -/
def writeBody (item : MaskedResult) (columns : List ColumnPlan) (w : Writer) :
    Except EncodeFailure Writer := do
  let w ← (do
    let (w, lengthAt) ← w.start 0x54
    let w ← (do
      let w ← w.number .u16 columns.length
      columns.foldlM writeColumn w)
    w.finish lengthAt)
  let w ← item.rows.foldlM (writeRow columns) w
  let (w, lengthAt) ← w.start 0x43
  let w ← w.put (commandText item.rowCount)
  w.finish lengthAt

/-- The body of a table is written. -/
theorem writes_body {item : MaskedResult} {t : Table} (hsize : size < 2 ^ 32)
    (hfits : t.Fits limits) (hrows : item.rows = t.rows) :
    Writes (writeBody item (t.columns.map planOf)) size t.bodyWire := by
  have hmaxColumns := limits.maxColumns_range.2
  have hcolumnsLe := hfits.columns_le
  have hcount : item.rowCount = t.rows.length := congrArg List.length hrows
  have hnumber : Writes (fun w => w.number .u16 (t.columns.map planOf).length) size
      (toBytes 2 t.columns.length) := by
    rw [List.length_map]
    exact writes_number (pack_u16 (by omega)) (length_toBytes ..)
  have hcolumns : Writes (fun w => (t.columns.map planOf).foldlM writeColumn w) size
      (t.columns.flatMap columnWire) := by
    simp only [List.foldlM_map]
    exact Writes.foldlM fun column hmem => writes_column (hfits.column column hmem)
  have hdescription : Writes _ size (descriptionWire t.columns) :=
    (hnumber.bind hcolumns).message hsize
  have hdata : Writes (fun w => item.rows.foldlM (writeRow (t.columns.map planOf)) w) size
      (t.rows.flatMap (rowWire t.columns.length)) := by
    rw [hrows]
    exact Writes.foldlM fun row hmem => writes_row hsize hfits.column (by omega) (hfits.row row hmem)
  have hcommand : Writes _ size (framed 0x43 (commandText item.rowCount)) :=
    (writes_put (commandText item.rowCount)).message hsize
  rw [Table.bodyWire, ← hcount, List.append_assoc]
  exact hdescription.bind (hdata.bind hcommand)

/-- The last check of `run`: the frame passes, or the protocol was broken. -/
def validated (identity : ResultIdentity) (limits : ResultLimits) (frame : List UInt8) :
    Except EncodeFailure (List UInt8) :=
  match validateResult frame identity limits with
  | .error _ => .error .protocol
  | .ok _ => .ok frame

/-- `_Encoder.run` returns the frame of the table. -/
theorem run_eq {item : MaskedResult} {t : Table} (identity : ResultIdentity)
    (hfits : t.Fits limits) (hrows : item.rows = t.rows)
    (htruncated : item.truncated = t.truncated) :
    Encoder.run item (t.columns.map planOf) identity limits = .ok (frameWire identity t) := by
  have hmaxFrame := limits.maxFrameBytes_range.2
  have hmaxColumns := limits.maxColumns_range.2
  have hmaxRows := limits.maxRows_range.2
  have hsizeLe := hfits.size_le
  have hcolumnsLe := hfits.columns_le
  have hrowsLe := hfits.rows_le
  have hbody := length_bodyWire t
  have hcount : item.rowCount = t.rows.length := congrArg List.length hrows
  have hempty : Holds (Writer.ofSize t.size) t.size (List.replicate headerSize 0) := by
    refine ⟨List.length_replicate, (List.length_replicate).symm, ?_⟩
    rw [Writer.ofSize, ← hbody, List.replicate_add]
    exact List.prefix_append _ _
  obtain ⟨w, hw, hholds⟩ := writes_body (by omega) hfits hrows hempty
    (Nat.le_of_eq (by rw [List.length_replicate, hbody]))
  have hoffset : w.offset = t.size := by
    rw [hholds.offset_eq, List.length_append, List.length_replicate, hbody]
  -- The buffer is full: nothing follows the body.
  have hbuffer : w.buffer = List.replicate headerSize 0 ++ t.bodyWire :=
    (hholds.starts.eq_of_length (by rw [← hholds.offset_eq, hoffset, hholds.length_eq])).symm
  have hwire : splice w.buffer 0 (headerWire identity t.truncated t.columns.length t.rows.length
      t.bodyWire.length) = frameWire identity t := by
    have hheader := length_headerWire identity t.truncated t.columns.length t.rows.length
      t.bodyWire.length
    rw [hbuffer]
    exact @splice_append [] (List.replicate headerSize 0) _ t.bodyWire
      (by rw [List.length_replicate, hheader, headerSize])
  have hrun : Encoder.run item (t.columns.map planOf) identity limits = (do
      let total ← preflight item (t.columns.map planOf) limits
      let w ← writeBody item (t.columns.map planOf) (Writer.ofSize total)
      refuseIf (w.offset ≠ total) .protocol
      let header ← headerFields identity item.truncated (t.columns.map planOf).length item.rowCount
        (total - headerSize)
      validated identity limits (splice w.buffer 0 header)) := by
    -- what is left, if anything, differs only in the names of its matchers
    simp only [Encoder.run, writeBody, bind_assoc] <;> rfl
  rw [hrun, preflight_eq hfits hrows htruncated]
  simp only [bind_eq_ok, Except.ok.injEq, exists_eq_left', hw, hoffset, refuseIf_eq_ok,
    exists_const, not_not, true_and, hcount, htruncated, List.length_map]
  refine ⟨_, headerFields_eq (by omega) (by omega) (by omega), ?_⟩
  rw [show t.size - headerSize = t.bodyWire.length by omega, hwire,
    validated, validateResult_frameWire identity hfits]

/-- What a typed result says. -/
def tableOf (result : TypedMaskedResult) : Table where
  truncated := result.masked.truncated
  columns := (result.masked.columns.zip result.typeOids).map fun (col, oid) => (col.outputName, oid)
  rows := result.masked.rows

/-- The columns of a typed result are those of its table. -/
theorem length_tableOf_columns (result : TypedMaskedResult) :
    (tableOf result).columns.length = result.masked.columns.length := by
  have hchecked := result.checked
  simp only [TypedMaskedResult.postInit, bind_eq_ok, refuseIf_eq_ok, exists_const, not_or, not_not]
    at hchecked
  rw [tableOf, List.length_map, List.length_zip, hchecked.1.2.2, Nat.min_self]

/-- The columns of a result that fits are planned. -/
theorem plan_eq {result : TypedMaskedResult} (hfits : (tableOf result).Fits limits) :
    plan result limits = .ok ((tableOf result).columns.map planOf) := by
  have hcolumns := hfits.columns_le
  have hrows := hfits.rows_le
  rw [length_tableOf_columns] at hcolumns
  have hplan : (result.masked.columns.zip result.typeOids).mapM (planColumn limits) =
      .ok ((tableOf result).columns.map planOf) := by
    rw [mapM_eq_ok, tableOf, List.map_map, List.forall₂_map_right_iff, List.forall₂_same]
    rintro ⟨col, oid⟩ hmem
    have hcolumn : ColumnFits limits (col.outputName, oid) :=
      hfits.column _ (List.mem_map.mpr ⟨_, hmem, rfl⟩)
    have hsize : textSize (col.outputName.map .scalar) limits.maxNameBytes .limit =
        .ok (utf8 col.outputName).length := by
      rw [textSize_eq_ok, textBytes_map_scalar]
      exact ⟨⟨_, rfl, hcolumn.plain⟩, rfl, hcolumn.length_le⟩
    rw [planColumn, hsize]
    rfl
  rw [plan, bind_eq_ok]
  refine ⟨(), refuseIf_eq_ok.mpr ?_, ?_⟩
  · rw [not_or, gt_iff_lt, Nat.not_lt, gt_iff_lt, Nat.not_lt]
    exact ⟨hrows, hcolumns⟩
  · rw [result.checked]
    exact hplan

/-- `encode_result` returns the frame of a result that fits. -/
theorem encodeResult_eq {result : TypedMaskedResult} (identity : ResultIdentity)
    (hfits : (tableOf result).Fits limits) :
    encodeResult result identity limits = .ok (frameWire identity (tableOf result)) := by
  rw [encodeResult, plan_eq hfits]
  exact run_eq identity hfits rfl rfl

/-- Whatever `encode_result` returns was validated. -/
theorem validateResult_of_encodeResult {result : TypedMaskedResult} {identity : ResultIdentity}
    {raw : List UInt8} (h : encodeResult result identity limits = .ok raw) :
    ∃ v, validateResult raw identity limits = .ok v := by
  simp only [encodeResult, Encoder.run, bind_eq_ok, refuseIf_eq_ok, exists_const] at h
  obtain ⟨_, _, _, _, _, _, _, _, _, _, _, _, _, _, _, _, _, _, _, _, _, header, _, h⟩ := h
  split at h
  · cases h
  · rename_i v hvalid
    obtain rfl := pure_eq_ok.mp h
    exact ⟨v, hvalid⟩

end MaskGateway.Proofs.Pgwire
