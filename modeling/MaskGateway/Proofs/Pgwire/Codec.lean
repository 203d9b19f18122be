import MaskGateway.Proofs.Pgwire.Encoding

/-!
# `MaskGateway.Proofs.Pgwire.Codec`: the result frame codec is exact

A client that knows the protocol reads a frame back: the dimensions from the header, names and
types from the RowDescription, cells by the type of their column from the DataRows. `readFrame` is
that client. It validates nothing; on the frame of a table it returns the table.

With the validator and the encoder specified against the same `frameWire`, the codec is exact in
both directions: every result that fits is encoded and read back, and what the validator accepts is
what the encoder produces.
-/

set_option autoImplicit false

namespace MaskGateway.Proofs.Pgwire

open Lib MaskGateway.Db MaskGateway.Pgwire MaskGateway.Pgwire.Encoder

variable {limits : ResultLimits}

/-! ### A reader -/

/-- The text of a value, with Lean's own decoder. -/
def readText (bytes : List UInt8) : Option (List Char) :=
  bytes.toByteArray.utf8Decode?.map Array.toList

/-- The integer of a value. -/
def readInteger (bytes : List UInt8) : Int :=
  if bytes.head? = some 0x2D then -(decimalValue (bytes.drop 1)) else decimalValue bytes

/-- The value that bytes are in a column of this type. -/
def readCell (oid : Nat) (bytes : List UInt8) : Option Cell :=
  if oid ∈ textTypes then (readText bytes).map fun chars => .text (chars.map .scalar)
  else if oid = boolOid then some (.bool (bytes == [0x74]))
  else some (.int (readInteger bytes))

/-- The payload of the next message and the bytes after it. -/
def readMessage (tag : UInt8) (left : List UInt8) : Option (List UInt8 × List UInt8) :=
  let length := ofBytes ((left.drop 1).take 4)
  if left.head? = some tag then some ((left.drop 5).take (length - 4), left.drop (1 + length))
  else none

/-- Names and types of the columns. -/
def readColumns : (count : Nat) → List UInt8 → Option (List (Name × Nat))
  | 0, _ => some []
  | count + 1, left => do
      let name := left.takeWhile (· != 0)
      let fields := left.drop (name.length + 1)
      let chars ← readText name
      let columns ← readColumns count (fields.drop 18)
      return (chars, ofBytes ((fields.drop 6).take 4)) :: columns

/-- The cells of a row. -/
def readCells : (oids : List Nat) → List UInt8 → Option (List Cell)
  | [], _ => some []
  | oid :: oids, left =>
      let length := signedOfBytes (left.take 4)
      if length = -1 then do
        return .null :: (← readCells oids (left.drop 4))
      else do
        let cell ← readCell oid ((left.drop 4).take length.toNat)
        return cell :: (← readCells oids ((left.drop 4).drop length.toNat))

/-- The rows and the bytes after them. -/
def readRows (oids : List Nat) :
    (count : Nat) → List UInt8 → Option (List (List Cell) × List UInt8)
  | 0, left => some ([], left)
  | count + 1, left => do
      let (payload, left) ← readMessage 0x44 left
      let row ← readCells oids (payload.drop 2)
      let (rows, left) ← readRows oids count left
      return (row :: rows, left)

/-- The table of a frame. -/
def readFrame (frame : List UInt8) : Option Table :=
  match cut headerWidths (frame.take headerSize) with
  | [_, _, flags, _, _, _, _, _, _, _, count, _] => do
      let (payload, left) ← readMessage 0x54 (frame.drop headerSize)
      let columns ← readColumns (ofBytes (payload.take 2)) (payload.drop 2)
      let (rows, left) ← readRows (columns.map Prod.snd) (ofBytes count) left
      let (command, left) ← readMessage 0x43 left
      if command = commandText rows.length ∧ left = [] then
        return { truncated := ofBytes flags == 1, columns := columns, rows := rows }
      else none
  | _ => none

/-! ### Reading back -/

/-- A text is read back. -/
theorem readText_utf8 (chars : List Char) : readText (utf8 chars) = some chars := by
  rw [readText, utf8Decode?_utf8]
  rfl

/-- An integer is read back. -/
theorem readInteger_signedDecimal (z : Int) : readInteger (signedDecimal z) = z := by
  rw [signedDecimal]
  split
  · show -(decimalValue (decimal z.natAbs) : Int) = z
    rw [decimalValue_decimal]
    omega
  · rw [readInteger, if_neg (head?_decimal_ne_minus _), decimalValue_decimal]
    omega

/-- A value that fits is read back from its content. -/
theorem readCell_content {oid : Nat} {cell : Cell} {bytes : List UInt8}
    (hoid : (typeSize oid).isSome) (hfits : CellFits limits oid cell)
    (hcontent : content cell = some bytes) : readCell oid bytes = some cell := by
  match cell, hfits, hcontent with
  | .text t, ⟨htext, ⟨chars, ht, _⟩, _⟩, hcontent =>
      subst ht
      rw [← Option.some.inj hcontent, readCell, if_pos htext, textBytes_map_scalar, readText_utf8]
      rfl
  | .int z, ⟨⟨bits, hbits, _⟩, _⟩, hcontent =>
      rw [← Option.some.inj hcontent]
      rcases oid_cases hoid with ⟨-, hnone, -⟩ | ⟨htext, hbool, -⟩ | ⟨-, hnone, -⟩
      · rw [hnone] at hbits
        cases hbits
      · rw [readCell, if_neg htext, if_neg hbool, readInteger_signedDecimal]
      · rw [hnone] at hbits
        cases hbits
  | .bool b, hfits, hcontent =>
      rw [← Option.some.inj hcontent]
      obtain rfl : oid = boolOid := hfits
      cases b
      · rfl
      · rfl

/-- A message is read back. -/
theorem readMessage_framed {tag : UInt8} {payload rest : List UInt8}
    (hlen : 4 + payload.length < 2 ^ 32) :
    readMessage tag (framed tag payload ++ rest) = some (payload, rest) := by
  obtain ⟨hlength, hpayload, hrest⟩ := framed_fields tag hlen rest
  rw [readMessage, hlength, hpayload, hrest]
  exact if_pos rfl

/-- Names and types are read back. -/
theorem readColumns_wire {columns : List (Name × Nat)} {rest : List UInt8}
    (hfits : ∀ column ∈ columns, ColumnFits limits column) :
    readColumns columns.length (columns.flatMap columnWire ++ rest) = some columns := by
  induction columns with
  | nil => rfl
  | cons column columns ih =>
      rw [List.forall_mem_cons] at hfits
      obtain ⟨size, hsize⟩ := Option.isSome_iff_exists.mp hfits.1.known
      obtain ⟨hoid, -, -⟩ := typeSize_range hsize
      have hwire : List.flatMap columnWire (column :: columns) ++ rest =
          utf8 column.1 ++ 0 :: (columnFields column.2 size ++
            (columns.flatMap columnWire ++ rest)) := by
        simp [columnWire, hsize]
      have hname : (utf8 column.1 ++ 0 :: (columnFields column.2 size ++
          (columns.flatMap columnWire ++ rest))).takeWhile (· != 0) = utf8 column.1 := by
        rw [List.takeWhile_append_of_pos, List.takeWhile_cons_of_neg (by decide), List.append_nil]
        intro b hb
        exact bne_iff_ne.mpr fun hzero => hfits.1.plain (zero_mem_utf8_iff.mp (hzero ▸ hb))
      have hfield : ((columnFields column.2 size ++ (columns.flatMap columnWire ++ rest)).drop 6).take
          4 = toBytes 4 column.2 := by
        rw [columnFields]
        simp only [List.append_assoc]
        rw [← List.append_assoc (toBytes 4 0), List.drop_left' (by simp),
          List.take_left' (length_toBytes ..)]
      rw [List.length_cons, readColumns, hwire, hname, drop_after_zero, readText_utf8, hfield,
        List.drop_left' (length_columnFields ..), ofBytes_toBytes hoid, ih hfits.2]
      rfl

/-- The cells of a row are read back. -/
theorem readCells_wire {oids : List Nat} {row : List Cell} {rest : List UInt8}
    (hoids : ∀ oid ∈ oids, (typeSize oid).isSome)
    (hrow : List.Forall₂ (CellFits limits) oids row) :
    readCells oids (row.flatMap cellWire ++ rest) = some row := by
  have hmax := limits.maxCellBytes_range.2
  induction hrow with
  | nil => rfl
  | @cons oid cell oids row hcell _ ih =>
      rw [List.forall_mem_cons] at hoids
      rw [List.flatMap_cons, List.append_assoc, readCells, cellWire]
      cases hcontent : content cell with
      | none =>
          obtain rfl := content_eq_none.mp hcontent
          rw [List.take_left' (length_signedToBytes ..), List.drop_left' (length_signedToBytes ..),
            signedOfBytes_signedToBytes (by decide) (by decide), if_pos rfl, ih hoids.2]
          rfl
      | some bytes =>
          have hle := content_length_le hcell hcontent
          simp only [List.append_assoc]
          rw [List.take_left' (length_signedToBytes ..), List.drop_left' (length_signedToBytes ..),
            signedOfBytes_signedToBytes (by omega) (by omega), if_neg (by omega),
            Int.toNat_natCast, List.take_left, List.drop_left,
            readCell_content hoids.1 hcell hcontent, ih hoids.2]
          rfl

/-- The rows are read back. -/
theorem readRows_wire {oids : List Nat} {rows : List (List Cell)} {rest : List UInt8}
    (hoids : ∀ oid ∈ oids, (typeSize oid).isSome)
    (hrows : ∀ row ∈ rows, List.Forall₂ (CellFits limits) oids row)
    (hlen : (rows.flatMap (rowWire oids.length)).length < 2 ^ 32) :
    readRows oids rows.length (rows.flatMap (rowWire oids.length) ++ rest) = some (rows, rest) := by
  induction rows with
  | nil => rfl
  | cons row rows ih =>
      rw [List.forall_mem_cons] at hrows
      rw [List.flatMap_cons, List.length_append, rowWire, length_framed] at hlen
      have hcells : readCells oids (row.flatMap cellWire ++ []) = some row :=
        readCells_wire hoids hrows.1
      rw [List.append_nil] at hcells
      rw [List.length_cons, readRows, List.flatMap_cons, List.append_assoc, rowWire,
        readMessage_framed (by omega)]
      show (readCells oids ((toBytes 2 oids.length ++ row.flatMap cellWire).drop 2) >>= _) = _
      rw [List.drop_left' (length_toBytes ..), hcells]
      show (readRows oids rows.length _ >>= _) = _
      rw [ih hrows.2 (by omega)]
      rfl

/-- The frame of a table that fits is read back as the table. -/
theorem readFrame_frameWire (identity : ResultIdentity) {t : Table} (hfits : t.Fits limits) :
    readFrame (frameWire identity t) = some t := by
  have hmaxColumns := limits.maxColumns_range.2
  have hmaxRows := limits.maxRows_range.2
  have hmaxFrame := limits.maxFrameBytes_range.2
  have hsize := hfits.size_le
  have hcolumnsLe := hfits.columns_le
  have hrowsLe := hfits.rows_le
  have hbody := length_bodyWire t
  have hwidth : t.oids.length = t.columns.length := List.length_map ..
  have hparts : t.bodyWire = descriptionWire t.columns ++
      (t.rows.flatMap (rowWire t.oids.length) ++ (framed 0x43 (commandText t.rows.length) ++ [])) := by
    rw [Table.bodyWire, hwidth, List.append_assoc, List.append_nil]
  have hlengths := congrArg List.length hparts
  simp only [descriptionWire, List.length_append, length_framed, List.length_nil] at hlengths
  have hcolumns : readColumns t.columns.length (t.columns.flatMap columnWire ++ []) =
      some t.columns := readColumns_wire hfits.column
  have hrows : readRows t.oids t.rows.length (t.rows.flatMap (rowWire t.oids.length) ++
      (framed 0x43 (commandText t.rows.length) ++ [])) =
      some (t.rows, framed 0x43 (commandText t.rows.length) ++ []) :=
    readRows_wire hfits.known hfits.row (by omega)
  have hflag : (ofBytes (toBytes 1 t.truncated.toNat) == 1) = t.truncated := by
    cases t.truncated <;> rfl
  rw [List.append_nil] at hcolumns
  rw [readFrame, take_frameWire, cut_headerWire, drop_frameWire, hparts, descriptionWire]
  show (readMessage 0x54 _ >>= _) = _
  rw [readMessage_framed (by rw [List.length_append]; omega)]
  show (readColumns (ofBytes ((toBytes 2 t.columns.length ++ t.columns.flatMap columnWire).take 2))
    ((toBytes 2 t.columns.length ++ t.columns.flatMap columnWire).drop 2) >>= _) = _
  rw [List.take_left' (length_toBytes ..), List.drop_left' (length_toBytes ..),
    ofBytes_toBytes (by omega), hcolumns]
  show (readRows t.oids (ofBytes (toBytes 4 t.rows.length)) _ >>= _) = _
  rw [ofBytes_toBytes (by omega), hrows, Option.bind_eq_bind, Option.bind_some]
  show (readMessage 0x43 (framed 0x43 (commandText t.rows.length) ++ []) >>= _) = _
  rw [readMessage_framed (by omega)]
  show (if commandText t.rows.length = commandText t.rows.length ∧ [] = [] then
    some (Table.mk (ofBytes (toBytes 1 t.truncated.toNat) == 1) t.columns t.rows) else none) = _
  rw [if_pos ⟨rfl, rfl⟩, hflag]

/-- Every table that fits is the table of a typed result. -/
theorem exists_tableOf_eq {t : Table} (hfits : t.Fits limits) :
    ∃ result : TypedMaskedResult, tableOf result = t := by
  have hmaxColumns := limits.maxColumns_range.2
  have hcolumnsLe := hfits.columns_le
  let item : MaskedResult :=
    { columns := t.columns.map fun column => { outputName := column.1 }
      decisions := t.columns.map fun column => { action := .allow, outputName := column.1 }
      rows := t.rows
      truncated := t.truncated }
  have hchecked : TypedMaskedResult.postInit item t.oids = .ok () := by
    simp only [TypedMaskedResult.postInit, bind_eq_ok, refuseIf_eq_ok, exists_const]
    refine ⟨?_, (), ?_, ?_⟩
    · simp only [item, Table.oids, List.length_map, maxWireColumns]
      have := hfits.columns_pos
      omega
    · simp only [forM_eq_ok, item, Table.oids, List.zip_map']
      intro entry hentry
      obtain ⟨column, hmem, rfl⟩ := List.mem_map.mp hentry
      rw [checkTypedColumn, refuseIf_eq_ok]
      rintro (hname | hunknown | ⟨hmask, -⟩)
      · exact hname rfl
      · have hknown := (hfits.column column hmem).known
        rw [show typeSize column.2 = none from hunknown] at hknown
        cases hknown
      · cases hmask
    · rintro ⟨row, hmem, hne⟩
      exact hne (by rw [hfits.row_length row hmem]; exact (List.length_map ..).symm)
  refine ⟨⟨item, t.oids, hchecked⟩, ?_⟩
  simp [tableOf, item, Table.oids, List.zip_map', Function.comp_def]

/-- The codec is exact. Whatever fits the limits and the types is encoded, and a client reads the
same names, types, cells and truncation mark back; a byte string is accepted by the validator
exactly when it is what the encoder returns for such a result. -/
theorem result_codec_exact (identity : ResultIdentity) (limits : ResultLimits) :
    (∀ result : TypedMaskedResult, (tableOf result).Fits limits →
      ∃ frame, encodeResult result identity limits = .ok frame ∧
        readFrame frame = some (tableOf result)) ∧
    ∀ raw : List UInt8, (∃ v, validateResult raw identity limits = .ok v) ↔
      ∃ result : TypedMaskedResult, (tableOf result).Fits limits ∧
        encodeResult result identity limits = .ok raw := by
  refine ⟨?_, ?_⟩
  · intro result hfits
    exact ⟨_, encodeResult_eq identity hfits, readFrame_frameWire identity hfits⟩
  · intro raw
    constructor
    · intro hvalid
      obtain ⟨t, hfits, rfl⟩ := validateResult_iff.mp hvalid
      obtain ⟨result, rfl⟩ := exists_tableOf_eq hfits
      exact ⟨result, hfits, encodeResult_eq identity hfits⟩
    · rintro ⟨result, -, hencode⟩
      exact validateResult_of_encodeResult hencode

/-! ### A result on the wire -/

/-- Two columns, two rows, one NULL. -/
def sampleResult : TypedMaskedResult where
  masked :=
    { columns := [{ outputName := ['i', 'd'] }, { outputName := ['é'] }]
      decisions := [{ action := .allow, outputName := ['i', 'd'] },
        { action := .mask, outputName := ['é'] }]
      rows := [[.int (-7), .text [.scalar '*']], [.null, .text []]]
      truncated := true }
  typeOids := [23, 25]
  checked := by rfl

/-- Limits that the result fills. -/
def sampleLimits : ResultLimits where
  maxRows := 2
  maxFrameBytes := 1024
  maxCellBytes := 64
  maxColumns := 8
  maxNameBytes := 16
  maxRows_range := by decide
  maxFrameBytes_range := by decide
  maxCellBytes_range := by decide
  maxColumns_range := by decide
  maxNameBytes_range := by decide

/-- Sixteen bytes name a session. -/
theorem length_sampleSession : (List.replicate 16 (1 : UInt8)).length = 16 := rfl

/-- Sixteen bytes name a datasource. -/
theorem length_sampleDatasource : (List.replicate 16 (2 : UInt8)).length = 16 := rfl

/-- An identity. -/
def sampleIdentity : ResultIdentity where
  sessionId := List.replicate 16 1
  datasourceId := List.replicate 16 2
  generation := 3
  recordRevision := 4
  jobId := 5
  sessionId_length := length_sampleSession
  datasourceId_length := length_sampleDatasource
  generation_range := by decide
  recordRevision_range := by decide
  jobId_range := by decide

/-- The result fits its limits. -/
theorem sampleResult_fits : (tableOf sampleResult).Fits sampleLimits where
  columns_pos := by decide
  columns_le := by decide
  rows_le := by decide
  column := by
    intro column hmem
    have hcolumns : column = (['i', 'd'], 23) ∨ column = (['é'], 25) := by
      simpa [tableOf, sampleResult] using hmem
    rcases hcolumns with rfl | rfl
    · exact ⟨by decide, by decide, by decide⟩
    · exact ⟨by decide, by decide, by decide⟩
  row := by
    have hstar : PlainText [.scalar '*'] := ⟨['*'], rfl, by decide⟩
    have hnone : PlainText [] := ⟨[], rfl, by decide⟩
    have hint : CellFits sampleLimits 23 (.int (-7)) :=
      ⟨⟨32, rfl, by decide, by decide⟩, by decide⟩
    have htext : CellFits sampleLimits 25 (.text [.scalar '*']) :=
      ⟨by decide, hstar, by decide, by decide⟩
    have hempty : CellFits sampleLimits 25 (.text []) := ⟨by decide, hnone, by decide, by decide⟩
    intro row hmem
    have hrows : row = [.int (-7), .text [.scalar '*']] ∨ row = [.null, .text []] := by
      simpa [tableOf, sampleResult] using hmem
    rcases hrows with rfl | rfl
    · exact .cons hint (.cons htext .nil)
    · exact .cons trivial (.cons hempty .nil)
  full := fun _ => rfl
  size_le := by decide

/-- The sample is encoded and read back, and its frame is accepted. -/
theorem result_codec_exact_sample :
    ∃ frame v, encodeResult sampleResult sampleIdentity sampleLimits = .ok frame ∧
      readFrame frame = some (tableOf sampleResult) ∧
      validateResult frame sampleIdentity sampleLimits = .ok v := by
  obtain ⟨hencode, haccept⟩ := result_codec_exact sampleIdentity sampleLimits
  obtain ⟨frame, hframe, hread⟩ := hencode sampleResult sampleResult_fits
  obtain ⟨v, hv⟩ := (haccept frame).mpr ⟨sampleResult, sampleResult_fits, hframe⟩
  exact ⟨frame, v, hframe, hread, hv⟩

end MaskGateway.Proofs.Pgwire
