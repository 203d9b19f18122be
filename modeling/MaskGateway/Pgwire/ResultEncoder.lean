import MaskGateway.Db.Result
import MaskGateway.Pgwire.ResultFrame

/-!
# `MaskGateway.Pgwire.ResultEncoder`: encoding a typed masked result

`pgwire/result_encoder.py`. The encoder computes the size of the frame first (`preflight`, which
checks every name and cell), fills a buffer of exactly that size through a writer that patches the
length of each message when the message ends, packs the header and has the frame validated by
`validateResult` before it is returned.

Any exception that is not an `EncodeError` leaves `encode_result` as `PROTOCOL`: a failed
validation, a failed `struct` packing, a `zip(strict=True)` over unequal lengths. The deadline and
the exhaustion of memory are left out, as in `MaskGateway.Pgwire.ResultFrame`.
-/

set_option autoImplicit false

namespace MaskGateway.Pgwire.Encoder

open Lib Db

/-- `EncodeFailure`, without memory and deadline. -/
inductive EncodeFailure where
  | type
  | limit
  | protocol
  deriving DecidableEq

/-- `_BLOCK_CHARS`. -/
def blockChars : Nat := 4096

/-- `_INTEGER_BITS`. -/
def integerBits (oid : Nat) : Option Nat := [(21, 16), (23, 32), (20, 64)].lookup oid

/-- `_TEXT`. -/
def textOids : List Nat := [19, 25, 1042, 1043]

/-- `_NAME_OID`. -/
def nameOid : Nat := 19

/-- `_NAME_MAX`. -/
def nameMax : Nat := 63

/-- `_BOOL_OID`. -/
def boolOid : Nat := 16

/-! ### Texts -/

/-- `str.isascii`. -/
def isAscii (value : List CodePoint) : Bool :=
  value.all fun
    | .scalar c => c.val.toNat < 128
    | .surrogate _ => false

/-- `str.encode("ascii")` on a text that passed `isascii`. -/
def asciiBytes (value : List CodePoint) : List UInt8 :=
  value.map fun
    | .scalar c => UInt8.ofNat c.val.toNat
    | .surrogate _ => 0

/-- The UTF-8 bytes of one code point. A surrogate has none. -/
def encodePoint : CodePoint → Option (List UInt8)
  | .scalar c => some (String.utf8EncodeChar c)
  | .surrogate _ => none

/-- `_utf8`. -/
def utf8Bytes (value : List CodePoint) : Except EncodeFailure (List UInt8) :=
  if isAscii value then .ok (asciiBytes value)
  else
    match value.mapM encodePoint with
    | none => .error .type
    | some parts => .ok parts.flatten

/-- The loop of `_Encoder.text_size` for one block. -/
def blockSize (maximum : Nat) (excess : EncodeFailure) (size : Nat) (block : List CodePoint) :
    Except EncodeFailure Nat := do
  refuseIf (.scalar '\x00' ∈ block) .type
  let encoded ← utf8Bytes block
  refuseIf (size + encoded.length > maximum) excess
  return size + encoded.length

/-- `_Encoder.text_size`. -/
def textSize (value : List CodePoint) (maximum : Nat) (excess : EncodeFailure) :
    Except EncodeFailure Nat := do
  refuseIf (value.length > maximum) excess
  if value.length ≤ blockChars ∧ isAscii value then do
    refuseIf (.scalar '\x00' ∈ value) .type
    return value.length
  else (blocks blockChars value).foldlM (blockSize maximum excess) 0

/-! ### Sizes -/

/-- `_Encoder.cell_size`. -/
def cellSize (limits : ResultLimits) (value : Cell) (oid : Nat) : Except EncodeFailure Int :=
  if value = .null then .ok (-1)
  else if oid ∈ textOids then
    match value with
    | .text t =>
        if oid = nameOid then do
          let size ← textSize t nameMax .type
          refuseIf (size > limits.maxCellBytes) .limit
          return size
        else do
          let size ← textSize t limits.maxCellBytes .limit
          return size
    | _ => .error .type
  else
    match integerBits oid with
    | some bits =>
        match value with
        | .int z => do
            refuseIf (¬ (-(2 ^ (bits - 1)) ≤ z ∧ z < 2 ^ (bits - 1))) .type
            refuseIf ((signedDecimal z).length > limits.maxCellBytes) .limit
            return (signedDecimal z).length
        | _ => .error .type
    | none =>
        match value with
        | .bool _ => do
            refuseIf (oid ≠ boolOid) .type
            refuseIf (1 > limits.maxCellBytes) .limit
            return 1
        | _ => .error .type

/-- `_ColumnPlan`. -/
structure ColumnPlan where
  name : List CodePoint
  oid : Nat
  nameBytes : Nat

/-- The cells of one row in `_Encoder.preflight`. -/
def rowTotal (limits : ResultLimits) :
    (row : List Cell) → (columns : List ColumnPlan) → (total : Nat) → Except EncodeFailure Nat
  | [], [], total => .ok total
  | value :: row, col :: columns, total => do
      let size ← cellSize limits value col.oid
      let total := total + (4 + (max 0 size).toNat)
      refuseIf (total > limits.maxFrameBytes) .limit
      rowTotal limits row columns total
  | _, _, _ => .error .protocol

/-- `_Encoder.preflight`. -/
def preflight (item : MaskedResult) (columns : List ColumnPlan) (limits : ResultLimits) :
    Except EncodeFailure Nat := do
  refuseIf (columns.length > limits.maxColumns ∨ item.rowCount > limits.maxRows) .limit
  refuseIf (item.truncated ∧ item.rowCount ≠ limits.maxRows) .protocol
  let total := headerSize + 7 + (columns.map fun col => 19 + col.nameBytes).sum +
    (5 + (commandText item.rowCount).length)
  refuseIf (total > limits.maxFrameBytes) .limit
  item.rows.foldlM (fun total row => rowTotal limits row columns (total + 7)) total

/-! ### The writer -/

/-- The formats that are packed into the buffer. -/
inductive Format where
  | u16
  | u32
  | i32
  deriving DecidableEq

/-- `Struct.size`. -/
def Format.size : Format → Nat
  | .u16 => 2
  | .u32 => 4
  | .i32 => 4

/-- `Struct.pack`: a number out of range is a `struct.error`. -/
def Format.pack (value : Int) : Format → Except EncodeFailure (List UInt8)
  | .u16 => do
      refuseIf (¬ (0 ≤ value ∧ value < 2 ^ 16)) .protocol
      return toBytes 2 value.toNat
  | .u32 => do
      refuseIf (¬ (0 ≤ value ∧ value < 2 ^ 32)) .protocol
      return toBytes 4 value.toNat
  | .i32 => do
      refuseIf (¬ (-(2 ^ 31) ≤ value ∧ value < 2 ^ 31)) .protocol
      return signedToBytes 4 value

/-- Replace the bytes of a buffer from a position on. -/
def splice (buffer : List UInt8) (position : Nat) (bytes : List UInt8) : List UInt8 :=
  buffer.take position ++ bytes ++ buffer.drop (position + bytes.length)

/-- `_Writer`. -/
structure Writer where
  buffer : List UInt8
  offset : Nat

/-- `_Writer.__init__`. -/
def Writer.ofSize (size : Nat) : Writer where
  buffer := List.replicate size 0
  offset := headerSize

/-- `_Writer.put`. -/
def Writer.put (w : Writer) (bytes : List UInt8) : Except EncodeFailure Writer := do
  refuseIf (w.offset + bytes.length > w.buffer.length) .protocol
  return { buffer := splice w.buffer w.offset bytes, offset := w.offset + bytes.length }

/-- `_Writer.number`. -/
def Writer.number (w : Writer) (fmt : Format) (value : Int) : Except EncodeFailure Writer := do
  refuseIf (w.offset + fmt.size > w.buffer.length) .protocol
  let bytes ← fmt.pack value
  return { buffer := splice w.buffer w.offset bytes, offset := w.offset + fmt.size }

/-- `fmt.pack_into(writer.buffer, position, value)`. -/
def Writer.packInto (w : Writer) (fmt : Format) (position : Nat) (value : Int) :
    Except EncodeFailure Writer := do
  let bytes ← fmt.pack value
  return { w with buffer := splice w.buffer position bytes }

/-- `_Writer.start`: the writer, and where the length of the message stands. -/
def Writer.start (w : Writer) (tag : UInt8) : Except EncodeFailure (Writer × Nat) := do
  let w ← w.put [tag]
  let lengthAt := w.offset
  let w ← w.number .u32 0
  return (w, lengthAt)

/-- `_Writer.end`. -/
def Writer.finish (w : Writer) (lengthAt : Nat) : Except EncodeFailure Writer :=
  w.packInto .u32 lengthAt (w.offset - lengthAt)

/-! ### Writing a result -/

/-- `_Encoder.write_text`. -/
def writeText (w : Writer) (value : List CodePoint) : Except EncodeFailure Writer :=
  if value.length ≤ blockChars ∧ isAscii value then w.put (asciiBytes value)
  else (blocks blockChars value).foldlM (fun w block => do w.put (← utf8Bytes block)) w

/-- The short texts of `_Encoder.write_cell`: length and bytes at once. -/
def writeShortText (w : Writer) (data : List UInt8) : Except EncodeFailure Writer := do
  refuseIf (w.offset + Format.i32.size + data.length > w.buffer.length) .protocol
  let length ← Format.i32.pack data.length
  return { buffer := splice (splice w.buffer w.offset length) (w.offset + Format.i32.size) data,
           offset := w.offset + Format.i32.size + data.length }

/-- The value of a cell that is neither NULL nor a short text, without its length. -/
def writeContent (w : Writer) (value : Cell) (oid : Nat) : Except EncodeFailure Writer :=
  if oid ∈ textOids then
    match value with
    | .text t => writeText w t
    | _ => .error .protocol
  else if (integerBits oid).isSome then
    match value with
    | .int z => w.put (signedDecimal z)
    | _ => .error .protocol
  else w.put [if value = .bool true then 0x74 else 0x66]

/-- `_Encoder.write_cell`. -/
def writeCell (w : Writer) (value : Cell) (oid : Nat) : Except EncodeFailure Writer :=
  match value with
  | .null => w.number .i32 (-1)
  | .text t =>
      if oid ∈ textOids ∧ t.length ≤ blockChars ∧ isAscii t then writeShortText w (asciiBytes t)
      else writeCounted w value oid
  | _ => writeCounted w value oid
where
  /-- The length is written as zero and patched when the value is there. -/
  writeCounted (w : Writer) (value : Cell) (oid : Nat) : Except EncodeFailure Writer := do
    let lengthAt := w.offset
    let w ← w.number .i32 0
    let w ← writeContent w value oid
    w.packInto .i32 lengthAt (w.offset - lengthAt - Format.i32.size)

/-- `_COLUMN.pack(0, 0, oid, size, -1, 0)`: the sizes and types of the table fit their fields. -/
def columnFields (oid : Nat) (size : Int) : List UInt8 :=
  toBytes 4 0 ++ signedToBytes 2 0 ++ toBytes 4 oid ++ signedToBytes 2 size ++
    signedToBytes 4 (-1) ++ signedToBytes 2 0

/-- One column of the RowDescription. -/
def writeColumn (w : Writer) (col : ColumnPlan) : Except EncodeFailure Writer := do
  let w ← writeText w col.name
  let w ← w.put [0]
  match wireTypeSize col.oid with
  | none => .error .protocol
  | some size => w.put (columnFields col.oid size)

/-- The cells of one DataRow. -/
def writeCells : Writer → List Cell → List ColumnPlan → Except EncodeFailure Writer
  | w, [], [] => .ok w
  | w, value :: row, col :: columns => do
      let w ← writeCell w value col.oid
      writeCells w row columns
  | _, _, _ => .error .protocol

/-- One DataRow. -/
def writeRow (columns : List ColumnPlan) (w : Writer) (row : List Cell) :
    Except EncodeFailure Writer := do
  let (w, lengthAt) ← w.start 0x44
  let w ← w.number .u16 columns.length
  let w ← writeCells w row columns
  w.finish lengthAt

/-- `_HEADER.pack_into(writer.buffer, 0, ...)`: the numbers of an identity fit their fields. -/
def headerFields (identity : ResultIdentity) (truncated : Bool) (columns rows body : Nat) :
    Except EncodeFailure (List UInt8) := do
  let columns ← Format.u32.pack columns
  let rows ← Format.u32.pack rows
  let body ← Format.u32.pack body
  return [magicBytes, toBytes 1 1, toBytes 1 truncated.toNat, toBytes 2 0, identity.sessionId,
    identity.datasourceId, toBytes 8 identity.generation, toBytes 8 identity.recordRevision,
    toBytes 8 identity.jobId, columns, rows, body].flatten

/-- The plan of a column, with the size of its name. -/
def planColumn (limits : ResultLimits) : Masking.ColumnDescriptor × Nat →
    Except EncodeFailure ColumnPlan
  | (col, oid) => do
      let name := col.outputName.map CodePoint.scalar
      return { name := name, oid := oid, nameBytes := ← textSize name limits.maxNameBytes .limit }

/-- `_Encoder.__init__`: the plans of the columns. -/
def plan (result : TypedMaskedResult) (limits : ResultLimits) :
    Except EncodeFailure (List ColumnPlan) := do
  let item := result.masked
  refuseIf (item.rows.length > limits.maxRows ∨ item.columns.length > limits.maxColumns) .limit
  match TypedMaskedResult.postInit item result.typeOids with
  | .error _ => .error .protocol
  | .ok _ => (item.columns.zip result.typeOids).mapM (planColumn limits)

/-- `_Encoder.run`. -/
def run (item : MaskedResult) (columns : List ColumnPlan) (identity : ResultIdentity)
    (limits : ResultLimits) : Except EncodeFailure (List UInt8) := do
  let total ← preflight item columns limits
  let (w, lengthAt) ← (Writer.ofSize total).start 0x54
  let w ← w.number .u16 columns.length
  let w ← columns.foldlM writeColumn w
  let w ← w.finish lengthAt
  let w ← item.rows.foldlM (writeRow columns) w
  let (w, lengthAt) ← w.start 0x43
  let w ← w.put (commandText item.rowCount)
  let w ← w.finish lengthAt
  refuseIf (w.offset ≠ total) .protocol
  let header ← headerFields identity item.truncated columns.length item.rowCount
    (total - headerSize)
  let wire := splice w.buffer 0 header
  match validateResult wire identity limits with
  | .error _ => .error .protocol
  | .ok _ => return wire

/-- `encode_result`. -/
def encodeResult (result : TypedMaskedResult) (identity : ResultIdentity)
    (limits : ResultLimits) : Except EncodeFailure (List UInt8) := do
  let columns ← plan result limits
  run result.masked columns identity limits

end MaskGateway.Pgwire.Encoder
