import MaskGateway.Lib.Bytes
import MaskGateway.Lib.Decimal
import MaskGateway.Lib.Except
import MaskGateway.Lib.Utf8

/-!
# `MaskGateway.Pgwire.ResultFrame`: validating a private result frame

`pgwire/result_frame.py`. A frame is a fixed header of 76 bytes and a body of PostgreSQL
messages: one RowDescription (`T`), a DataRow (`D`) per row and a CommandComplete (`C`).

The parser of the source keeps an offset into the frame. Here the cursor is the bytes that are
left: from the offset to the end of the frame between messages, and from the offset to the end of
the message inside one, which is how far the source lets itself read there. `message` splits the
one into the other.

The deadline, the work counter that polls it and the exhaustion of memory are left out: the
functions below are what the source computes when none of them strikes.
-/

set_option autoImplicit false

namespace MaskGateway.Pgwire

open Lib

/-- `ResultErrorCategory`, without the deadline. -/
inductive ResultErrorCategory where
  | protocol
  | limit
  | identity
  deriving DecidableEq

/-! ### Identity and limits -/

/-- `_MAX_EPOCH`. -/
def maxEpoch : Nat := 2 ^ 63 - 1

/-- `_HEADER.size`. -/
def headerSize : Nat := 76

/-- The widths of `struct.Struct("!4sBBH16s16sQQQIII")`. -/
def headerWidths : List Nat := [4, 1, 1, 2, 16, 16, 8, 8, 8, 4, 4, 4]

/-- The widths of `struct.Struct("!IhIhih")`. -/
def columnWidths : List Nat := [4, 2, 4, 2, 4, 2]

/-- `ResultIdentity`: whose result a frame is. -/
structure ResultIdentity where
  sessionId : List UInt8
  datasourceId : List UInt8
  generation : Nat
  recordRevision : Nat
  jobId : Nat
  sessionId_length : sessionId.length = 16
  datasourceId_length : datasourceId.length = 16
  generation_range : 1 ≤ generation ∧ generation ≤ maxEpoch
  recordRevision_range : 1 ≤ recordRevision ∧ recordRevision ≤ maxEpoch
  jobId_range : 1 ≤ jobId ∧ jobId ≤ maxEpoch

/-- `ResultLimits`. -/
structure ResultLimits where
  maxRows : Nat
  maxFrameBytes : Nat
  maxCellBytes : Nat
  maxColumns : Nat
  maxNameBytes : Nat
  maxRows_range : 1 ≤ maxRows ∧ maxRows ≤ 2 ^ 31 - 1
  maxFrameBytes_range : headerSize ≤ maxFrameBytes ∧ maxFrameBytes ≤ 16 * 1024 * 1024
  maxCellBytes_range : 1 ≤ maxCellBytes ∧ maxCellBytes ≤ 1024 * 1024
  maxColumns_range : 1 ≤ maxColumns ∧ maxColumns ≤ 1664
  maxNameBytes_range : 1 ≤ maxNameBytes ∧ maxNameBytes ≤ 256

/-! ### The header -/

/-- `b"MGWR"`. -/
def magicBytes : List UInt8 := [0x4D, 0x47, 0x57, 0x52]

/-- `f"SELECT {rows}\0"`. -/
def commandText (rows : Nat) : List UInt8 :=
  [0x53, 0x45, 0x4C, 0x45, 0x43, 0x54, 0x20] ++ decimal rows ++ [0]

/-- `ResultHeader`. -/
structure ResultHeader where
  frameBytes : Nat
  columns : Nat
  rows : Nat
  truncated : Bool
  deriving DecidableEq

/-- The least body that the declared dimensions allow: empty names and NULL cells. -/
def minimumBody (columns rows : Nat) : Nat :=
  7 + 19 * columns + rows * (7 + 4 * columns) + 5 + (commandText rows).length

/-- `inspect_result_header`. -/
def inspectResultHeader (header : List UInt8) (expected : ResultIdentity)
    (limits : ResultLimits) : Except ResultErrorCategory ResultHeader := do
  refuseIf (header.length ≠ headerSize) .protocol
  match cut headerWidths header with
  | [magic, version, flags, reserved, session, datasource, generation, revision, job, columns,
      rows, body] => do
      refuseIf (magic ≠ magicBytes ∨ ofBytes version ≠ 1 ∨
        ¬ (ofBytes flags = 0 ∨ ofBytes flags = 1) ∨ ofBytes reserved ≠ 0) .protocol
      refuseIf (session ≠ expected.sessionId ∨ datasource ≠ expected.datasourceId ∨
        ofBytes generation ≠ expected.generation ∨ ofBytes revision ≠ expected.recordRevision ∨
        ofBytes job ≠ expected.jobId) .identity
      refuseIf (¬ (1 ≤ ofBytes columns ∧ ofBytes columns ≤ limits.maxColumns) ∨
        ofBytes rows > limits.maxRows) .limit
      refuseIf (ofBytes flags = 1 ∧ ofBytes rows ≠ limits.maxRows) .protocol
      refuseIf (headerSize + ofBytes body > limits.maxFrameBytes) .limit
      refuseIf (ofBytes body < minimumBody (ofBytes columns) (ofBytes rows)) .protocol
      return { frameBytes := headerSize + ofBytes body, columns := ofBytes columns,
               rows := ofBytes rows, truncated := decide (ofBytes flags = 1) }
  | _ => .error .protocol

/-! ### Values -/

/-- `_TYPE_SIZES`. -/
def typeSize (oid : Nat) : Option Int :=
  [(16, 1), (21, 2), (23, 4), (20, 8), (19, 64), (25, -1), (1042, -1), (1043, -1)].lookup oid

/-- `_INTEGER_BITS`. -/
def integerBits (oid : Nat) : Option Nat := [(21, 16), (23, 32), (20, 64)].lookup oid

/-- `_TEXT_TYPES`. -/
def textTypes : List Nat := [19, 25, 1042, 1043]

/-- `_NAME_OID`. -/
def nameOid : Nat := 19

/-- `_NAME_VALUE_BYTES`. -/
def nameValueBytes : Nat := 63

/-- `_TEXT_BLOCK`. -/
def textBlock : Nat := 4096

/-- `bytes.isascii`. -/
def isAscii (piece : List UInt8) : Bool := piece.all fun b => b.toNat < 128

/-- `_decode_block`: the decoder after a block, or nothing on a `UnicodeDecodeError`. The last
block may not stop inside a character. -/
def decodeBlock (decoder : Pending) (view : List UInt8) (final : Bool) : Option Pending :=
  match view.foldlM feed decoder with
  | none => none
  | some decoder => if final && decoder ≠ .ready then none else some decoder

/-- `_short_utf8`. -/
def shortUtf8 (piece : List UInt8) : Bool := (decodeBlock .ready piece true).isSome

/-- The loop of `_Parser.text` over a long value. -/
def textBlocks : Pending → List (List UInt8) → Except ResultErrorCategory Unit
  | _, [] => .ok ()
  | decoder, block :: rest => do
      refuseIf (0 ∈ block) .protocol
      match decodeBlock decoder block rest.isEmpty with
      | none => .error .protocol
      | some decoder => textBlocks decoder rest

/-- `_Parser.text`. -/
def text : List UInt8 → Except ResultErrorCategory Unit
  | [] => .ok ()
  | [b] => refuseIf (¬ (0 < b.toNat ∧ b.toNat < 128)) .protocol
  | piece =>
      if piece.length ≤ textBlock then
        refuseIf (0 ∈ piece ∨ (isAscii piece = false ∧ shortUtf8 piece = false)) .protocol
      else textBlocks .ready (blocks textBlock piece)

/-- One turn of the loop of `_Parser.integer`: the bound is tested before the multiplication. -/
def integerStep (bound value : Int) (b : UInt8) : Except ResultErrorCategory Int := do
  let digit : Int := b.toNat - 0x30
  refuseIf (¬ (0 ≤ digit ∧ digit ≤ 9) ∨ value > (bound - digit) / 10) .protocol
  return value * 10 + digit

/-- `_Parser.integer`, for the width of the type. -/
def integer (piece : List UInt8) (bits : Nat) : Except ResultErrorCategory Unit := do
  refuseIf (¬ (1 ≤ piece.length ∧ piece.length ≤ 20)) .protocol
  let negative := piece.head? == some 0x2D
  let digits := if negative then piece.drop 1 else piece
  refuseIf (digits = [] ∨ (digits.head? = some 0x30 ∧ (negative ∨ digits.length ≠ 1))) .protocol
  let bound : Int := 2 ^ (bits - 1) - (if negative then 0 else 1)
  let _ ← digits.foldlM (integerStep bound) 0

/-- `_Parser.value`. -/
def value (piece : List UInt8) (oid : Nat) : Except ResultErrorCategory Unit :=
  if oid ∈ textTypes then do
    refuseIf (oid = nameOid ∧ piece.length > nameValueBytes) .limit
    text piece
  else
    match integerBits oid with
    | some bits => integer piece bits
    | none => refuseIf (piece.length ≠ 1 ∨
        ¬ (piece.head? = some 0x74 ∨ piece.head? = some 0x66)) .protocol

/-! ### Messages -/

/-- `_Parser.message`: the payload of the next message and the bytes after it. -/
def message (tag : UInt8) (minimum : Nat) (left : List UInt8) :
    Except ResultErrorCategory (List UInt8 × List UInt8) := do
  refuseIf (left.length < 5 ∨ left.head? ≠ some tag) .protocol
  let length := ofBytes ((left.drop 1).take 4)
  refuseIf (length < minimum ∨ 1 + length > left.length) .protocol
  return ((left.drop 5).take (length - 4), left.drop (1 + length))

/-- The fixed fields of a column: its type when they are the expected ones. -/
def columnOid (fields : List UInt8) : Except ResultErrorCategory Nat :=
  match cut columnWidths fields with
  | [table, attr, oid, size, modifier, fmt] => do
      refuseIf (ofBytes table ≠ 0 ∨ signedOfBytes attr ≠ 0 ∨
        typeSize (ofBytes oid) ≠ some (signedOfBytes size) ∨ signedOfBytes modifier ≠ -1 ∨
        signedOfBytes fmt ≠ 0) .protocol
      return ofBytes oid
  | _ => .error .protocol

/-- The loop of `_Parser.description`: the types of `count` columns and the bytes after them. -/
def descriptionColumns (limits : ResultLimits) :
    (count : Nat) → List UInt8 → Except ResultErrorCategory (List Nat × List UInt8)
  | 0, left => .ok ([], left)
  | count + 1, left =>
      match (left.take (limits.maxNameBytes + 1)).findIdx? (· == 0) with
      | none => .error .limit
      | some nameEnd => do
          text (left.take nameEnd)
          let left := left.drop (nameEnd + 1)
          refuseIf (left.length < 18) .protocol
          let oid ← columnOid (left.take 18)
          let (oids, left) ← descriptionColumns limits count (left.drop 18)
          return (oid :: oids, left)

/-- `_Parser.description`: the types of the columns and the bytes after the message. -/
def description (limits : ResultLimits) (columns : Nat) (left : List UInt8) :
    Except ResultErrorCategory (List Nat × List UInt8) := do
  let (payload, left) ← message 0x54 (6 + 19 * columns) left
  refuseIf (ofBytes (payload.take 2) ≠ columns) .protocol
  let (oids, unread) ← descriptionColumns limits columns (payload.drop 2)
  refuseIf (unread ≠ []) .protocol
  return (oids, left)

/-- The inner loop of `_Parser.data_rows`: the bytes of a row after its cells. -/
def dataCells (limits : ResultLimits) :
    (oids : List Nat) → List UInt8 → Except ResultErrorCategory (List UInt8)
  | [], left => .ok left
  | oid :: oids, left => do
      refuseIf (left.length < 4) .protocol
      let length := signedOfBytes (left.take 4)
      let left := left.drop 4
      if length = -1 then dataCells limits oids left
      else do
        refuseIf (length < 0 ∨ length > left.length) .protocol
        refuseIf (length > limits.maxCellBytes) .limit
        value (left.take length.toNat) oid
        dataCells limits oids (left.drop length.toNat)

/-- The outer loop of `_Parser.data_rows`. -/
def dataRows (limits : ResultLimits) (oids : List Nat) :
    (rows : Nat) → List UInt8 → Except ResultErrorCategory (List UInt8)
  | 0, left => .ok left
  | rows + 1, left => do
      let (payload, left) ← message 0x44 (6 + 4 * oids.length) left
      refuseIf (ofBytes (payload.take 2) ≠ oids.length) .protocol
      let unread ← dataCells limits oids (payload.drop 2)
      refuseIf (unread ≠ []) .protocol
      dataRows limits oids rows left

/-! ### The frame -/

/-- `ValidatedResult`. -/
structure ValidatedResult where
  wire : List UInt8
  columns : Nat
  rows : Nat
  truncated : Bool
  deriving DecidableEq

/-- `_Parser.run`, on a frame whose header was inspected. -/
def run (raw : List UInt8) (limits : ResultLimits) (header : ResultHeader) :
    Except ResultErrorCategory ValidatedResult := do
  let (oids, left) ← description limits header.columns (raw.drop headerSize)
  let command := commandText header.rows
  refuseIf (header.rows * (7 + 4 * header.columns) + (5 + command.length) > left.length) .protocol
  let left ← dataRows limits oids header.rows left
  let (payload, left) ← message 0x43 (4 + command.length) left
  refuseIf (payload.length ≠ command.length ∨ payload ≠ command) .protocol
  refuseIf (left ≠ []) .protocol
  return { wire := raw, columns := header.columns, rows := header.rows,
           truncated := header.truncated }

/-- `validate_result`. -/
def validateResult (raw : List UInt8) (expected : ResultIdentity) (limits : ResultLimits) :
    Except ResultErrorCategory ValidatedResult := do
  refuseIf (¬ (headerSize ≤ raw.length ∧ raw.length ≤ limits.maxFrameBytes)) .limit
  let header ← inspectResultHeader (raw.take headerSize) expected limits
  refuseIf (header.frameBytes ≠ raw.length) .protocol
  run raw limits header

end MaskGateway.Pgwire
