import MaskGateway.Proofs.Pgwire.Values

/-!
# `MaskGateway.Proofs.Pgwire.Wire`: the frame of a table

What a frame is for, without offsets, buffers or running totals: a `Table` of named and typed
columns, rows of cells and the truncation mark, and its bytes as one expression. The encoder
computes the size of the frame before it writes it; `length_frameWire` says that the sum is the
length.
-/

set_option autoImplicit false

namespace MaskGateway.Proofs.Pgwire

open Lib MaskGateway.Db MaskGateway.Pgwire

/-- What a result frame says. -/
structure Table where
  truncated : Bool
  /-- name and type of each column -/
  columns : List (Name × Nat)
  rows : List (List Cell)
  deriving DecidableEq

/-- The types of the columns. -/
def Table.oids (t : Table) : List Nat := t.columns.map Prod.snd

/-! ### The bytes -/

/-- A message: its tag, its length with the length itself counted, its payload. -/
def framed (tag : UInt8) (payload : List UInt8) : List UInt8 :=
  tag :: (toBytes 4 (4 + payload.length) ++ payload)

/-- A column of the RowDescription. -/
def columnWire (column : Name × Nat) : List UInt8 :=
  utf8 column.1 ++ 0 :: Encoder.columnFields column.2 ((typeSize column.2).getD 0)

/-- A cell of a DataRow. -/
def cellWire (cell : Cell) : List UInt8 :=
  match content cell with
  | none => signedToBytes 4 (-1)
  | some bytes => signedToBytes 4 bytes.length ++ bytes

/-- The RowDescription. -/
def descriptionWire (columns : List (Name × Nat)) : List UInt8 :=
  framed 0x54 (toBytes 2 columns.length ++ columns.flatMap columnWire)

/-- A DataRow. -/
def rowWire (width : Nat) (row : List Cell) : List UInt8 :=
  framed 0x44 (toBytes 2 width ++ row.flatMap cellWire)

/-- The body of a frame. -/
def Table.bodyWire (t : Table) : List UInt8 :=
  descriptionWire t.columns ++ t.rows.flatMap (rowWire t.columns.length) ++
    framed 0x43 (commandText t.rows.length)

/-- The header of a frame. -/
def headerWire (identity : ResultIdentity) (truncated : Bool) (columns rows body : Nat) :
    List UInt8 :=
  [magicBytes, toBytes 1 1, toBytes 1 truncated.toNat, toBytes 2 0, identity.sessionId,
    identity.datasourceId, toBytes 8 identity.generation, toBytes 8 identity.recordRevision,
    toBytes 8 identity.jobId, toBytes 4 columns, toBytes 4 rows, toBytes 4 body].flatten

/-- The frame of a table. -/
def frameWire (identity : ResultIdentity) (t : Table) : List UInt8 :=
  headerWire identity t.truncated t.columns.length t.rows.length t.bodyWire.length ++ t.bodyWire

/-! ### What fits -/

/-- The bytes that a cell takes after its length. -/
def contentLength (cell : Cell) : Nat := ((content cell).getD []).length

/-- The size of the frame, as the sum of its parts. -/
def Table.size (t : Table) : Nat :=
  headerSize + 7 + (t.columns.map fun column => 19 + (utf8 column.1).length).sum +
    (5 + (commandText t.rows.length).length) +
    (t.rows.map fun row => 7 + (row.map fun cell => 4 + contentLength cell).sum).sum

/-- A column that can be described: a name without `U+0000` that is not too long, a known type. -/
structure ColumnFits (limits : ResultLimits) (column : Name × Nat) : Prop where
  plain : '\x00' ∉ column.1
  length_le : (utf8 column.1).length ≤ limits.maxNameBytes
  known : (typeSize column.2).isSome

/-- The names, cells, rows and total size are within the limits, each value is one that the type
of its column has, and the table is marked as truncated only when it is full. -/
structure Table.Fits (limits : ResultLimits) (t : Table) : Prop where
  columns_pos : 1 ≤ t.columns.length
  columns_le : t.columns.length ≤ limits.maxColumns
  rows_le : t.rows.length ≤ limits.maxRows
  column : ∀ column ∈ t.columns, ColumnFits limits column
  row : ∀ row ∈ t.rows, List.Forall₂ (CellFits limits) t.oids row
  full : t.truncated = true → t.rows.length = limits.maxRows
  size_le : t.size ≤ limits.maxFrameBytes

/-! ### Lengths -/

@[simp] theorem length_framed (tag : UInt8) (payload : List UInt8) :
    (framed tag payload).length = 5 + payload.length := by
  simp only [framed, List.length_cons, List.length_append, length_toBytes]
  omega

@[simp] theorem length_columnFields (oid : Nat) (size : Int) :
    (Encoder.columnFields oid size).length = 18 := by
  simp [Encoder.columnFields]

theorem length_columnWire (column : Name × Nat) :
    (columnWire column).length = 19 + (utf8 column.1).length := by
  simp only [columnWire, List.length_append, List.length_cons, length_columnFields]
  omega

theorem length_cellWire (cell : Cell) : (cellWire cell).length = 4 + contentLength cell := by
  rw [cellWire, contentLength]
  cases content cell with
  | none => rfl
  | some bytes => simp

theorem length_rowWire (width : Nat) (row : List Cell) :
    (rowWire width row).length = 7 + (row.map fun cell => 4 + contentLength cell).sum := by
  rw [rowWire, length_framed, List.length_append, length_toBytes, List.length_flatMap]
  simp only [length_cellWire]
  omega

@[simp] theorem length_headerWire (identity : ResultIdentity) (truncated : Bool)
    (columns rows body : Nat) : (headerWire identity truncated columns rows body).length = 76 := by
  simp [headerWire, magicBytes, identity.sessionId_length, identity.datasourceId_length]

theorem length_bodyWire (t : Table) : headerSize + t.bodyWire.length = t.size := by
  simp only [Table.bodyWire, descriptionWire, Table.size, List.length_append, length_framed,
    length_toBytes, List.length_flatMap, length_columnWire, length_rowWire]
  omega

/-- The size is the length of the frame. -/
theorem length_frameWire (identity : ResultIdentity) (t : Table) :
    (frameWire identity t).length = t.size := by
  rw [frameWire, List.length_append, length_headerWire, ← length_bodyWire]
  rfl

/-- The first part of a frame is its header. -/
theorem take_frameWire (identity : ResultIdentity) (t : Table) :
    (frameWire identity t).take headerSize = headerWire identity t.truncated t.columns.length
      t.rows.length t.bodyWire.length :=
  List.take_left' (length_headerWire ..)

/-- The rest is the body. -/
theorem drop_frameWire (identity : ResultIdentity) (t : Table) :
    (frameWire identity t).drop headerSize = t.bodyWire :=
  List.drop_left' (length_headerWire ..)

/-- The types of a table that fits are known. -/
theorem Table.Fits.known {limits : ResultLimits} {t : Table} (h : t.Fits limits) :
    ∀ oid ∈ t.oids, (typeSize oid).isSome := by
  intro oid hoid
  obtain ⟨column, hmem, rfl⟩ := List.mem_map.mp hoid
  exact (h.column column hmem).known

/-- A cell takes four bytes at least. -/
theorem le_length_cells (row : List Cell) :
    4 * row.length ≤ (row.flatMap cellWire).length := by
  induction row with
  | nil => exact Nat.le_refl 0
  | cons cell row ih =>
      rw [List.flatMap_cons, List.length_append, List.length_cons, length_cellWire]
      omega

/-- A column takes nineteen bytes at least. -/
theorem le_length_columns (columns : List (Name × Nat)) :
    19 * columns.length ≤ (columns.flatMap columnWire).length := by
  induction columns with
  | nil => exact Nat.le_refl 0
  | cons column columns ih =>
      rw [List.flatMap_cons, List.length_append, List.length_cons, length_columnWire]
      omega

/-- Rows of this width take this many bytes at least. -/
theorem le_length_rows {width : Nat} {rows : List (List Cell)}
    (h : ∀ row ∈ rows, row.length = width) :
    rows.length * (7 + 4 * width) ≤ (rows.flatMap (rowWire width)).length := by
  induction rows with
  | nil =>
      rw [List.length_nil, Nat.zero_mul]
      exact Nat.zero_le _
  | cons row rows ih =>
      rw [List.forall_mem_cons] at h
      have hrow : 7 + 4 * width ≤ (rowWire width row).length := by
        rw [rowWire, length_framed, List.length_append, length_toBytes]
        have := le_length_cells row
        omega
      rw [List.flatMap_cons, List.length_append, List.length_cons, Nat.succ_mul]
      have := ih h.2
      omega

/-- The rows of a table that fits are as wide as the table. -/
theorem Table.Fits.row_length {limits : ResultLimits} {t : Table} (h : t.Fits limits) :
    ∀ row ∈ t.rows, row.length = t.columns.length := by
  intro row hrow
  rw [← (h.row row hrow).length_eq, Table.oids, List.length_map]

/-- The least body that the header asks for is not more than the body. -/
theorem minimumBody_le {limits : ResultLimits} {t : Table} (h : t.Fits limits) :
    minimumBody t.columns.length t.rows.length ≤ t.bodyWire.length := by
  have hcolumns := le_length_columns t.columns
  have hrows := le_length_rows h.row_length
  simp only [minimumBody, Table.bodyWire, descriptionWire, List.length_append, length_framed,
    length_toBytes]
  omega

end MaskGateway.Proofs.Pgwire
