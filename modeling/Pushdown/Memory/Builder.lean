-- SUMMARY: Building a table in memory row by row.
import Pushdown.Memory.Table

/-!
# Building tables

A builder takes rows one at a time and cuts the current chunk of every column when it is full or when
asked to. A row is checked against the schema before anything is written, so a rejected row leaves the
builder as it was. The texts of a dictionary column get their keys as they come in.
-/

namespace Pushdown

/-- The closed chunks of a column and the one being filled. -/
structure ChunkBuffer (α : Type) where
  closed : Array (List α) := #[]
  current : Array α := #[]

namespace ChunkBuffer

variable {α : Type}

def push (b : ChunkBuffer α) (value : α) : ChunkBuffer α :=
  { b with current := b.current.push value }

/-- Close the current chunk, unless it is empty. -/
def cut (b : ChunkBuffer α) : ChunkBuffer α :=
  if b.current.isEmpty then b else { closed := b.closed.push b.current.toList }

def toChunks (b : ChunkBuffer α) : List (List α) := b.cut.closed.toList

end ChunkBuffer

inductive ColumnBuffer
  | float64 (chunks : ChunkBuffer Binary64)
  | int32 (chunks : ChunkBuffer Int32)
  | utf8 (chunks : ChunkBuffer String)
  | dictionary (keys : ChunkBuffer UInt32) (interner : Interner)

namespace ColumnBuffer

def new : ColumnType → ColumnBuffer
  | .float64 => .float64 {}
  | .int32 => .int32 {}
  | .utf8 => .utf8 {}
  | .dictionary => .dictionary {} .empty

/-- Write a cell that fits the column; any other leaves it alone. -/
def push : ColumnBuffer → Cell → ColumnBuffer
  | .float64 chunks, .float64 x => .float64 (chunks.push x)
  | .int32 chunks, .int32 n => .int32 (chunks.push n)
  | .utf8 chunks, .utf8 s => .utf8 (chunks.push s)
  | .dictionary keys interner, .utf8 s =>
    let (key, interner) := interner.intern s
    .dictionary (keys.push key) interner
  | b, _ => b

def cut : ColumnBuffer → ColumnBuffer
  | .float64 chunks => .float64 chunks.cut
  | .int32 chunks => .int32 chunks.cut
  | .utf8 chunks => .utf8 chunks.cut
  | .dictionary keys interner => .dictionary keys.cut interner

def toData : ColumnBuffer → ColumnChunks
  | .float64 chunks => .float64 chunks.toChunks
  | .int32 chunks => .int32 chunks.toChunks
  | .utf8 chunks => .utf8 chunks.toChunks
  | .dictionary keys interner => .dictionary keys.toChunks interner.toDictionary

end ColumnBuffer

structure TableBuilder where
  schema : List ColumnHeader
  /-- The number of rows at which a chunk is full. -/
  chunkRows : Nat
  columns : List ColumnBuffer
  /-- The number of rows accepted so far. -/
  rows : Nat
  /-- The number of rows in the current chunk. -/
  fill : Nat

namespace TableBuilder

def defaultChunkRows : Nat := 65536

/-- An empty table. A chunk holds at least one row. -/
def new (schema : List ColumnHeader) (chunkRows : Nat := defaultChunkRows) : TableBuilder where
  schema := schema
  chunkRows := max chunkRows 1
  columns := schema.map fun column => .new column.columnType
  rows := 0
  fill := 0

/-- Close the current chunk. Without rows since the last cut there is nothing to close. -/
def cut (b : TableBuilder) : TableBuilder :=
  if b.fill = 0 then b else { b with columns := b.columns.map .cut, fill := 0 }

/-- Why a row does not fit the schema. -/
def rejection? (schema : List ColumnHeader) (row : List Cell) : Option Failure :=
  if row.length ≠ schema.length then some (.rowArity schema.length row.length)
  else
    ((schema.zip row).zipIdx.find? fun ((column, cell), _) => !cell.fits column.columnType).map
      fun ((column, cell), position) => .cellType position column.columnType cell

/-- Write a row that fits the schema. -/
def write (b : TableBuilder) (row : List Cell) : TableBuilder :=
  let b := { b with
    columns := List.zipWith .push b.columns row
    rows := b.rows + 1
    fill := b.fill + 1 }
  if b.fill = b.chunkRows then b.cut else b

/-- Append a row, or say why it is rejected. -/
def append (row : List Cell) (b : TableBuilder) : Except Failure Unit × TableBuilder :=
  match rejection? b.schema row with
  | some e => (.error e, b)
  | none => (.ok (), b.write row)

def finish (b : TableBuilder) : MemoryTable :=
  let b := b.cut
  { columns := List.zipWith (fun column builder => ⟨column.name, builder.toData⟩) b.schema b.columns
    rows := b.rows }

end TableBuilder

end Pushdown
