-- SUMMARY: Columns held in memory, chunk by chunk.
import Pushdown.Column
import Pushdown.Memory.Chunk

/-!
# Columns in memory

A column is a list of chunks, which may differ in length and may be empty. One whose type cannot be
scanned keeps its place with its type's name and its number of rows. The keys of a dictionary column
are checked when it is made.
-/

namespace Pushdown

inductive ColumnChunks
  | float64 (chunks : List (List Binary64))
  | int32 (chunks : List (List Int32))
  | utf8 (chunks : List (List String))
  | dictionary (chunks : List (List UInt32)) (dictionary : Dictionary)
  | unsupported (typeName : String) (rows : Nat)
deriving DecidableEq, Repr

namespace ColumnChunks

/-- The physical type, if the column can be scanned. -/
def columnType? : ColumnChunks → Option ColumnType
  | .float64 _ => some .float64
  | .int32 _ => some .int32
  | .utf8 _ => some .utf8
  | .dictionary .. => some .dictionary
  | .unsupported .. => none

/-- The number of rows in each chunk. A column that cannot be scanned counts as one. -/
def chunkSizes : ColumnChunks → List Nat
  | .float64 chunks => chunks.map List.length
  | .int32 chunks => chunks.map List.length
  | .utf8 chunks => chunks.map List.length
  | .dictionary chunks _ => chunks.map List.length
  | .unsupported _ rows => [rows]

/-- The column as segments, or the name of the type that stands in the way. -/
def source : ColumnChunks → Except String (Column ChunkDecoder)
  | .float64 chunks => .ok (.float64 (.ofChunks chunks))
  | .int32 chunks => .ok (.int32 (.ofChunks chunks))
  | .utf8 chunks => .ok (.utf8 (.ofChunks chunks))
  | .dictionary chunks texts => .ok (.dictionary (.ofChunks chunks) texts)
  | .unsupported typeName _ => .error typeName

end ColumnChunks

structure MemoryColumn where
  name : String
  data : ColumnChunks
deriving DecidableEq, Repr

namespace MemoryColumn

/-- A dictionary column, if every key is a position in the dictionary. -/
def ofDictionary (name : String) (chunks : List (List UInt32)) (dictionary : Dictionary) :
    Except Failure MemoryColumn :=
  match chunks.flatten.find? fun key => dictionary.size ≤ key.toNat with
  | some key => .error (.dictionaryIndex key dictionary.size)
  | none => .ok { name, data := .dictionary chunks dictionary }

def columnType? (c : MemoryColumn) : Option ColumnType := c.data.columnType?

def chunkSizes (c : MemoryColumn) : List Nat := c.data.chunkSizes

def rows (c : MemoryColumn) : Nat := c.chunkSizes.foldr (· + ·) 0

def isEmpty (c : MemoryColumn) : Bool := c.rows = 0

def dictionary? (c : MemoryColumn) : Option Dictionary :=
  match c.data with
  | .dictionary _ texts => some texts
  | _ => none

end MemoryColumn

end Pushdown
