-- SUMMARY: What can go wrong, from an invalid query to a faulty store, and how it is worded.
import Pushdown.Cell
import Pushdown.Comparison

/-!
# Failures

Each constructor of `Failure` is one cause with what a reader needs to find it. `message` words it,
and `isStoreFault` tells a fault of the data from a mistake in the query. A fault of the data is
never worked around: leaving the rows out would silently change the answer.
-/

namespace Pushdown

/-- Why the file system did not hand out a file. -/
inductive FileProblem
  | notFound
  | notADirectory
  | isADirectory
  | nameTooLong
deriving DecidableEq, Repr

def FileProblem.message : FileProblem → String
  | .notFound => "No such file or directory (os error 2)"
  | .notADirectory => "Not a directory (os error 20)"
  | .isADirectory => "Is a directory (os error 21)"
  | .nameTooLong => "File name too long (os error 36)"

/-- The file formats that a table is read from. -/
inductive Container
  | parquet
  | ipc
deriving DecidableEq, Repr

inductive Failure
  | unknownColumn (column columns : Nat)
  | filterArity (columns operators operands : Nat)
  | unknownOperator (name : String)
  | unsupportedOperator (column : Nat) (op : Comparison) (columnType : ColumnType)
  | unsupportedType (column : Nat) (typeName : String)
  | operandSyntax (column : Nat) (columnType : ColumnType) (operand : String)
  | operandType (columnType : ColumnType)
  | candidateOrder (row previous : Nat)
  | rowOutOfRange (row rows : Nat)
  | rowOrder (row previous : Nat)
  | truncatedSegment (segment requested remaining : Nat)
  | nullValue (segment : Nat)
  | corruptRowCount (segment : Nat) (rows : Int)
  | invalidUtf8 (segment : Nat)
  | rowArity (expected actual : Nat)
  | cellType (column : Nat) (columnType : ColumnType) (cell : Cell)
  | columnLength (column expected actual : Nat)
  | dictionaryIndex (index : UInt32) (size : Nat)
  | file (problem : FileProblem)
  /-- The bytes are not a file of the format; what is wrong with them the format's codec knows. -/
  | unreadable (container : Container)
  /-- The codec of Parquet had the file open and could not read its bytes. -/
  | readInPlace (problem : FileProblem)
  | schemaMismatch (column expected found : String) (batch : Nat)
deriving DecidableEq, Repr

namespace Failure

/-- What stands in a message for the words of a format's codec. -/
def codecWords : String := "<library error>"

def message : Failure → String
  | unknownColumn column columns => s!"unknown column {column} (table has {columns} columns)"
  | filterArity columns operators operands =>
    s!"filter lists differ in length: {columns} columns, {operators} operators, {operands} operands"
  | unknownOperator name => s!"unknown comparison operator: {name}"
  | unsupportedOperator column op columnType =>
    s!"operator {op.name} is not supported on {columnType.name} column {column}"
  | unsupportedType column typeName => s!"column {column} has unsupported physical type {typeName}"
  | operandSyntax column columnType operand =>
    s!"cannot parse operand {Text.quote operand} as {columnType.name} for column {column}"
  | operandType columnType => s!"operand type does not match {columnType.name} column"
  | candidateOrder row previous =>
    s!"candidate rows must be strictly ascending: row {row} follows row {previous}"
  | rowOutOfRange row rows => s!"row {row} is out of range for a column with {rows} rows"
  | rowOrder row previous =>
    s!"row {row} requested after row {previous}; decoders cannot rewind"
  | truncatedSegment segment requested remaining =>
    s!"segment {segment} has {remaining} rows left, {requested} requested"
  | nullValue segment => s!"null value in segment {segment}; nullable values cannot be scanned"
  | corruptRowCount segment rows => s!"row group {segment} reports {rows} rows"
  | invalidUtf8 segment => s!"invalid UTF-8 in segment {segment}"
  | rowArity expected actual => s!"row has {actual} values, schema has {expected} columns"
  | cellType column columnType cell =>
    s!"value {cell.describe} does not fit {columnType.name} column {column}"
  | columnLength column expected actual => s!"column {column} has {actual} rows, expected {expected}"
  | dictionaryIndex index size =>
    s!"dictionary index {index.toNat} is out of range for a dictionary of {size} values"
  | file problem => problem.message
  | unreadable _ => codecWords
  | readInPlace problem => s!"External: {problem.message}: {problem.message}"
  | schemaMismatch column expected found batch =>
    s!"Schema error: column {column}: expected {expected}, found {found} in batch {batch}"

/-- Whether the store is at fault, and not the request. -/
def isStoreFault : Failure → Bool
  | truncatedSegment .. | nullValue .. | invalidUtf8 .. | corruptRowCount .. | dictionaryIndex ..
  | file .. | unreadable .. | readInPlace .. | schemaMismatch .. => true
  | _ => false

end Failure

end Pushdown
