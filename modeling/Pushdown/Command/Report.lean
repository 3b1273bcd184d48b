-- SUMMARY: The reports that the commands print.
import Pushdown.Command.Json
import Pushdown.Column

/-!
# Reports

What a command found, and its text: one JSON object with the fields in the order of the structure.
-/

namespace Pushdown.Command

/-- A condition and what it left. -/
structure NarrowingEntry where
  column : Nat
  name : String
  op : String
  operand : String
  candidates : Nat
  skipped : Bool
deriving DecidableEq, Repr

structure ProjectionEntry where
  column : Nat
  name : String
  values : Values
deriving DecidableEq, Repr

structure QueryReport where
  input : String
  backing : String
  totalRows : Nat
  matchedRows : Nat
  narrowings : List NarrowingEntry
  columns : List ProjectionEntry
deriving DecidableEq, Repr

structure ColumnEntry where
  column : Nat
  name : String
  type : String
  segments : List Nat
deriving DecidableEq, Repr

structure TableReport where
  input : String
  backing : String
  rows : Nat
  columns : List ColumnEntry
deriving DecidableEq, Repr

/-! ## Text -/

def valuesText : Values → String
  | .float64 values => Json.array (values.map Json.float)
  | .int32 values => Json.array (values.map fun n => Json.int n.toInt)
  | .utf8 values => Json.array (values.map Json.string)
  | .dictionaryKeys keys => Json.array (keys.map fun key => Json.nat key.toNat)

def NarrowingEntry.text (e : NarrowingEntry) : String :=
  Json.object [
    ("column", Json.nat e.column),
    ("name", Json.string e.name),
    ("op", Json.string e.op),
    ("operand", Json.string e.operand),
    ("candidates", Json.nat e.candidates),
    ("skipped", Json.bool e.skipped)]

def ProjectionEntry.text (e : ProjectionEntry) : String :=
  Json.object [
    ("column", Json.nat e.column),
    ("name", Json.string e.name),
    ("values", valuesText e.values)]

def QueryReport.text (r : QueryReport) : String :=
  Json.object [
    ("input", Json.string r.input),
    ("backing", Json.string r.backing),
    ("total_rows", Json.nat r.totalRows),
    ("matched_rows", Json.nat r.matchedRows),
    ("filters", Json.array (r.narrowings.map NarrowingEntry.text)),
    ("columns", Json.array (r.columns.map ProjectionEntry.text))]

def ColumnEntry.text (e : ColumnEntry) : String :=
  Json.object [
    ("column", Json.nat e.column),
    ("name", Json.string e.name),
    ("type", Json.string e.type),
    ("segments", Json.array (e.segments.map Json.nat))]

def TableReport.text (r : TableReport) : String :=
  Json.object [
    ("input", Json.string r.input),
    ("backing", Json.string r.backing),
    ("rows", Json.nat r.rows),
    ("columns", Json.array (r.columns.map ColumnEntry.text))]

end Pushdown.Command
