-- SUMMARY: A column by its physical type, and filtering and projecting it.
import Pushdown.Dictionary
import Pushdown.Predicate
import Pushdown.Segments.Walk

/-!
# Columns

A `Column` is its segments tagged with its type; `δ` gives the decoder state that the store uses
for each type of value. A filter narrows the candidates by one column and a projection collects its
values at them.

In a dictionary column the operand of a filter is translated to a key once, and keys are compared
instead of texts. An operand that the dictionary does not hold matches no row, and the column is not
touched.
-/

namespace Pushdown

inductive Column (δ : Type → Type)
  | float64 (segments : Segments (δ Binary64) Binary64)
  | int32 (segments : Segments (δ Int32) Int32)
  | utf8 (segments : Segments (δ String) String)
  | dictionary (keys : Segments (δ UInt32) UInt32) (dictionary : Dictionary)

/-- How the values of a dictionary column are handed out. -/
inductive DictionaryForm
  | keys
  | strings
deriving DecidableEq, Repr

instance : Inhabited DictionaryForm := ⟨.strings⟩

/-- The values of one column at some rows, in row order. -/
inductive Values
  | float64 (values : List Binary64)
  | int32 (values : List Int32)
  | utf8 (values : List String)
  | dictionaryKeys (keys : List UInt32)
deriving DecidableEq, Repr

namespace Values

def size : Values → Nat
  | .float64 values => values.length
  | .int32 values => values.length
  | .utf8 values => values.length
  | .dictionaryKeys keys => keys.length

def isEmpty (v : Values) : Bool := v.size = 0

/-- No values, of the kind that a column of the type gives. -/
def none : ColumnType → DictionaryForm → Values
  | .float64, _ => .float64 []
  | .int32, _ => .int32 []
  | .utf8, _ => .utf8 []
  | .dictionary, .strings => .utf8 []
  | .dictionary, .keys => .dictionaryKeys []

end Values

/-- What a stage made of its column, and the calls it made on it. -/
structure Stage (β : Type) where
  result : Except Failure β
  calls : List Access

namespace Stage

variable {β γ : Type}

/-- A stage that is settled without a call. -/
def settled (result : Except Failure β) : Stage β := ⟨result, []⟩

def bind (s : Stage β) (f : β → Except Failure γ) : Stage γ := ⟨s.result.bind f, s.calls⟩

end Stage

/-! ## Stages over segments -/

namespace Segments

variable {δ α : Type}

/-- The candidates whose value passes the test. -/
def filter (segments : Segments δ α) (incoming : Candidates) (test : α → Bool) :
    Stage Candidates :=
  let walk := segments.walk incoming
  ⟨walk.keep test, walk.calls⟩

/-- The values at the candidates. -/
def project (segments : Segments δ α) (incoming : Candidates) : Stage (List α) :=
  let walk := segments.walk incoming
  ⟨walk.values, walk.calls⟩

end Segments

/-! ## Stages over a column -/

namespace Column

variable {δ : Type → Type}

def columnType : Column δ → ColumnType
  | .float64 _ => .float64
  | .int32 _ => .int32
  | .utf8 _ => .utf8
  | .dictionary .. => .dictionary

/-- Narrow the candidates to those that satisfy the predicate. A comparison that does not suit the
    column is refused whatever the candidates are. -/
def filter (column : Column δ) (predicate : Predicate) (incoming : Candidates) :
    Stage Candidates :=
  if !Predicate.suits predicate.op column.columnType then
    .settled (.error (.unsupportedOperator predicate.column predicate.op column.columnType))
  else if incoming.isEmpty then .settled (.ok .empty)
  else
    match column, predicate.operand with
    | .float64 segments, .float64 operand => segments.filter incoming (predicate.op.holds · operand)
    | .int32 segments, .int32 operand => segments.filter incoming (predicate.op.holds · operand)
    | .utf8 segments, .utf8 operand => segments.filter incoming (predicate.op.holds · operand)
    | .dictionary keys texts, .utf8 operand =>
      match texts.keyOf? operand with
      | none => .settled (.ok .empty)
      | some key => keys.filter incoming (predicate.op.holds · key)
    | column, _ => .settled (.error (.operandType column.columnType))

/-- The values at the candidates. The keys of a dictionary column are resolved after the walk. -/
def project (column : Column δ) (incoming : Candidates) (form : DictionaryForm) :
    Stage Values :=
  if incoming.isEmpty then .settled (.ok (.none column.columnType form))
  else
    match column with
    | .float64 segments => (segments.project incoming).bind fun values => .ok (.float64 values)
    | .int32 segments => (segments.project incoming).bind fun values => .ok (.int32 values)
    | .utf8 segments => (segments.project incoming).bind fun values => .ok (.utf8 values)
    | .dictionary keys texts =>
      (keys.project incoming).bind fun keys =>
        match form with
        | .keys => .ok (.dictionaryKeys keys)
        | .strings => (keys.mapM texts.textOf).map .utf8

end Column

end Pushdown
