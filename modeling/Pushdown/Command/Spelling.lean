-- SUMMARY: Reading the columns and conditions that a command spells out.
import Pushdown.Decimal.Numeral
import Pushdown.Query
import Pushdown.Table

/-!
# Columns and conditions in arguments

A command names a column by its name or, where no column has that name, by its position. A condition
is written `COLUMN:OPERATOR:OPERAND`; the operand is all that follows the second colon, further colons
included.
-/

namespace Pushdown.Command

inductive SpellingError
  | noColumn (name : String)
  | conditionForm (text : String)
  | operator (text : String) (cause : Failure)
deriving DecidableEq, Repr

def SpellingError.message : SpellingError → String
  | .noColumn name => s!"no column named {Text.quote name}"
  | .conditionForm text => s!"filter {Text.quote text} is not of the form COL:OP:OPERAND"
  | .operator text cause => s!"filter {Text.quote text}: {cause.message}"

/-! ## The parts of a condition -/

/-- The text before the first colon and the text after it. -/
def splitColon? (cs : List Char) : Option (List Char × List Char) :=
  match cs.span (· ≠ ':') with
  | (before, _ :: after) => some (before, after)
  | (_, []) => none

/-- The column, the operator and the operand. -/
def splitCondition? (text : String) : Option (String × String × String) := do
  let (column, rest) ← splitColon? text.toList
  let (op, operand) ← splitColon? rest
  return (String.ofList column, String.ofList op, String.ofList operand)

/-! ## Reading against a table -/

variable {δ : Type → Type}

/-- The position of the first column of the name, or else the position that the text spells. -/
def findColumn (table : Table δ) (name : String) : Except SpellingError Nat :=
  match (List.range table.columnCount).find? fun column => table.columnName? column = some name with
  | some column => .ok column
  | none =>
    match Decimal.natural? UInt64.size name.toList with
    | some column => .ok column
    | none => .error (.noColumn name)

/-- Read a condition. Its column is looked for before its operator is looked at. -/
def readCondition (table : Table δ) (text : String) : Except SpellingError Condition :=
  match splitCondition? text with
  | none => .error (.conditionForm text)
  | some (name, op, operand) => do
    let column ← findColumn table name
    (Condition.ofName column op operand).mapError (.operator text)

/-- The query that projections and conditions spell, projections first. -/
def readQuery (table : Table δ) (projections conditions : List String) :
    Except SpellingError Query := do
  let projections ← projections.mapM (findColumn table)
  let conditions ← conditions.mapM (readCondition table)
  return { projections, conditions }

end Pushdown.Command
