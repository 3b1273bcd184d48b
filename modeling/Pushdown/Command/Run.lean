-- SUMMARY: Carrying out a command: its report, its errors, and what it prints.
import Pushdown.Answer
import Pushdown.Command.Arguments
import Pushdown.Command.Files
import Pushdown.Command.Report
import Pushdown.Command.Spelling

/-!
# Running commands

A command picks where the table is scanned, opens or loads the file, and makes a report. An error says
which step it stopped at. The outcome is an exit code with the two texts to print: the report and code
0, the error and code 1, or code 2 for arguments that form no command.
-/

namespace Pushdown.Command

inductive CommandError
  | ipcOnDisk (path : String)
  | dictionaryStringsOnDisk
  | opening (path : String) (cause : Failure)
  | loading (path : String) (cause : Failure)
  | spelling (cause : SpellingError)
  | scanning (path : String) (cause : Failure)
  | describing (cause : Failure)
deriving DecidableEq, Repr

def CommandError.message : CommandError → String
  | .ipcOnDisk path => s!"{path} is an Arrow IPC file; only `--backing memory` is supported"
  | .dictionaryStringsOnDisk => "--dictionary-strings only applies to `--backing memory`"
  | .opening path cause => s!"open {path}: {cause.message}"
  | .loading path cause => s!"load {path}: {cause.message}"
  | .spelling cause => cause.message
  | .scanning path cause => s!"scan {path}: {cause.message}"
  | .describing cause => cause.message

/-- Whether the message ends in the words of a format's codec, which bring their own line end. -/
def CommandError.endsInCodecWords : CommandError → Bool
  | .opening _ (.unreadable _) | .loading _ (.unreadable _) => true
  | _ => false

/-! ## Tables -/

/-- A Parquet file is scanned in place unless memory is asked for, an Arrow IPC file always in
    memory. -/
def backingFor (path : String) (requested : Option Backing) : Except CommandError Backing :=
  if isIpcPath path then
    if requested = some .disk then .error (.ipcOnDisk path) else .ok .memory
  else .ok (requested.getD .disk)

def openTable (store : FileStore) (path : String) : Except CommandError Parquet.FileTable :=
  (openParquet store path).mapError (.opening path)

def loadTable (store : FileStore) (path : String) (settings : LoadSettings) :
    Except CommandError MemoryTable :=
  (if isIpcPath path then loadIpc store path settings
    else loadParquet store path settings).mapError (.loading path)

/-! ## Reports -/

variable {δ : Type → Type}

def nameOf (table : Table δ) (column : Nat) : String := (table.columnName? column).getD ""

def NarrowingEntry.of (table : Table δ) (n : Narrowing) : NarrowingEntry where
  column := n.condition.column
  name := nameOf table n.condition.column
  op := n.condition.op.name
  operand := n.condition.operand
  candidates := n.candidates
  skipped := n.skipped

def ProjectionEntry.of (table : Table δ) (p : Projection) : ProjectionEntry where
  column := p.column
  name := nameOf table p.column
  values := p.values

/-- Whether a scan hands out keys or texts. -/
def dictionaryForm (arguments : ScanArguments) : DictionaryForm :=
  if arguments.dictionaryIndices then .keys else .strings

/-- Scan a table and report the answer. -/
def reportQuery (table : Table δ) (arguments : ScanArguments) (backing : Backing) :
    Except CommandError QueryReport := do
  let query ← (readQuery table arguments.projections arguments.conditions).mapError .spelling
  let answer ←
    (table.scan query (dictionaryForm arguments)).mapError (.scanning arguments.input)
  return {
    input := arguments.input
    backing := backing.name
    totalRows := table.rows
    matchedRows := answer.rows
    narrowings := answer.narrowings.map (.of table)
    columns := answer.columns.map (.of table) }

/-- The type of a column as a report shows it. One that cannot be scanned is no error here. -/
def typeText (table : Table δ) (column : Nat) : Except Failure String :=
  match table.columnType column with
  | .ok columnType => .ok columnType.name
  | .error (.unsupportedType _ typeName) => .ok s!"unsupported ({typeName})"
  | .error e => .error e

def reportColumn (table : Table δ) (column : Nat) : Except Failure ColumnEntry := do
  let type ← typeText table column
  let segments ← table.segmentSizes column
  return { column, name := nameOf table column, type, segments }

/-- Report what a table is made of. -/
def reportTable (table : Table δ) (input : String) (backing : Backing) :
    Except CommandError TableReport := do
  let columns ← ((List.range table.columnCount).mapM (reportColumn table)).mapError .describing
  return { input, backing := backing.name, rows := table.rows, columns }

/-! ## Commands -/

def loadSettings (arguments : ScanArguments) : LoadSettings :=
  { dictionaryStrings := arguments.dictionaryStrings
    batchSize := arguments.batchSize.getD LoadSettings.default.batchSize }

def runScan (store : FileStore) (arguments : ScanArguments) : Except CommandError QueryReport := do
  match ← backingFor arguments.input arguments.backing with
  | .disk =>
    if arguments.dictionaryStrings then throw .dictionaryStringsOnDisk
    let table ← openTable store arguments.input
    reportQuery table.toTable arguments .disk
  | .memory =>
    let table ← loadTable store arguments.input (loadSettings arguments)
    reportQuery table.toTable arguments .memory

def runInfo (store : FileStore) (arguments : InfoArguments) : Except CommandError TableReport := do
  match ← backingFor arguments.input arguments.backing with
  | .disk =>
    let table ← openTable store arguments.input
    reportTable table.toTable arguments.input .disk
  | .memory =>
    let table ← loadTable store arguments.input .default
    reportTable table.toTable arguments.input .memory

/-! ## Outcomes -/

structure Outcome where
  code : Nat
  stdout : String
  stderr : String
deriving DecidableEq, Repr

def Outcome.ofReport : Except CommandError String → Outcome
  | .ok text => ⟨0, text ++ "\n", ""⟩
  | .error e => ⟨1, "", "error: " ++ e.message ++ if e.endsInCodecWords then "" else "\n"⟩

def usage : String :=
  "Usage: pushdown scan [--project COL] [--filter COL:OP:OPERAND] [--backing disk|memory]\n"
    ++ "         [--dictionary-strings] [--dictionary-indices] [--batch-size N] INPUT\n"
    ++ "       pushdown info [--backing disk|memory] INPUT\n"

/-- Carry out the command that the arguments spell on the files of a store. -/
def run (store : FileStore) (arguments : List String) : Outcome :=
  match Invocation.ofArguments? arguments with
  | none => ⟨2, "", usage⟩
  | some .help => ⟨0, usage, ""⟩
  | some (.scan arguments) => .ofReport ((runScan store arguments).map QueryReport.text)
  | some (.info arguments) => .ofReport ((runInfo store arguments).map TableReport.text)

end Pushdown.Command
