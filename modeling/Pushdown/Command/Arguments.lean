-- SUMMARY: The commands of the program and reading them from arguments.
import Pushdown.Decimal.Numeral

/-!
# Arguments

`scan` filters and projects the columns of a file, `info` describes them. Options may stand before or
after the input file, a value after its option or attached to it by an equals sign. An argument that
begins with a hyphen is a value only when it is attached; after a double hyphen every argument is
positional. Conditions and projections may be repeated, all else is given once.
-/

namespace Pushdown.Command

/-- Where the table is scanned. -/
inductive Backing
  | disk
  | memory
deriving DecidableEq, Repr

def Backing.name : Backing → String
  | .disk => "disk"
  | .memory => "memory"

def Backing.ofName? : String → Option Backing
  | "disk" => some .disk
  | "memory" => some .memory
  | _ => none

structure ScanArguments where
  input : String
  projections : List String
  conditions : List String
  backing : Option Backing
  dictionaryStrings : Bool
  dictionaryIndices : Bool
  batchSize : Option Nat
deriving DecidableEq, Repr

structure InfoArguments where
  input : String
  backing : Option Backing
deriving DecidableEq, Repr

inductive Invocation
  | scan (arguments : ScanArguments)
  | info (arguments : InfoArguments)
  | help
deriving DecidableEq, Repr

/-! ## Words -/

/-- An argument by its form. -/
inductive Word
  /-- Two hyphens and nothing else. -/
  | terminator
  | option (name : String) (attached : Option String)
  /-- A single hyphen and a letter. -/
  | short (letters : String)
  | plain (text : String)
deriving DecidableEq, Repr

def Word.ofString (s : String) : Word :=
  match s.toList with
  | ['-', '-'] => .terminator
  | '-' :: '-' :: rest =>
    match rest.span (· ≠ '=') with
    | (name, '=' :: value) => .option (String.ofList name) (some (String.ofList value))
    | (name, _) => .option (String.ofList name) none
  | '-' :: c :: rest => .short (String.ofList (c :: rest))
  | _ => .plain s

/-- The value of an option, attached or in the next argument, and the arguments after it. -/
def takeValue (attached : Option String) (rest : List String) : Option (String × List String) :=
  match attached, rest with
  | some value, rest => some (value, rest)
  | none, [] => none
  | none, next :: rest =>
    match Word.ofString next with
    | .plain value => some (value, rest)
    | _ => none

/-! ## Options -/

/-- The options and the input seen so far, each of which may still be missing. -/
structure Seen where
  input : Option String := none
  projections : List String := []
  conditions : List String := []
  backing : Option Backing := none
  dictionaryStrings : Bool := false
  dictionaryIndices : Bool := false
  batchSize : Option Nat := none

namespace Seen

/-- Take a positional argument as the input, if it is the first and not empty. -/
def setInput? (seen : Seen) (text : String) : Option Seen :=
  if seen.input.isSome || text.isEmpty then none else some { seen with input := some text }

/-- Take an option that has a value. -/
def setOption? (forScan : Bool) (seen : Seen) (name value : String) : Option Seen :=
  match name, forScan with
  | "project", true => some { seen with projections := seen.projections ++ [value] }
  | "filter", true => some { seen with conditions := seen.conditions ++ [value] }
  | "backing", _ =>
    match seen.backing, Backing.ofName? value with
    | none, some backing => some { seen with backing := some backing }
    | _, _ => none
  | "batch-size", true =>
    match seen.batchSize, Decimal.natural? UInt64.size value.toList with
    | none, some size => some { seen with batchSize := some size }
    | _, _ => none
  | _, _ => none

/-- Take an option without a value, if there is one of the name. -/
def setFlag? (forScan : Bool) (seen : Seen) (name : String) : Option Seen :=
  match name, forScan with
  | "dictionary-strings", true =>
    if seen.dictionaryStrings then none else some { seen with dictionaryStrings := true }
  | "dictionary-indices", true =>
    if seen.dictionaryIndices then none else some { seen with dictionaryIndices := true }
  | _, _ => none

end Seen

def isFlag (name : String) : Bool := name = "dictionary-strings" || name = "dictionary-indices"

/-- Take arguments that are all positional. -/
def readPositional : List String → Seen → Option Seen
  | [], seen => some seen
  | text :: rest, seen => (seen.setInput? text).bind (readPositional rest)

/-- What the arguments of a command come to. -/
inductive Parsed
  | complete (seen : Seen)
  | help
  | invalid

def Parsed.ofOption : Option Seen → Parsed
  | some seen => .complete seen
  | none => .invalid

theorem length_le_of_takeValue {attached : Option String} {rest rest' : List String}
    {value : String} (h : takeValue attached rest = some (value, rest')) :
    rest'.length ≤ rest.length := by
  unfold takeValue at h
  split at h
  · cases h; exact Nat.le_refl _
  · cases h
  · split at h
    · cases h; simp
    · cases h

/-- Take the arguments of a command. -/
def readArguments (forScan : Bool) (arguments : List String) (seen : Seen) : Parsed :=
  match arguments with
  | [] => .complete seen
  | argument :: rest =>
    match Word.ofString argument with
    | .terminator => .ofOption (readPositional rest seen)
    | .short letters => if letters.front = 'h' then .help else .invalid
    | .plain text =>
      match seen.setInput? text with
      | some seen => readArguments forScan rest seen
      | none => .invalid
    | .option name attached =>
      if name = "help" && attached.isNone then .help
      else if isFlag name then
        match attached, seen.setFlag? forScan name with
        | none, some seen => readArguments forScan rest seen
        | _, _ => .invalid
      else
        match _taken : takeValue attached rest with
        | none => .invalid
        | some (value, rest') =>
          match seen.setOption? forScan name value with
          | some seen => readArguments forScan rest' seen
          | none => .invalid
termination_by arguments.length
decreasing_by
  · simp
  · simp
  · have := length_le_of_takeValue _taken
    simp
    omega

/-! ## Commands -/

def scanArguments (input : String) (seen : Seen) : ScanArguments where
  input := input
  projections := seen.projections
  conditions := seen.conditions
  backing := seen.backing
  dictionaryStrings := seen.dictionaryStrings
  dictionaryIndices := seen.dictionaryIndices
  batchSize := seen.batchSize

/-- Read the arguments after the name of a command. -/
def readCommand? (forScan : Bool) (rest : List String) : Option Invocation :=
  match readArguments forScan rest {} with
  | .invalid => none
  | .help => some .help
  | .complete seen =>
    seen.input.map fun input =>
      if forScan then .scan (scanArguments input seen) else .info { input, backing := seen.backing }

/-- Read the arguments of the program; none if they do not form a command. -/
def Invocation.ofArguments? : List String → Option Invocation
  | "scan" :: rest => readCommand? true rest
  | "info" :: rest => readCommand? false rest
  | ["help"] | "-h" :: _ | "--help" :: _ => some .help
  | _ => none

end Pushdown.Command
