-- SUMMARY: The command line.
import Pushdown.Command.Run

/-!
# The program

Runs a command on the files of the system. The codecs of the file formats are not part of this
library: `decode` is where they are plugged in, and with none there a file is one of no known format.
-/

namespace Pushdown.Command

/-- What the bytes of a file hold. -/
def decode (_bytes : ByteArray) : Node := .other

/-- Look at a path in the file system. -/
def look (path : String) : IO (Except FileProblem Node) := do
  try
    let bytes ← IO.FS.readBinFile path
    return .ok (decode bytes)
  catch
    | .noFileOrDirectory .. => return .error .notFound
    | .inappropriateType none .. => return .ok .directory
    | .invalidArgument (some _) .. => return .error .nameTooLong
    | _ => return .error .notADirectory

/-- The file that a command reads, if the arguments form one. -/
def inputOf? (arguments : List String) : Option String :=
  match Invocation.ofArguments? arguments with
  | some (.scan arguments) => some arguments.input
  | some (.info arguments) => some arguments.input
  | _ => none

end Pushdown.Command

open Pushdown.Command

def main (arguments : List String) : IO UInt32 := do
  let store : FileStore ← match inputOf? arguments with
    | none => pure fun _ => .error .notFound
    | some path => do
      let node ← look path
      pure fun _ => node
  let outcome := run store arguments
  IO.print outcome.stdout
  IO.eprint outcome.stderr
  return UInt32.ofNat outcome.code
