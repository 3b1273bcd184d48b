-- SUMMARY: Paths, and the files that a command can open.
import Pushdown.Parquet.Loading
import Pushdown.Parquet.Table

/-!
# Files

A command opens files by path. What a path leads to is a `Node`; a `FileStore` finds it or says why
there is none. `FileTree` is the store made of a list of files, in which the directories are those
that the paths of the files pass through. A path is followed name by name, so that the first name that
leads nowhere decides what is wrong with it.

A file of the wrong format fails when its bytes are read, and so does a directory.
-/

namespace Pushdown.Command

open Parquet (FileTable)

inductive Node
  | parquet (file : Parquet.File)
  | ipc (file : Record.BatchFile)
  /-- A file of no known format. -/
  | other
  | directory

abbrev FileStore : Type := String → Except FileProblem Node

/-! ## Paths -/

/-- What stands between the slashes of a path. -/
def parts (path : String) : List String := (path.toList.splitOn '/').map String.ofList

/-- The names in a path, empty ones and single dots left out. -/
def components (path : String) : List String :=
  (parts path).filter fun name => name ≠ "" && name ≠ "."

/-- What follows the last dot of the last name. A name that has its only dot in front has no
    extension. -/
def extension? (path : String) : Option String :=
  match (components path).getLast? with
  | none | some ".." => none
  | some name =>
    match name.toList.reverse.span (· ≠ '.') with
    | (_, []) | (_, ['.']) => none
    | (reversed, _) => some (String.ofList reversed.reverse)

/-- Whether a file is taken for an Arrow IPC file, by the extension of its path. -/
def isIpcPath (path : String) : Bool :=
  match extension? path with
  | some name => name = "arrow" || name = "feather" || name = "ipc"
  | none => false

/-- The bytes that the longest path has. -/
def pathLimit : Nat := 4095

/-- The bytes that the longest name has. -/
def nameLimit : Nat := 255

/-! ## Places -/

/-- A place among files: so many directories above the top of a tree, and down from there by the
    names. -/
structure Place where
  above : Nat
  names : List String
deriving DecidableEq, Repr

namespace Place

def top : Place := ⟨0, []⟩

/-- Where a part of a path leads. A single dot and nothing lead to the same place, two dots lead to
    the directory above. -/
def enter (place : Place) (part : String) : Place :=
  if part = "" || part = "." then place
  else if part = ".." then
    if place.names = [] then { place with above := place.above + 1 }
    else { place with names := place.names.dropLast }
  else { place with names := place.names ++ [part] }

/-- All the places that the parts of a path lead through, the first and the last included. -/
def trail (place : Place) : List String → List Place
  | [] => [place]
  | part :: parts => place :: trail (place.enter part) parts

end Place

/-! ## File trees -/

/-- Files with their paths from the top. -/
abbrev FileTree : Type := List (String × Node)

namespace FileTree

/-- What is at a place. Of two files with one place the later counts. The directories above the top
    are there, but what else they hold is not known. -/
def node? (tree : FileTree) (place : Place) : Option Node :=
  match tree.reverse.find? fun (path, _) => (parts path).foldl Place.enter .top = place with
  | some (_, node) => some node
  | none =>
    if place.names = [] || tree.any fun (path, _) => (Place.top.trail (parts path)).contains place then
      some .directory
    else none

/-- Follow the parts of a path, one after the other, from a place and what is there. -/
def follow (tree : FileTree) (place : Place) (node : Node) : List String → Except FileProblem Node
  | [] => .ok node
  | part :: parts =>
    match node with
    | .directory =>
      if nameLimit < part.utf8ByteSize then .error .nameTooLong
      else
        match tree.node? (place.enter part) with
        | some node => follow tree (place.enter part) node parts
        | none => .error .notFound
    | _ => .error .notADirectory

/-- The store that finds the files of a tree by their paths from its top. Of a path from the root of
    all files it knows only that the root is there. -/
def toStore (tree : FileTree) : FileStore := fun path =>
  if path = "" then .error .notFound
  else if pathLimit < path.utf8ByteSize then .error .nameTooLong
  else if path.front = '/' then follow [] .top .directory (parts path)
  else tree.follow .top .directory (parts path)

end FileTree

/-! ## Opening files -/

def find (store : FileStore) (path : String) : Except Failure Node :=
  (store path).mapError .file

/-- Open a Parquet file to be scanned in place. A directory can be opened, but not read. -/
def openParquet (store : FileStore) (path : String) : Except Failure FileTable := do
  match ← find store path with
  | .parquet file => FileTable.ofFile file
  | .directory => throw (.readInPlace .isADirectory)
  | _ => throw (.unreadable .parquet)

/-- Load a Parquet file into memory. -/
def loadParquet (store : FileStore) (path : String) (settings : LoadSettings) :
    Except Failure MemoryTable := do
  match ← find store path with
  | .parquet file => MemoryTable.ofParquet file settings
  | .directory => throw (.file .isADirectory)
  | _ => throw (.unreadable .parquet)

/-- Load an Arrow IPC file into memory. -/
def loadIpc (store : FileStore) (path : String) (settings : LoadSettings) :
    Except Failure MemoryTable := do
  match ← find store path with
  | .ipc file => MemoryTable.ofBatchFile file settings
  | _ => throw (.unreadable .ipc)

/-- The path of the directory that holds a file. -/
def parent (path : String) : String :=
  match path.toList.reverse.dropWhile (· ≠ '/') with
  | [] => "."
  | reversed => String.ofList reversed.reverse

/-- Write a table as a Parquet file. The directory must be there before the table is looked at. -/
def writeParquet (store : FileStore) (path : String) (table : MemoryTable) :
    Except Failure Parquet.File := do
  match ← find store (parent path) with
  | .directory => Parquet.File.ofTable table
  | _ => throw (.file .notADirectory)

end Pushdown.Command
