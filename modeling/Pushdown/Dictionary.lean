-- SUMMARY: The values of a dictionary column, and giving out keys for them.
import Std.Data.HashMap
import Pushdown.Failure

/-!
# Dictionaries

A dictionary column stores a key for each row and every text once. A `Dictionary` is the list of
texts, in the order in which they were first seen; a key is a position in it. An `Interner` gives out
the keys while the texts come in.
-/

namespace Pushdown

structure Dictionary where
  values : List String
deriving DecidableEq, Repr, Inhabited

namespace Dictionary

def size (d : Dictionary) : Nat := d.values.length

def isEmpty (d : Dictionary) : Bool := d.values.isEmpty

/-- The first key that stands for the text. -/
def keyOf? (d : Dictionary) (text : String) : Option UInt32 :=
  (d.values.idxOf? text).map UInt32.ofNat

def textOf (d : Dictionary) (key : UInt32) : Except Failure String :=
  match d.values[key.toNat]? with
  | some text => .ok text
  | none => .error (.dictionaryIndex key d.size)

end Dictionary

/-! ## Giving out keys -/

structure Interner where
  values : Array String := #[]
  keys : Std.HashMap String UInt32 := {}

namespace Interner

def empty : Interner := {}

/-- The key of the text, the next free one if the text is new. -/
def intern (i : Interner) (text : String) : UInt32 × Interner :=
  match i.keys[text]? with
  | some key => (key, i)
  | none =>
    let key := UInt32.ofNat i.values.size
    (key, { values := i.values.push text, keys := i.keys.insert text key })

def internAll (i : Interner) : List String → List UInt32 × Interner
  | [] => ([], i)
  | text :: rest =>
    let (key, i) := i.intern text
    let (keys, i) := i.internAll rest
    (key :: keys, i)

def toDictionary (i : Interner) : Dictionary := ⟨i.values.toList⟩

end Interner

end Pushdown
