-- SUMMARY: Writing JSON text.
import Pushdown.Decimal.Layout
import Pushdown.Text.Quoted

/-!
# JSON text

Writers for the compact form of JSON, without blanks or line breaks. Each returns finished text, and
arrays and objects put finished texts together. Only what JSON demands is escaped in a string.
-/

namespace Pushdown.Json

def escapeChar (c : Char) : List Char :=
  match c with
  | '"' => ['\\', '"']
  | '\\' => ['\\', '\\']
  | '\x08' => ['\\', 'b']
  | '\x0c' => ['\\', 'f']
  | '\n' => ['\\', 'n']
  | '\r' => ['\\', 'r']
  | '\t' => ['\\', 't']
  | c =>
    if c.toNat < 0x20 then
      let digits := Text.hexDigits c.toNat
      ['\\', 'u'] ++ List.replicate (4 - digits.length) '0' ++ digits
    else [c]

def string (s : String) : String := String.ofList ('"' :: s.toList.flatMap escapeChar ++ ['"'])

def bool (b : Bool) : String := if b then "true" else "false"

def nat (n : Nat) : String := toString n

def int (n : Int) : String := toString n

/-- Numbers are whole or have a point; very large and very small ones have an exponent. What is not
    finite has no number in JSON. -/
def layout : Decimal.Layout where
  tie := .toEven
  isPositional := fun e => -5 ≤ e && e < 16
  wholeMark := ['.', '0']
  plusMark := ['+']
  notANumber := "null".toList
  infinity := "null".toList
  negativeInfinity := "null".toList

def float (x : Binary64) : String := String.ofList (layout.write x)

def array (items : List String) : String := "[" ++ ",".intercalate items ++ "]"

def object (fields : List (String × String)) : String :=
  "\x7b" ++ ",".intercalate (fields.map fun (name, value) => string name ++ ":" ++ value) ++ "\x7d"

end Pushdown.Json
