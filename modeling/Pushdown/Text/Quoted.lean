-- SUMMARY: Text quoted for a message, with everything invisible spelled out.
import Pushdown.Text.Combining
import Pushdown.Text.Printable

/-!
# Quoted text

A message that cites a text puts it between double quotation marks. What the reader could not see or
could misread is escaped: the quotation mark, the backslash, the common controls by their letter, and
any other invisible or combining character by its code point. An apostrophe stands for itself.
-/

namespace Pushdown.Text

/-- The lower-case hexadecimal digits of `n`. -/
def hexDigits (n : Nat) : List Char := Nat.toDigits 16 n

def quoteChar (c : Char) : List Char :=
  match c with
  | '\x00' => ['\\', '0']
  | '\t' => ['\\', 't']
  | '\r' => ['\\', 'r']
  | '\n' => ['\\', 'n']
  | '"' => ['\\', '"']
  | '\\' => ['\\', '\\']
  | c =>
    if isCombining c || !isPrintable c then
      ['\\', 'u', '\x7b'] ++ hexDigits c.toNat ++ ['\x7d']
    else [c]

def quote (s : String) : String :=
  String.ofList ('"' :: s.toList.flatMap quoteChar ++ ['"'])

end Pushdown.Text
