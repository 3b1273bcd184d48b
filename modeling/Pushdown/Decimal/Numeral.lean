-- SUMMARY: Reading numbers written in decimal.
import Pushdown.Binary64

/-!
# Decimal numerals

Readers for whole and for double-precision numbers. Each takes the whole text or refuses it: there is
no blank space, no digit separator and no trailing text. A double-precision number is rounded once,
from the exact decimal.
-/

namespace Pushdown.Decimal

def digitValue (c : Char) : Nat := c.toNat - '0'.toNat

/-- The number that a run of digits stands for. -/
def ofDigits (cs : List Char) : Nat := cs.foldl (fun n c => 10 * n + digitValue c) 0

/-- Split off the leading digits. -/
def spanDigits (cs : List Char) : List Char × List Char := cs.span Char.isDigit

/-- Split off a sign, and say whether it was a minus. -/
def spanSign : List Char → Bool × List Char
  | '-' :: rest => (true, rest)
  | '+' :: rest => (false, rest)
  | cs => (false, cs)

/-! ## Whole numbers -/

def unsigned? (cs : List Char) : Option Nat :=
  if cs ≠ [] && cs.all Char.isDigit then some (ofDigits cs) else none

/-- A whole number without a minus sign, below `bound`. -/
def natural? (bound : Nat) (cs : List Char) : Option Nat :=
  let digits := match cs with
    | '+' :: rest => rest
    | _ => cs
  (unsigned? digits).filter (· < bound)

/-- A whole number of 32 bits with an optional sign. -/
def int32? (cs : List Char) : Option Int32 :=
  let (negative, digits) := spanSign cs
  match unsigned? digits with
  | none => none
  | some n =>
    let value : Int := if negative then -n else n
    if Int32.minValue.toInt ≤ value && value ≤ Int32.maxValue.toInt then some (Int32.ofInt value) else none

/-! ## Double-precision numbers -/

/-- The exponent at the end of a numeral, zero if there is none. -/
def exponent? : List Char → Option Int
  | [] => some 0
  | c :: rest =>
    if c = 'e' || c = 'E' then
      let (negative, digits) := spanSign rest
      (unsigned? digits).map fun n => if negative then -(n : Int) else n
    else none

/-- Digits, an optional fraction and an optional exponent. One digit before or after the point is
    required. -/
def decimal? (negative : Bool) (cs : List Char) : Option Binary64 :=
  let (whole, rest) := spanDigits cs
  let (fraction, rest) := match rest with
    | '.' :: rest => spanDigits rest
    | _ => ([], rest)
  if whole = [] && fraction = [] then none
  else
    (exponent? rest).map fun exponent =>
      Binary64.ofDecimal negative (ofDigits (whole ++ fraction)) (exponent - fraction.length)

/-- The names of the values that have no digits, in any case. -/
def named? (negative : Bool) (cs : List Char) : Option Binary64 :=
  let name := String.ofList (cs.map Char.toLower)
  if name = "nan" then some Binary64.notANumber
  else if name = "inf" || name = "infinity" then
    some (Binary64.ofMagnitude negative Binary64.infiniteMagnitude)
  else none

def binary64? (cs : List Char) : Option Binary64 :=
  let (negative, rest) := spanSign cs
  (decimal? negative rest).or (named? negative rest)

end Pushdown.Decimal
