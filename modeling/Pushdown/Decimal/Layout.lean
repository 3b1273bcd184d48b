-- SUMMARY: Writing a double-precision number in decimal, by the decisions of a text format.
import Pushdown.Decimal.Shortest

/-!
# Laying out a decimal

Which digits to write is settled by `shortest`. A `Layout` collects what a text format decides beyond
that: where the decimal point ends and an exponent begins, what marks a whole number, and what stands
for the values that no digits can express.
-/

namespace Pushdown.Decimal

structure Layout where
  tie : Tie
  /-- Whether a number whose first digit stands at `10 ^ e` is written without an exponent. -/
  isPositional : Int → Bool
  /-- What follows the digits of a whole number written without an exponent. -/
  wholeMark : List Char
  /-- What stands before the digits of an exponent that is not negative. -/
  plusMark : List Char
  notANumber : List Char
  infinity : List Char
  negativeInfinity : List Char

def digitChars (n : Nat) : List Char := Nat.toDigits 10 n

/-- Digits with the decimal point that the exponent asks for. -/
def positional (layout : Layout) (digits : List Char) (exponent : Int) : List Char :=
  let point : Int := digits.length + exponent
  if 0 ≤ exponent then digits ++ List.replicate exponent.toNat '0' ++ layout.wholeMark
  else if 0 < point then digits.take point.toNat ++ '.' :: digits.drop point.toNat
  else '0' :: '.' :: List.replicate (-point).toNat '0' ++ digits

/-- One digit before the point, the others behind it, and the exponent of the first digit. -/
def scientific (layout : Layout) (digits : List Char) (leading : Int) : List Char :=
  let mantissa := match digits with
    | first :: second :: rest => first :: '.' :: second :: rest
    | _ => digits
  let exponent :=
    if leading < 0 then '-' :: digitChars leading.natAbs
    else layout.plusMark ++ digitChars leading.natAbs
  mantissa ++ 'e' :: exponent

def Layout.writeMagnitude (layout : Layout) (m : Magnitude) : List Char :=
  let digits := digitChars m.digits
  let leading : Int := digits.length + m.exponent - 1
  if layout.isPositional leading then positional layout digits m.exponent
  else scientific layout digits leading

def Layout.write (layout : Layout) (x : Binary64) : List Char :=
  if x.isNaN then layout.notANumber
  else if x.isInfinite then
    if x.isNegative then layout.negativeInfinity else layout.infinity
  else
    let text := layout.writeMagnitude (shortest layout.tie x)
    if x.isNegative then '-' :: text else text

end Pushdown.Decimal
