-- SUMMARY: The shortest decimal that reads back as a given double-precision number.
import Pushdown.Binary64

/-!
# Shortest decimals

A finite number other than zero owns the interval of reals that round to it. Among the decimals in
that interval the shortest are those on the coarsest grid `10 ^ k` that has a point in it, and on such
a grid only the two neighbours of the number itself can be nearest. `Shortest.find` therefore tries
the grids from coarse to fine and takes the first that has a hit. Where both neighbours hit and lie at
the same distance, the caller says which one to take.
-/

namespace Pushdown.Decimal

/-- The number `digits * 10 ^ exponent`. -/
structure Magnitude where
  digits : Nat
  exponent : Int
deriving DecidableEq, Repr

inductive Tie
  | up
  | toEven
deriving DecidableEq, Repr

/-- A positive number and the ends of the interval that rounds to it, over one denominator. -/
structure Interval where
  value : Nat
  low : Nat
  high : Nat
  den : Nat
  closed : Bool

/-- The interval of reals that round to the finite number `x`. Below a power of two the neighbour is
    only half as far away, and the ends belong to an even significand. -/
def Interval.of (x : Binary64) : Interval :=
  let m := x.parts.significand
  let scale := x.parts.scale - 2
  let unit := 1 <<< scale.toNat
  let below := if m = Binary64.leadingBit && x.parts.scale > -1074 then 1 else 2
  { value := 4 * m * unit
    low := (4 * m - below) * unit
    high := (4 * m + 2) * unit
    den := 1 <<< (-scale).toNat
    closed := m % 2 = 0 }

/-- Whether `num / den` lies in the interval. -/
def Interval.contains (i : Interval) (num den : Nat) : Bool :=
  if i.closed then i.low * den ≤ num * i.den && num * i.den ≤ i.high * den
  else i.low * den < num * i.den && num * i.den < i.high * den

/-- The point of the grid `10 ^ k` to take for the interval, if one of the two neighbours of its value
    lies in it. -/
def Interval.onGrid? (i : Interval) (tie : Tie) (k : Int) : Option Nat :=
  let up := Nat.pow 10 k.toNat
  let down := Nat.pow 10 (-k).toNat
  let num := i.value * down
  let den := i.den * up
  let floor := num / den
  match i.contains (floor * up) down, i.contains ((floor + 1) * up) down with
  | false, false => none
  | true, false => some floor
  | false, true => some (floor + 1)
  | true, true =>
    match compare (2 * (num % den)) den with
    | .lt => some floor
    | .gt => some (floor + 1)
    | .eq => match tie with
      | .up => some (floor + 1)
      | .toEven => some (floor + floor % 2)

/-- Try `steps` grids from `10 ^ k` down. -/
def Interval.coarsest (i : Interval) (tie : Tie) : Nat → Int → Magnitude
  | 0, k => ⟨i.value * Nat.pow 10 (-k).toNat / (i.den * Nat.pow 10 k.toNat), k⟩
  | steps + 1, k =>
    match i.onGrid? tie k with
    | some digits => ⟨digits, k⟩
    | none => coarsest i tie steps (k - 1)

/-- An exponent `k` with `value < 10 ^ k`, at most two above the least. -/
def Interval.exponentAbove (i : Interval) : Int :=
  ((Nat.log2 i.value : Int) - Nat.log2 i.den + 1) * 30103 / 100000 + 1

/-- The shortest decimal that rounds to the finite number `x`, and of several the nearest. Seventeen
    digits always suffice, so twenty grids from above the number do. -/
def shortest (tie : Tie) (x : Binary64) : Magnitude :=
  let i := Interval.of x
  if i.value = 0 then ⟨0, 0⟩ else i.coarsest tie 20 i.exponentAbove

end Pushdown.Decimal
