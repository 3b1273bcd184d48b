-- SUMMARY: Double-precision numbers as bit patterns: their parts, their order, and rounding to them.

/-!
# Double-precision numbers

A number is the 64 bits of its encoding: a sign bit above a magnitude of 63 bits, whose top eleven
are the exponent. Two patterns are equal only if every bit agrees, so equality decides and is lawful;
the order that a comparison uses is `compare?`, which makes the two zeros equal and leaves out what
is not a number.

Magnitudes of finite numbers grow with the value they stand for, one step at a time. Hence the order
on numbers is the order on magnitudes with the sign put back, and rounding a ratio amounts to
counting steps.
-/

namespace Pushdown

structure Binary64 where
  bits : UInt64
deriving DecidableEq, Repr

namespace Binary64

/-! ## Parts -/

def signBit : Nat := 1 <<< 63

/-- The lowest bit of the exponent, which is also the leading bit of a full significand. -/
def leadingBit : Nat := 1 <<< 52

def isNegative (x : Binary64) : Bool := signBit ≤ x.bits.toNat

/-- The encoding without its sign bit. -/
def magnitude (x : Binary64) : Nat := x.bits.toNat % signBit

/-- The magnitude of infinity; those above it are not numbers. -/
def infiniteMagnitude : Nat := 0x7FF * leadingBit

def ofMagnitude (negative : Bool) (magnitude : Nat) : Binary64 :=
  ⟨UInt64.ofNat (if negative then signBit + magnitude else magnitude)⟩

def isNaN (x : Binary64) : Bool := infiniteMagnitude < x.magnitude

def isInfinite (x : Binary64) : Bool := x.magnitude = infiniteMagnitude

def notANumber : Binary64 := ofMagnitude false (infiniteMagnitude + leadingBit / 2)

/-- The number `significand * 2 ^ scale` that a finite magnitude stands for. -/
structure Parts where
  significand : Nat
  scale : Int

def parts (x : Binary64) : Parts :=
  let field : Nat := x.magnitude / leadingBit
  let fraction : Nat := x.magnitude % leadingBit
  if field = 0 then ⟨fraction, -1074⟩ else ⟨leadingBit + fraction, (field : Int) - 1075⟩

/-! ## Order -/

/-- The magnitude with its sign. Both zeros have the key zero. -/
def orderKey (x : Binary64) : Int := if x.isNegative then -x.magnitude else x.magnitude

/-- Compare two numbers; nothing compares with what is not a number. -/
def compare? (x y : Binary64) : Option Ordering :=
  if x.isNaN || y.isNaN then none else some (compare x.orderKey y.orderKey)

/-! ## Rounding -/

/-- The integer nearest to `num / den`, the even one of two at the same distance. -/
def divNearest (num den : Nat) : Nat :=
  let quotient := num / den
  match compare (2 * (num % den)) den with
  | .lt => quotient
  | .eq => quotient + quotient % 2
  | .gt => quotient + 1

/-- The magnitude nearest to `num / den`, with ties to even. `scale` is chosen so that the quotient
    has 53 bits, or fewer where the exponent field has reached its end. -/
def nearestMagnitude (num den : Nat) : Nat :=
  if num = 0 then 0 else
    let scaled (scale : Int) : Nat × Nat :=
      (num <<< (-scale).toNat, den <<< scale.toNat)
    let low : Int := max ((Nat.log2 num : Int) - Nat.log2 den - 53) (-1074)
    let scale := if 2 * leadingBit ≤ (scaled low).1 / (scaled low).2 then low + 1 else low
    let steps := divNearest (scaled scale).1 (scaled scale).2
    min ((scale + 1074).toNat * leadingBit + steps) infiniteMagnitude

/-- The number nearest to `digits * 10 ^ exponent`. An exponent so large or so small that the digits
    cannot make up for it gives infinity or zero without the power being computed. -/
def ofDecimal (negative : Bool) (digits : Nat) (exponent : Int) : Binary64 :=
  ofMagnitude negative <|
    if digits = 0 then 0
    else if exponent > 400 then infiniteMagnitude
    else if exponent < -400 - Nat.log2 digits then 0
    else nearestMagnitude (digits * Nat.pow 10 exponent.toNat) (Nat.pow 10 (-exponent).toNat)

end Binary64

end Pushdown
