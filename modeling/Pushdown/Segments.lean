-- SUMMARY: What a store offers of a column: segments, their sizes, and decoders for them.
import Pushdown.Failure

/-!
# Segments

A store hands out a column as an ordered run of segments. The size of a segment is cheap to ask for;
its values come from a decoder, which runs through the segment once, from front to back. Every call
may fail, and a decoder has a state after a failed call as well.

`Access` names the calls on segments. What a stage did to its column is the list of them.
-/

namespace Pushdown

/-- The segments of a column of `α`, read by decoders with states in `δ`. -/
structure Segments (δ α : Type) where
  count : Nat
  /-- The number of rows in a segment. -/
  size : Nat → Except Failure Nat
  /-- A decoder at the front of a segment. -/
  decoder : Nat → Except Failure δ
  /-- Pass over a number of rows. -/
  skip : δ → Nat → Except Failure Unit × δ
  /-- Decode the current row and go on to the next. -/
  next : δ → Except Failure α × δ

inductive Access
  | measure (segment : Nat)
  | enter (segment : Nat)
  | skip (segment rows : Nat)
  | decode (segment : Nat)
deriving DecidableEq, Repr

end Pushdown
