-- SUMMARY: Finding the segment of a row while moving forward through a column.
import Pushdown.Failure

/-!
# Locating rows

A column is cut into segments whose sizes become known one at a time. A `Locator` stands at one
segment and knows how many rows lie before it. It only moves forward, so that locating ascending rows
asks for each size about once, however many rows there are. A row before the current segment or past
the last one is refused; a size that cannot be had leaves the locator at that segment.

Row numbers are machine words. `locate` takes it that the number of rows in the column fits in one, and so do
the walks that are made with it. `locateWord` is the search with the sums that a machine makes: one that does
not fit wraps around. Which of the two is meant makes no difference as long as the sizes add up to a word.
-/

namespace Pushdown

structure Locator where
  segment : Nat := 0
  /-- The number of the first row of `segment`. -/
  base : Nat := 0
deriving DecidableEq, Repr

/-- A row within a segment. -/
structure Location where
  segment : Nat
  offset : Nat
deriving DecidableEq, Repr

namespace Locator

/-- How a search ended, where it left the locator, and the segments whose size it asked for. The
    question that finds no segment left is among them. -/
structure Search where
  result : Except Failure Location
  locator : Locator
  asked : List Nat

/-- Step over segments until one holds the row. -/
def advance (count : Nat) (size : Nat → Except Failure Nat) (row : Nat) (l : Locator) : Search :=
  if l.segment < count then
    match size l.segment with
    | .error e => ⟨.error e, l, [l.segment]⟩
    | .ok n =>
      if row < l.base + n then ⟨.ok ⟨l.segment, row - l.base⟩, l, [l.segment]⟩
      else
        let rest := advance count size row ⟨l.segment + 1, l.base + n⟩
        { rest with asked := l.segment :: rest.asked }
  else ⟨.error (.rowOutOfRange row l.base), l, [l.segment]⟩
termination_by count - l.segment

/-- Find the segment that holds `row` in a column of `count` segments of the given sizes. -/
def locate (count : Nat) (size : Nat → Except Failure Nat) (row : Nat) (l : Locator) : Search :=
  if row < l.base then ⟨.error (.rowOrder row l.base), l, []⟩ else advance count size row l

/-! ## Sums in machine words -/

/-- The sum as a machine word holds it. -/
def addWord (a b : Nat) : Nat := (a + b) % UInt64.size

/-- Step over segments until one holds the row, with sums that wrap around. -/
def advanceWord (count : Nat) (size : Nat → Except Failure Nat) (row : Nat) (l : Locator) : Search :=
  if l.segment < count then
    match size l.segment with
    | .error e => ⟨.error e, l, [l.segment]⟩
    | .ok n =>
      if row < addWord l.base n then ⟨.ok ⟨l.segment, row - l.base⟩, l, [l.segment]⟩
      else
        let rest := advanceWord count size row ⟨l.segment + 1, addWord l.base n⟩
        { rest with asked := l.segment :: rest.asked }
  else ⟨.error (.rowOutOfRange row l.base), l, [l.segment]⟩
termination_by count - l.segment

def locateWord (count : Nat) (size : Nat → Except Failure Nat) (row : Nat) (l : Locator) : Search :=
  if row < l.base then ⟨.error (.rowOrder row l.base), l, []⟩ else advanceWord count size row l

end Locator

end Pushdown
