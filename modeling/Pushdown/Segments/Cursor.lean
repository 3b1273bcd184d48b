-- SUMMARY: Reading single rows of a column, in ascending order.
import Pushdown.Segments.Locator
import Pushdown.Segments

/-!
# Cursors

A `Cursor` reads rows of one column in strictly ascending order. Segments without a requested row are
stepped over by their size and never opened. Within a segment the rows between two requests are
passed over by the decoder's `skip`.

A read that fails leaves a cursor that can be read from again. The last row read stays the one that
the next row must come after, while the decoder stays wherever the failed call left it.
-/

namespace Pushdown

/-- A segment with a decoder for it. -/
structure Entered (δ : Type) where
  segment : Nat
  decoder : δ
  /-- The offset that follows the last row read from this segment. -/
  next : Nat

structure Cursor (δ : Type) where
  locator : Locator := {}
  opened : Option (Entered δ) := none
  lastRow : Option Nat := none

/-- What a read gave, the cursor after it, and the calls that it made. -/
structure Reading (δ α : Type) where
  result : Except Failure α
  cursor : Cursor δ
  calls : List Access

variable {δ α : Type}

namespace Entered

/-- Decode the row that the decoder stands at, as the row at `offset`. -/
def decodeAt (segments : Segments δ α) (offset : Nat) (o : Entered δ) :
    Except Failure α × Entered δ :=
  match segments.next o.decoder with
  | (.ok value, decoder) => (.ok value, { o with decoder, next := offset + 1 })
  | (.error e, decoder) => (.error e, { o with decoder })

/-- Read the row at `offset`, skipping up to it first if there is a gap. -/
def read (segments : Segments δ α) (offset : Nat) (o : Entered δ) :
    Except Failure α × Entered δ × List Access :=
  let gap := offset - o.next
  if gap = 0 then
    let (result, o') := o.decodeAt segments offset
    (result, o', [.decode o.segment])
  else
    match segments.skip o.decoder gap with
    | (.error e, decoder) => (.error e, { o with decoder }, [.skip o.segment gap])
    | (.ok (), decoder) =>
      let (result, o') := { o with decoder }.decodeAt segments offset
      (result, o', [.skip o.segment gap, .decode o.segment])

end Entered

namespace Cursor

/-- The open segment if it is the wanted one, else a new decoder for the wanted one. -/
def enter (segments : Segments δ α) (segment : Nat) (opened : Option (Entered δ)) :
    Except Failure (Entered δ) × List Access :=
  match opened.filter (·.segment = segment) with
  | some o => (.ok o, [])
  | none =>
    ((segments.decoder segment).map fun decoder => { segment, decoder, next := 0 }, [.enter segment])

/-- The calls behind the sizes that a search asked for. A question past the last segment is answered
    without a call. -/
def measured (segments : Segments δ α) (asked : List Nat) : List Access :=
  (asked.filter (· < segments.count)).map .measure

/-- Read `row` where the search for it has ended. -/
def seekFrom (segments : Segments δ α) (row : Nat) (search : Locator.Search) (c : Cursor δ) :
    Reading δ α :=
  let c := { c with locator := search.locator }
  let calls := measured segments search.asked
  match search.result with
  | .error e => ⟨.error e, c, calls⟩
  | .ok location =>
    match enter segments location.segment c.opened with
    | (.error e, entered) => ⟨.error e, { c with opened := none }, calls ++ entered⟩
    | (.ok o, entered) =>
      match o.read segments location.offset with
      | (.error e, o, decoded) => ⟨.error e, { c with opened := some o }, calls ++ entered ++ decoded⟩
      | (.ok value, o, decoded) =>
        ⟨.ok value, { c with opened := some o, lastRow := some row }, calls ++ entered ++ decoded⟩

/-- Read `row`, which comes after the last row read. -/
def seek (segments : Segments δ α) (row : Nat) (c : Cursor δ) : Reading δ α :=
  c.seekFrom segments row (c.locator.locate segments.count segments.size row)

/-- Read `row`, unless a row was read that it does not come after. -/
def read (segments : Segments δ α) (row : Nat) (c : Cursor δ) : Reading δ α :=
  match c.lastRow.filter (row ≤ ·) with
  | some previous => ⟨.error (.rowOrder row previous), c, []⟩
  | none => c.seek segments row

/-- Read `row` with sums in machine words. -/
def readWord (segments : Segments δ α) (row : Nat) (c : Cursor δ) : Reading δ α :=
  match c.lastRow.filter (row ≤ ·) with
  | some previous => ⟨.error (.rowOrder row previous), c, []⟩
  | none => c.seekFrom segments row (c.locator.locateWord segments.count segments.size row)

/-- Read one row after the other, going on after errors. The sums are in machine words. -/
def readEach (segments : Segments δ α) : List Nat → Cursor δ → List (Reading δ α)
  | [], _ => []
  | row :: rows, c =>
    let reading := c.readWord segments row
    reading :: readEach segments rows reading.cursor

end Cursor

end Pushdown
