-- SUMMARY: Running through the candidate rows of a column.
import Pushdown.Candidates
import Pushdown.Segments.Cursor

/-!
# Walks

A walk hands out the values of a column at the candidate rows, in order, until they end or a call
fails. Without a list of candidates every segment is decoded from front to back and nothing is
skipped; with one, a cursor reads the listed rows; and an empty set is no reason to touch the column.
Filtering and projecting are two readings of the same walk.
-/

namespace Pushdown

/-- The rows handed out with their values, the calls made for them, and how it ended. -/
structure Walk (α : Type) where
  visited : List (Nat × α)
  calls : List Access
  ending : Except Failure Unit

variable {δ α β : Type}

namespace Walk

/-- The walk that makes no call. -/
def nothing : Walk α := ⟨[], [], .ok ()⟩

/-- The walk that makes some calls and hands out no row. -/
def ofCalls (calls : List Access) (ending : Except Failure Unit) : Walk α := ⟨[], calls, ending⟩

/-- Go on with a second walk, unless the first one failed. -/
def andThen (w : Walk α) (rest : Unit → Walk α) : Walk α :=
  match w.ending with
  | .error _ => w
  | .ok () =>
    let r := rest ()
    ⟨w.visited ++ r.visited, w.calls ++ r.calls, r.ending⟩

/-- The values in the order in which they were handed out, if all were. -/
def values (w : Walk α) : Except Failure (List α) :=
  w.ending.map fun () => w.visited.map (·.2)

/-- The rows whose value passes the test. -/
def keep (test : α → Bool) (w : Walk α) : Except Failure Candidates :=
  w.ending.map fun () => .ofAscending ((w.visited.filter fun (_, value) => test value).map (·.1))

end Walk

namespace Segments

/-- Decode `n` rows in succession, the first of which has the number `row`. -/
def decodeRows (segments : Segments δ α) (segment row : Nat) (decoder : δ) : Nat → Walk α
  | 0 => .nothing
  | n + 1 =>
    match segments.next decoder with
    | (.error e, _) => .ofCalls [.decode segment] (.error e)
    | (.ok value, decoder) =>
      let rest := segments.decodeRows segment (row + 1) decoder n
      ⟨(row, value) :: rest.visited, .decode segment :: rest.calls, rest.ending⟩

/-- Decode all `n` rows of a segment. One without rows is not opened. -/
def walkSegment (segments : Segments δ α) (segment base n : Nat) : Walk α :=
  if n = 0 then .nothing
  else
    match segments.decoder segment with
    | .error e => .ofCalls [.enter segment] (.error e)
    | .ok decoder =>
      (Walk.ofCalls [.enter segment] (.ok ())).andThen fun () =>
        segments.decodeRows segment base decoder n

/-- Decode every row of `left` segments from `segment` on, which begins at the row `base`. -/
def walkSegments (segments : Segments δ α) (segment base : Nat) : Nat → Walk α
  | 0 => .nothing
  | left + 1 =>
    match segments.size segment with
    | .error e => .ofCalls [.measure segment] (.error e)
    | .ok n =>
      ((Walk.ofCalls [.measure segment] (.ok ())).andThen fun () =>
        segments.walkSegment segment base n).andThen fun () =>
          segments.walkSegments (segment + 1) (base + n) left

/-- Decode every row of every segment. -/
def walkAll (segments : Segments δ α) : Walk α := segments.walkSegments 0 0 segments.count

/-- Read the listed rows with a cursor, up to the first failure. -/
def walkRows (segments : Segments δ α) (c : Cursor δ) : List Nat → Walk α
  | [] => .nothing
  | row :: rows =>
    let reading := c.read segments row
    match reading.result with
    | .error e => .ofCalls reading.calls (.error e)
    | .ok value =>
      let rest := segments.walkRows reading.cursor rows
      ⟨(row, value) :: rest.visited, reading.calls ++ rest.calls, rest.ending⟩

/-- Hand out the values at the candidate rows. -/
def walk (segments : Segments δ α) : Candidates → Walk α
  | .empty => .nothing
  | .unbounded => segments.walkAll
  | .bounded rows => segments.walkRows {} rows

end Segments

end Pushdown
