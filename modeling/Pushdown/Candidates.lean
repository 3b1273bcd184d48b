-- SUMMARY: The rows that still qualify after the filters applied so far.
import Pushdown.Failure

/-!
# Candidate rows

Before the first filter every row qualifies, and no list is kept. A filter leaves a strictly ascending
list of row numbers; an empty one is always written `empty`, so that each set has one form and a stage
can stop at it. The constructor `bounded` also takes a list that breaks these rules, and the
operations say what they make of it.
-/

namespace Pushdown

inductive Candidates
  | unbounded
  | empty
  | bounded (rows : List Nat)
deriving DecidableEq, Repr

namespace Candidates

instance : Inhabited Candidates := ⟨.unbounded⟩

/-! ## Making a set -/

/-- The first row that does not come after the one before it, with that one. -/
def firstDescent? : List Nat → Option (Nat × Nat)
  | previous :: row :: rest =>
    if row ≤ previous then some (row, previous) else firstDescent? (row :: rest)
  | _ => none

/-- The set of rows that are known to ascend. -/
def ofAscending : List Nat → Candidates
  | [] => .empty
  | rows => .bounded rows

def ofRows (rows : List Nat) : Except Failure Candidates :=
  match firstDescent? rows with
  | some (row, previous) => .error (.candidateOrder row previous)
  | none => .ok (ofAscending rows)

/-! ## Asking a set -/

def isEmpty : Candidates → Bool
  | .empty => true
  | _ => false

/-- The candidate rows, if they are listed. -/
def rows? : Candidates → Option (List Nat)
  | .unbounded => none
  | .empty => some []
  | .bounded rows => some rows

/-- How many rows of a table with `total` rows qualify. -/
def count (total : Nat) : Candidates → Nat
  | .unbounded => total
  | .empty => 0
  | .bounded rows => rows.length

/-- Binary search for `row` among the `size` rows from `base` on. Half of them are dropped at each
    step, and only the last one left is compared for equality. -/
def bisect (rows : Array Nat) (row base size : Nat) : Bool :=
  if size ≤ 1 then rows[base]? == some row
  else
    let middle := base + size / 2
    let base := if rows[middle]?.any (row < ·) then base else middle
    bisect rows row base (size - size / 2)
termination_by size

def contains (c : Candidates) (row : Nat) : Bool :=
  match c with
  | .unbounded => true
  | .empty => false
  | .bounded rows => bisect rows.toArray row 0 rows.length

def subsetOf : Candidates → Candidates → Bool
  | _, .unbounded => true
  | .empty, _ => true
  | .unbounded, _ => false
  | .bounded _, .empty => false
  | .bounded rows, .bounded others =>
    let others := others.toArray
    rows.all fun row => bisect others row 0 others.size

end Candidates

end Pushdown
