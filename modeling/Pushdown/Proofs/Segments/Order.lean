-- SUMMARY: The order in which a walk comes to its rows, whatever the segments do.
import Mathlib
import Pushdown.Segments.Walk

/-!
# The order of a walk

Segments may fail where they like, and may hold other values than they should. What does not depend on
them is the order of the rows. A cursor that read a row only reads later ones, so a walk over listed rows
that comes to its end has found them ascending; and the walk over all rows counts them itself.
-/

namespace Pushdown

variable {δ α : Type} {segments : Segments δ α}

/-! ## Walks put together -/

namespace Walk

/-- A walk that failed is not gone on with. -/
theorem andThen_of_error {w : Walk α} {e : Failure} (h : w.ending = .error e) (rest : Unit → Walk α) :
    w.andThen rest = w := by
  simp only [andThen, h]

theorem andThen_of_ok {w : Walk α} (h : w.ending = .ok ()) (rest : Unit → Walk α) :
    w.andThen rest = ⟨w.visited ++ (rest ()).visited, w.calls ++ (rest ()).calls, (rest ()).ending⟩ := by
  simp only [andThen, h]

theorem andThen_assoc (w : Walk α) (rest more : Unit → Walk α) :
    (w.andThen rest).andThen more = w.andThen fun () => (rest ()).andThen more := by
  cases hending : w.ending with
  | error e => rw [andThen_of_error hending, andThen_of_error hending, andThen_of_error hending]
  | ok u =>
    rw [andThen_of_ok hending, andThen_of_ok hending]
    cases hrest : (rest ()).ending with
    | error e => simp [andThen, hrest]
    | ok u => simp [andThen, hrest]

/-- The part of a walk that one reading makes up. -/
def ofReading (row : Nat) (reading : Reading δ α) : Walk α :=
  match reading.result with
  | .error e => .ofCalls reading.calls (.error e)
  | .ok value => ⟨[(row, value)], reading.calls, .ok ()⟩

end Walk

/-! ## Cursors -/

namespace Cursor

variable {c : Cursor δ} {row : Nat}

/-- A row that does not come after the last one read is refused without a call. -/
theorem read_of_le {previous : Nat} (hlast : c.lastRow = some previous) (hle : row ≤ previous) :
    c.read segments row = ⟨.error (.rowOrder row previous), c, []⟩ := by
  have hsome : c.lastRow.filter (row ≤ ·) = some previous :=
    Option.filter_eq_some_iff.mpr ⟨hlast, decide_eq_true hle⟩
  rw [read, hsome]

theorem read_eq_seek (h : ∀ previous, c.lastRow = some previous → previous < row) :
    c.read segments row = c.seek segments row := by
  have hnone : c.lastRow.filter (row ≤ ·) = none := by
    rw [Option.filter_eq_none_iff]
    intro previous hprevious
    simpa using h previous hprevious
  rw [read, hnone]

/-- A search that gives a value makes its row the last one read. -/
theorem lastRow_seek {value : α} (h : (c.seek segments row).result = .ok value) :
    (c.seek segments row).cursor.lastRow = some row := by
  revert h
  simp only [seek, seekFrom]
  split
  · exact nofun
  · split
    · exact nofun
    · split
      · exact nofun
      · exact fun _ => rfl

/-- A row that was read came after the one read before it, and is then the last one read. -/
theorem read_eq_ok {value : α} (h : (c.read segments row).result = .ok value) :
    (∀ previous, c.lastRow = some previous → previous < row) ∧
      (c.read segments row).cursor.lastRow = some row := by
  have hlater : ∀ previous, c.lastRow = some previous → previous < row := by
    intro previous hlast
    by_contra hle
    rw [read_of_le hlast (Nat.le_of_not_lt hle)] at h
    cases h
  rw [read_eq_seek hlater] at h ⊢
  exact ⟨hlater, lastRow_seek h⟩

/-- The cursor after one row was asked for after the other. -/
def after (segments : Segments δ α) (rows : List Nat) (c : Cursor δ) : Cursor δ :=
  rows.foldl (fun c row => (c.read segments row).cursor) c

@[simp] theorem after_cons (c : Cursor δ) (row : Nat) (rows : List Nat) :
    c.after segments (row :: rows) = (c.read segments row).cursor.after segments rows := rfl

end Cursor

/-! ## Walks over listed rows -/

namespace Segments

variable {c : Cursor δ} {rows : List Nat}

theorem walkRows_cons (c : Cursor δ) (row : Nat) (rows : List Nat) :
    segments.walkRows c (row :: rows) = (Walk.ofReading row (c.read segments row)).andThen fun () =>
      segments.walkRows (c.read segments row).cursor rows := by
  rw [walkRows, Walk.ofReading]
  cases (c.read segments row).result <;> rfl

/-- A walk over rows and more goes on with the cursor that the first rows leave. -/
theorem walkRows_append (c : Cursor δ) (rows more : List Nat) :
    segments.walkRows c (rows ++ more) =
      (segments.walkRows c rows).andThen fun () => segments.walkRows (c.after segments rows) more := by
  induction rows generalizing c with
  | nil => rfl
  | cons row rows ih =>
    rw [List.cons_append, walkRows_cons, walkRows_cons, Walk.andThen_assoc]
    simp only [ih, Cursor.after_cons]

/-- A walk that comes to its end has read its first row, and has come to the end of the others. -/
theorem walkRows_cons_ok {row : Nat} (h : (segments.walkRows c (row :: rows)).ending = .ok ()) :
    ∃ value, (c.read segments row).result = .ok value ∧
      (segments.walkRows (c.read segments row).cursor rows).ending = .ok () ∧
      (segments.walkRows c (row :: rows)).visited =
        (row, value) :: (segments.walkRows (c.read segments row).cursor rows).visited ∧
      (segments.walkRows c (row :: rows)).calls =
        (c.read segments row).calls ++ (segments.walkRows (c.read segments row).cursor rows).calls := by
  rw [walkRows] at h ⊢
  cases hresult : (c.read segments row).result with
  | error e =>
    rw [hresult] at h
    cases h
  | ok value =>
    rw [hresult] at h
    exact ⟨value, rfl, h, rfl, rfl⟩

/-- A walk over listed rows that comes to its end has handed out each of them, and they ascend from the
    last row that was read before it. -/
theorem walkRows_ascend (h : (segments.walkRows c rows).ending = .ok ()) :
    (segments.walkRows c rows).visited.map (·.1) = rows ∧ rows.Pairwise (· < ·) ∧
      ∀ previous, c.lastRow = some previous → ∀ row ∈ rows, previous < row := by
  induction rows generalizing c with
  | nil => exact ⟨rfl, .nil, by simp⟩
  | cons row rows ih =>
    obtain ⟨value, hresult, hending, hfirst, -⟩ := walkRows_cons_ok h
    obtain ⟨hearlier, hlast⟩ := Cursor.read_eq_ok hresult
    obtain ⟨hvisited, hascend, hlater⟩ := ih hending
    have hrow := hlater row hlast
    refine ⟨?_, List.pairwise_cons.mpr ⟨hrow, hascend⟩, ?_⟩
    · rw [hfirst, List.map_cons, hvisited]
    · intro previous hprevious
      have hlt := hearlier previous hprevious
      exact List.forall_mem_cons.mpr ⟨hlt, fun r hr => hlt.trans (hrow r hr)⟩

/-- The last of the rows that a walk came to the end of is the last one read. -/
theorem lastRow_after (h : (segments.walkRows c rows).ending = .ok ()) {previous : Nat}
    (hlast : rows.getLast? = some previous) : (c.after segments rows).lastRow = some previous := by
  induction rows generalizing c with
  | nil => cases hlast
  | cons row rows ih =>
    obtain ⟨value, hresult, hending, -⟩ := walkRows_cons_ok h
    cases rows with
    | nil =>
      cases hlast
      exact (Cursor.read_eq_ok hresult).2
    | cons next rows =>
      rw [List.getLast?_cons_cons] at hlast
      exact ih hending hlast

end Segments

/-! ## Walks over all rows -/

namespace Walk

variable {w : Walk α} {row : Nat}

/-- The rows handed out follow one another, the first of them being `row`. -/
def Counts (w : Walk α) (row : Nat) : Prop := w.visited.map (·.1) = List.range' row w.visited.length

theorem counts_nothing (row : Nat) : (nothing : Walk α).Counts row := rfl

theorem counts_ofCalls (calls : List Access) (ending : Except Failure Unit) (row : Nat) :
    (ofCalls calls ending : Walk α).Counts row := rfl

theorem Counts.andThen {rest : Unit → Walk α} {n : Nat} (h : w.Counts row)
    (hlength : w.ending = .ok () → w.visited.length = n) (hrest : (rest ()).Counts (row + n)) :
    (w.andThen rest).Counts row := by
  unfold Walk.andThen
  cases hending : w.ending with
  | error e => exact h
  | ok u =>
    show (w.visited ++ (rest ()).visited).map (·.1) = List.range' row (w.visited ++ (rest ()).visited).length
    rw [← hlength hending] at hrest
    rw [List.map_append, h, hrest, List.length_append, List.range'_append_1]

end Walk

namespace Segments

theorem decodeRows_of_error {segment row : Nat} {d d' : δ} {e : Failure} (hnext : segments.next d = (.error e, d')) (left : Nat) :
    segments.decodeRows segment row d (left + 1) = .ofCalls [.decode segment] (.error e) := by
  rw [decodeRows, hnext]

theorem decodeRows_of_ok {segment row : Nat} {d d' : δ} {value : α}
    (hnext : segments.next d = (.ok value, d')) (left : Nat) :
    segments.decodeRows segment row d (left + 1) =
      Walk.andThen ⟨[(row, value)], [.decode segment], .ok ()⟩ fun () =>
        segments.decodeRows segment (row + 1) d' left := by
  rw [decodeRows, hnext]
  rfl

theorem decodeRows_counts (segment row : Nat) (d : δ) (n : Nat) :
    (segments.decodeRows segment row d n).Counts row ∧
      ((segments.decodeRows segment row d n).ending = .ok () →
        (segments.decodeRows segment row d n).visited.length = n) := by
  induction n generalizing row d with
  | zero => exact ⟨Walk.counts_nothing row, fun _ => rfl⟩
  | succ n ih =>
    rcases hnext : segments.next d with ⟨e | value, d'⟩
    · rw [decodeRows_of_error hnext]
      exact ⟨Walk.counts_ofCalls _ _ row, nofun⟩
    · obtain ⟨hcounts, hlength⟩ := ih (row + 1) d'
      rw [decodeRows_of_ok hnext]
      exact ⟨congrArg (row :: ·) hcounts, fun hending => congrArg (· + 1) (hlength hending)⟩

theorem walkSegment_counts (segment base n : Nat) :
    (segments.walkSegment segment base n).Counts base ∧
      ((segments.walkSegment segment base n).ending = .ok () →
        (segments.walkSegment segment base n).visited.length = n) := by
  unfold walkSegment
  by_cases hempty : n = 0
  · rw [if_pos hempty]
    exact ⟨Walk.counts_nothing base, fun _ => hempty.symm⟩
  · rw [if_neg hempty]
    cases segments.decoder segment with
    | error e => exact ⟨Walk.counts_ofCalls _ _ base, nofun⟩
    | ok d => exact decodeRows_counts segment base d n

theorem walkSegments_counts (segment base left : Nat) :
    (segments.walkSegments segment base left).Counts base := by
  induction left generalizing segment base with
  | zero => exact Walk.counts_nothing base
  | succ left ih =>
    rw [walkSegments]
    cases segments.size segment with
    | error e => exact Walk.counts_ofCalls _ _ base
    | ok n =>
      obtain ⟨hcounts, hlength⟩ := segments.walkSegment_counts segment base n
      exact Walk.Counts.andThen hcounts hlength (ih (segment + 1) (base + n))

/-- The rows that a walk over all rows hands out ascend. -/
theorem walkAll_ascend (segments : Segments δ α) :
    (segments.walkAll.visited.map (·.1)).Pairwise (· < ·) := by
  rw [walkAll, walkSegments_counts]
  exact List.pairwise_lt_range'

end Segments

end Pushdown
