-- SUMMARY: Decoding a column from front to back is the same walk as reading all of its rows by number.
import Pushdown.Column
import Pushdown.Memory.Chunk
import Pushdown.Proofs.Segments.Route

/-!
# Sweeping a column

Without candidates a walk decodes one segment after the other and counts the rows itself. With the list of
all rows a cursor locates each row, enters its segment if the row is the first one there, and finds its
decoder at the row if it is not. The two walks do the same to the segments, call by call, up to the first
call that fails; and neither skips. Only sizes must be had, and they may promise more than there is.

The cursor asks for sizes once a row and the other walk once a segment. So the walks are compared without
these questions, which is what `Walk.touching` leaves of one.
-/

namespace Pushdown

variable {δ α : Type} {segments : Segments δ α} {sizes : List Nat} {segment offset row n : Nat}

/-! ## Walks without the questions for sizes -/

namespace Walk

/-- The walk with only those of its calls that go into a segment. -/
def touching (w : Walk α) : Walk α := { w with calls := w.calls.filter Access.touches }

theorem touching_andThen (w : Walk α) (rest : Unit → Walk α) :
    (w.andThen rest).touching = w.touching.andThen fun () => (rest ()).touching := by
  cases hending : w.ending with
  | error e =>
    have htouching : w.touching.ending = .error e := hending
    rw [andThen_of_error hending, andThen_of_error htouching]
  | ok u =>
    have htouching : w.touching.ending = .ok () := hending
    rw [andThen_of_ok hending, andThen_of_ok htouching]
    simp only [touching, List.filter_append]

/-- Two walks stay alike if they are gone on with alike, which they are not if they failed. -/
theorem andThen_alike {w w' : Walk α} {rest rest' : Unit → Walk α} (h : w.touching = w'.touching)
    (hrest : w.ending = .ok () → (rest ()).touching = (rest' ()).touching) :
    (w.andThen rest).touching = (w'.andThen rest').touching := by
  rw [touching_andThen, touching_andThen, ← h]
  cases hending : w.touching.ending with
  | error e => rw [andThen_of_error hending, andThen_of_error hending]
  | ok u => rw [andThen_of_ok hending, andThen_of_ok hending, hrest hending]

/-- No call of the walk passes over rows. -/
def SkipsNothing (w : Walk α) : Prop := ∀ segment n, Access.skip segment n ∉ w.calls

theorem SkipsNothing.andThen {w : Walk α} {rest : Unit → Walk α} (h : w.SkipsNothing)
    (hrest : (rest ()).SkipsNothing) : (w.andThen rest).SkipsNothing := by
  unfold Walk.andThen
  cases w.ending with
  | error e => exact h
  | ok u => exact fun segment n hmem => (List.mem_append.mp hmem).elim (h segment n) (hrest segment n)

theorem SkipsNothing.of_alike {w w' : Walk α} (h : w.SkipsNothing) (halike : w.touching = w'.touching) :
    w'.SkipsNothing := by
  intro segment n hmem
  have htouches : Access.skip segment n ∈ w'.touching.calls := List.mem_filter.mpr ⟨hmem, rfl⟩
  rw [← halike] at htouches
  exact h segment n (List.mem_filter.mp htouches).1

end Walk

/-! ## Cursors that read every row -/

namespace Cursor

variable {c : Cursor δ} {d d' : δ}

/-- The cursor can go on with a row of the segment: it has not located a later one, nor read one. -/
structure NotPast (sizes : List Nat) (segment row : Nat) (c : Cursor δ) : Prop where
  atFront : c.locator.AtFront sizes
  base_le : c.locator.base ≤ rowsBefore sizes segment
  last_lt : ∀ previous, c.lastRow = some previous → previous < row

/-- The cursor has not come to the segment yet. -/
structure ShortOf (sizes : List Nat) (segment : Nat) (c : Cursor δ) : Prop
    extends c.NotPast sizes segment (rowsBefore sizes segment) where
  opened_lt : ∀ o, c.opened = some o → o.segment < segment

/-- The cursor has the segment open and has read the rows before the offset, so that its decoder stands
    there. -/
structure Within (sizes : List Nat) (segment offset : Nat) (d : δ) (c : Cursor δ) : Prop
    extends c.NotPast sizes segment (rowsBefore sizes segment + offset) where
  opened_eq : c.opened = some ⟨segment, d, offset⟩

theorem shortOf_new (sizes : List Nat) (segment : Nat) : ({} : Cursor δ).ShortOf sizes segment where
  atFront := Locator.atFront_new sizes
  base_le := Nat.zero_le _
  last_lt := nofun
  opened_lt := nofun

theorem ShortOf.succ (hc : c.ShortOf sizes segment) : c.ShortOf sizes (segment + 1) where
  atFront := hc.atFront
  base_le := hc.base_le.trans (rowsBefore_mono sizes (Nat.le_succ segment))
  last_lt previous hlast := (hc.last_lt previous hlast).trans_le (rowsBefore_mono sizes (Nat.le_succ segment))
  opened_lt o ho := Nat.lt_succ_of_lt (hc.opened_lt o ho)

/-- With a new decoder for the segment the cursor is at its first row. -/
theorem ShortOf.withDecoder (hc : c.ShortOf sizes segment) (d : δ) :
    ({ c with opened := some ⟨segment, d, 0⟩ } : Cursor δ).Within sizes segment 0 d where
  atFront := hc.atFront
  base_le := hc.base_le
  last_lt := hc.last_lt
  opened_eq := rfl

/-- A segment that was read to its end lies behind the cursor. -/
theorem Within.leave (hc : c.Within sizes segment n d) (hn : sizes[segment]? = some n) :
    c.ShortOf sizes (segment + 1) where
  atFront := hc.atFront
  base_le := hc.base_le.trans (rowsBefore_mono sizes (Nat.le_succ segment))
  last_lt := by
    rw [rowsBefore_succ hn]
    exact hc.last_lt
  opened_lt o ho := by
    rw [hc.opened_eq] at ho
    cases ho
    exact Nat.lt_succ_self segment

/-- A row of the segment is not refused, and is found in it. -/
theorem NotPast.search (hc : c.NotPast sizes segment row) (h : segments.Sized sizes)
    (hrow : LiesAt sizes row ⟨segment, offset⟩) :
    c.read segments row = c.seek segments row ∧
      (c.locator.locate segments.count segments.size row).result = .ok ⟨segment, offset⟩ ∧
      (c.locator.locate segments.count segments.size row).locator = ⟨segment, rowsBefore sizes segment⟩ := by
  have hbase : c.locator.base ≤ row := hc.base_le.trans hrow.bounds.1
  exact ⟨read_eq_seek hc.last_lt, Locator.locate_of_liesAt h hc.atFront hbase hrow⟩

theorem Within.enter_eq (hc : c.Within sizes segment offset d) :
    enter segments segment c.opened = (.ok ⟨segment, d, offset⟩, []) := by
  simp [Cursor.enter, hc.opened_eq, Option.filter]

theorem ShortOf.enter_eq (hc : c.ShortOf sizes segment) :
    Cursor.enter segments segment c.opened =
      ((segments.decoder segment).map fun d => ⟨segment, d, 0⟩, [.enter segment]) := by
  have hnone : c.opened.filter (·.segment = segment) = none := by
    rw [Option.filter_eq_none_iff]
    intro o ho
    simpa using (hc.opened_lt o ho).ne
  rw [Cursor.enter, hnone]

section

variable {value : α} {e : Failure} (h : segments.Sized sizes) (hrow : LiesAt sizes row ⟨segment, offset⟩)

include h hrow

/-- If the decoder fails, so does reading the row that it stands at. -/
theorem Within.read_error (hc : c.Within sizes segment offset d) (hnext : segments.next d = (.error e, d')) :
    (Walk.ofReading row (c.read segments row)).touching = .ofCalls [.decode segment] (.error e) := by
  obtain rfl := hrow.row_eq
  obtain ⟨hread, hresult, -⟩ := hc.search h hrow
  have hdecode : Entered.read segments offset ⟨segment, d, offset⟩ =
      (.error e, ⟨segment, d', offset⟩, [.decode segment]) := by
    simp [Entered.read, Entered.decodeAt, hnext]
  simp [hread, seek, seekFrom, hresult, hc.enter_eq, hdecode, Walk.ofReading, Walk.ofCalls, Walk.touching,
    measured_touches, Access.touches]

/-- The row that the decoder stands at is read by decoding it. The decoder is then at the next one. -/
theorem Within.read_ok (hc : c.Within sizes segment offset d) (hnext : segments.next d = (.ok value, d')) :
    (Walk.ofReading row (c.read segments row)).touching = ⟨[(row, value)], [.decode segment], .ok ()⟩ ∧
      (c.read segments row).cursor.Within sizes segment (offset + 1) d' := by
  obtain rfl := hrow.row_eq
  obtain ⟨hread, hresult, hlocator⟩ := hc.search h hrow
  have hdecode : Entered.read segments offset ⟨segment, d, offset⟩ =
      (.ok value, ⟨segment, d', offset + 1⟩, [.decode segment]) := by
    simp [Entered.read, Entered.decodeAt, hnext]
  constructor
  · simp [hread, seek, seekFrom, hresult, hc.enter_eq, hdecode, Walk.ofReading, Walk.touching, measured_touches,
      Access.touches]
  · have hcursor : (c.read segments (rowsBefore sizes segment + offset)).cursor =
        ⟨⟨segment, rowsBefore sizes segment⟩, some ⟨segment, d', offset + 1⟩,
          some (rowsBefore sizes segment + offset)⟩ := by
      simp [hread, seek, seekFrom, hresult, hlocator, hc.enter_eq, hdecode]
    rw [hcursor]
    refine ⟨⟨Locator.atFront_of_liesAt hrow, Nat.le_refl _, ?_⟩, rfl⟩
    rintro _ ⟨⟩
    exact Nat.lt_succ_self _

end

section

variable {e : Failure} (h : segments.Sized sizes) (hn : sizes[segment]? = some n) (hpos : 0 < n)

include h hn hpos

/-- The first row of a segment is not read if there is no decoder for the segment. -/
theorem ShortOf.read_error (hc : c.ShortOf sizes segment) (hdecoder : segments.decoder segment = .error e) :
    (Walk.ofReading (rowsBefore sizes segment) (c.read segments (rowsBefore sizes segment))).touching =
      .ofCalls [.enter segment] (.error e) := by
  have hrow : LiesAt sizes (rowsBefore sizes segment) ⟨segment, 0⟩ := ⟨⟨n, hn, hpos⟩, rfl⟩
  obtain ⟨hread, hresult, -⟩ := hc.search h hrow
  simp [hread, seek, seekFrom, hresult, hc.enter_eq, hdecoder, Except.map, Walk.ofReading, Walk.ofCalls, Walk.touching,
    measured_touches, Access.touches]

/-- The first row of a segment is read as if the cursor had the segment open, once it is entered. -/
theorem ShortOf.read_ok (hc : c.ShortOf sizes segment) (hdecoder : segments.decoder segment = .ok d) :
    let c' : Cursor δ := { c with opened := some ⟨segment, d, 0⟩ }
    (Walk.ofReading (rowsBefore sizes segment) (c.read segments (rowsBefore sizes segment))).touching =
        ((Walk.ofCalls [.enter segment] (.ok ())).andThen fun () =>
          (Walk.ofReading (rowsBefore sizes segment) (c'.read segments (rowsBefore sizes segment))).touching) ∧
      (c.read segments (rowsBefore sizes segment)).cursor =
        (c'.read segments (rowsBefore sizes segment)).cursor := by
  intro c'
  have hrow : LiesAt sizes (rowsBefore sizes segment) ⟨segment, 0⟩ := ⟨⟨n, hn, hpos⟩, rfl⟩
  obtain ⟨hread, hresult, hlocator⟩ := hc.search h hrow
  have hread' : c'.read segments (rowsBefore sizes segment) = c'.seek segments (rowsBefore sizes segment) :=
    read_eq_seek hc.last_lt
  have henter : Cursor.enter segments segment c.opened = (.ok ⟨segment, d, 0⟩, [.enter segment]) := by
    rw [hc.enter_eq, hdecoder]
    rfl
  have henter' : Cursor.enter segments segment c'.opened = (.ok ⟨segment, d, 0⟩, []) :=
    (hc.withDecoder d).enter_eq
  have htouches : ∀ calls, (Access.enter segment :: calls).filter Access.touches =
      .enter segment :: calls.filter Access.touches := fun _ => rfl
  rw [hread, hread']
  rcases hdecode : Entered.read segments 0 ⟨segment, d, 0⟩ with ⟨e | value, o, calls⟩
  · simp [seek, seekFrom, c', hresult, henter, henter', hdecode, Walk.ofReading, Walk.ofCalls, Walk.andThen,
      Walk.touching, measured_touches, htouches]
  · simp [seek, seekFrom, c', hresult, henter, henter', hdecode, Walk.ofReading, Walk.ofCalls, Walk.andThen,
      Walk.touching, measured_touches, htouches]

end

end Cursor

/-! ## The two walks -/

namespace Segments

variable {c : Cursor δ} {d : δ}

/-- A walk over listed rows fails if its first row cannot be read. -/
theorem walkRows_cons_of_error {calls : List Access} {e : Failure}
    (hread : (Walk.ofReading row (c.read segments row)).touching = .ofCalls calls (.error e)) (rows : List Nat) :
    (segments.walkRows c (row :: rows)).touching = .ofCalls calls (.error e) := by
  have hending : (Walk.ofReading row (c.read segments row)).ending = .error e := congrArg Walk.ending hread
  rw [walkRows_cons, Walk.andThen_of_error hending, hread]

/-- Reading the rows of a segment from where the decoder stands is decoding them. If all of them were read,
    the decoder stands as many rows further. -/
theorem walkRows_decodeRows (h : segments.Sized sizes) (hn : sizes[segment]? = some n)
    (hc : c.Within sizes segment offset d) {left : Nat} (hleft : offset + left ≤ n) :
    let rows := List.range' (rowsBefore sizes segment + offset) left
    (segments.walkRows c rows).touching =
        (segments.decodeRows segment (rowsBefore sizes segment + offset) d left).touching ∧
      ((segments.walkRows c rows).ending = .ok () →
        ∃ d', (c.after segments rows).Within sizes segment (offset + left) d') := by
  induction left generalizing c d offset with
  | zero => exact ⟨rfl, fun _ => ⟨d, hc⟩⟩
  | succ left ih =>
    have hlt : offset < n := by omega
    have hrow : LiesAt sizes (rowsBefore sizes segment + offset) ⟨segment, offset⟩ := ⟨⟨n, hn, hlt⟩, rfl⟩
    rw [List.range'_succ]
    rcases hnext : segments.next d with ⟨e | value, d'⟩
    · have hwalk := walkRows_cons_of_error (hc.read_error h hrow hnext)
        (List.range' (rowsBefore sizes segment + offset + 1) left)
      rw [decodeRows_of_error hnext]
      refine ⟨hwalk, fun hok => ?_⟩
      cases (congrArg Walk.ending hwalk).symm.trans hok
    · obtain ⟨hread, hwithin⟩ := hc.read_ok h hrow hnext
      obtain ⟨hrest, hafter⟩ := ih hwithin (by omega)
      constructor
      · rw [decodeRows_of_ok hnext]
        rw [walkRows_cons]
        exact Walk.andThen_alike hread fun _ => hrest
      · intro hok
        obtain ⟨-, -, hending, -, -⟩ := walkRows_cons_ok hok
        rw [← Nat.succ_add_eq_add_succ]
        exact hafter hending

/-- Reading the first row of a segment and more is entering the segment and then reading them. -/
theorem walkRows_enter (h : segments.Sized sizes) (hn : sizes[segment]? = some n) (hpos : 0 < n)
    (hc : c.ShortOf sizes segment) (hdecoder : segments.decoder segment = .ok d) (more : List Nat) :
    let rows := rowsBefore sizes segment :: more
    let c' : Cursor δ := { c with opened := some ⟨segment, d, 0⟩ }
    (segments.walkRows c rows).touching =
        ((Walk.ofCalls [.enter segment] (.ok ())).andThen fun () => segments.walkRows c' rows).touching ∧
      c.after segments rows = c'.after segments rows := by
  intro rows c'
  obtain ⟨hread, hcursor⟩ := hc.read_ok h hn hpos hdecoder
  constructor
  · have hfirst : (Walk.ofReading (rowsBefore sizes segment) (c.read segments (rowsBefore sizes segment))).touching =
        ((Walk.ofCalls [.enter segment] (.ok ())).andThen fun () =>
          Walk.ofReading (rowsBefore sizes segment) (c'.read segments (rowsBefore sizes segment))).touching := by
      rw [hread, Walk.touching_andThen]
      rfl
    rw [walkRows_cons, walkRows_cons, hcursor]
    exact (Walk.andThen_alike hfirst fun _ => rfl).trans (congrArg Walk.touching (Walk.andThen_assoc _ _ _))
  · rw [Cursor.after_cons, Cursor.after_cons, hcursor]

/-- Reading all rows of a segment that the cursor has not come to is walking it. If they were read, the cursor
    is past the segment. -/
theorem walkRows_walkSegment (h : segments.Sized sizes) (hn : sizes[segment]? = some n)
    (hc : c.ShortOf sizes segment) :
    let rows := List.range' (rowsBefore sizes segment) n
    (segments.walkRows c rows).touching = (segments.walkSegment segment (rowsBefore sizes segment) n).touching ∧
      ((segments.walkRows c rows).ending = .ok () → (c.after segments rows).ShortOf sizes (segment + 1)) := by
  intro rows
  cases n with
  | zero => exact ⟨rfl, fun _ => hc.succ⟩
  | succ left =>
    rw [walkSegment, if_neg left.succ_ne_zero]
    cases hdecoder : segments.decoder segment with
    | error e =>
      have hwalk := walkRows_cons_of_error (hc.read_error h hn left.succ_pos hdecoder)
        (List.range' (rowsBefore sizes segment + 1) left)
      refine ⟨hwalk, fun hok => ?_⟩
      cases (congrArg Walk.ending hwalk).symm.trans hok
    | ok d =>
      obtain ⟨henter, hsame⟩ := walkRows_enter h hn left.succ_pos hc hdecoder _
      obtain ⟨hrest, hafter⟩ := walkRows_decodeRows h hn (hc.withDecoder d) (Nat.zero_add (left + 1)).le
      refine ⟨henter.trans (Walk.andThen_alike rfl fun _ => hrest), fun hok => ?_⟩
      have hending := (congrArg Walk.ending henter).symm.trans hok
      obtain ⟨d', hwithin⟩ := hafter hending
      rw [Nat.zero_add] at hwithin
      exact hsame ▸ hwithin.leave hn

/-- From the front of a segment on, reading every row is walking the segments that are left. -/
theorem walkRows_walkSegments (h : segments.Sized sizes) {left : Nat} (hleft : segment + left = sizes.length)
    (hc : c.ShortOf sizes segment) :
    (segments.walkRows c
        (List.range' (rowsBefore sizes segment) (sizes.sum - rowsBefore sizes segment))).touching =
      (segments.walkSegments segment (rowsBefore sizes segment) left).touching := by
  induction left generalizing segment c with
  | zero =>
    have hend : rowsBefore sizes segment = sizes.sum := by
      rw [← rowsBefore_length, ← hleft, Nat.add_zero]
    rw [hend, Nat.sub_self]
    rfl
  | succ left ih =>
    have hlt : segment < sizes.length := by omega
    have hn := List.getElem?_eq_getElem hlt
    have hle := rowsBefore_add_le hn
    have hsplit : List.range' (rowsBefore sizes segment) (sizes.sum - rowsBefore sizes segment) =
        List.range' (rowsBefore sizes segment) sizes[segment] ++
          List.range' (rowsBefore sizes (segment + 1)) (sizes.sum - rowsBefore sizes (segment + 1)) := by
      rw [rowsBefore_succ hn, List.range'_append_1]
      congr 1
      omega
    obtain ⟨hsegment, hafter⟩ := walkRows_walkSegment h hn hc
    rw [hsplit, walkRows_append, walkSegments, h.size hn]
    refine Walk.andThen_alike ?_ fun hok => ?_
    · rw [hsegment, Walk.touching_andThen]
      rfl
    · rw [← rowsBefore_succ hn]
      exact ih (by omega) (hafter hok)

/-- Reading every row of a column is walking all of it. -/
theorem walkRows_walkAll (h : segments.Sized sizes) :
    (segments.walkRows {} (List.range sizes.sum)).touching = segments.walkAll.touching := by
  have hsweep := walkRows_walkSegments h (Nat.zero_add sizes.length) (Cursor.shortOf_new sizes 0)
  rw [rowsBefore_zero, Nat.sub_zero, ← List.range_eq_range'] at hsweep
  rw [hsweep, walkAll, h.count]

/-! ### Nothing is skipped -/

theorem decodeRows_skipsNothing (segment row : Nat) (d : δ) (n : Nat) :
    (segments.decodeRows segment row d n).SkipsNothing := by
  induction n generalizing row d with
  | zero => exact fun _ _ => List.not_mem_nil
  | succ n ih =>
    rcases hnext : segments.next d with ⟨e | value, d'⟩
    · rw [decodeRows_of_error hnext]
      simp [Walk.SkipsNothing, Walk.ofCalls]
    · rw [decodeRows_of_ok hnext]
      refine Walk.SkipsNothing.andThen ?_ (ih (row + 1) d')
      simp [Walk.SkipsNothing]

theorem walkSegment_skipsNothing (segment base n : Nat) :
    (segments.walkSegment segment base n).SkipsNothing := by
  unfold walkSegment
  split
  · exact fun _ _ => List.not_mem_nil
  · cases segments.decoder segment with
    | error e => simp [Walk.SkipsNothing, Walk.ofCalls]
    | ok d =>
      refine Walk.SkipsNothing.andThen ?_ (decodeRows_skipsNothing segment base d n)
      simp [Walk.SkipsNothing, Walk.ofCalls]

theorem walkSegments_skipsNothing (segment base left : Nat) :
    (segments.walkSegments segment base left).SkipsNothing := by
  induction left generalizing segment base with
  | zero => exact fun _ _ => List.not_mem_nil
  | succ left ih =>
    rw [walkSegments]
    cases segments.size segment with
    | error e => simp [Walk.SkipsNothing, Walk.ofCalls]
    | ok n =>
      refine Walk.SkipsNothing.andThen (Walk.SkipsNothing.andThen ?_ ?_) (ih (segment + 1) (base + n))
      · simp [Walk.SkipsNothing, Walk.ofCalls]
      · exact segments.walkSegment_skipsNothing segment base n

end Segments

/-! ## Stages -/

/-- Two stages have the same outcome and make the same calls into the segments of their column, none of which
    skips. -/
structure Stage.SweepAlike {β : Type} (s s' : Stage β) : Prop where
  result : s.result = s'.result
  touches : s.calls.filter Access.touches = s'.calls.filter Access.touches
  no_skip : ∀ segment n, Access.skip segment n ∉ s.calls ∧ Access.skip segment n ∉ s'.calls

namespace Segments

/-- As long as all sizes can be had, a stage without candidates and one over every row cannot be told apart,
    whatever else fails. They come to the same values in the same order. -/
theorem stages_of_every_row (h : segments.Sized sizes) :
    let every := Candidates.bounded (List.range sizes.sum)
    (segments.walk .unbounded).visited = (segments.walk every).visited ∧
      (∀ test, (segments.filter .unbounded test).SweepAlike (segments.filter every test)) ∧
      (segments.project .unbounded).SweepAlike (segments.project every) := by
  intro every
  have halike : (segments.walk .unbounded).touching = (segments.walk every).touching :=
    (walkRows_walkAll h).symm
  have hvisited := congrArg Walk.visited halike
  have hvalues := congrArg Walk.values halike
  have hcalls := congrArg Walk.calls halike
  have hskips : (segments.walk .unbounded).SkipsNothing := segments.walkSegments_skipsNothing 0 0 segments.count
  have hnone := fun segment n => And.intro (hskips segment n) (hskips.of_alike halike segment n)
  refine ⟨hvisited, fun test => ?_, hvalues, hcalls, hnone⟩
  have hkeep := congrArg (Walk.keep test) halike
  exact ⟨hkeep, hcalls, hnone⟩

/-- The last of three chunks is reported to have two more rows than it holds. -/
theorem stages_of_every_row_overstated :
    let source : Segments (ChunkDecoder String) String :=
      { ofChunks [["a", "b"], [], ["c"]] with size := fun segment => .ok ([2, 0, 3][segment]?.getD 0) }
    let every := Candidates.bounded (List.range 5)
    source.Sized [2, 0, 3] ∧
      (source.walk every).visited = [(0, "a"), (1, "b"), (2, "c")] ∧
      (source.walk .unbounded).visited = (source.walk every).visited ∧
      (source.project every).result = .error (.truncatedSegment 2 1 0) ∧
      (source.project .unbounded).SweepAlike (source.project every) ∧
      (source.project every).calls.filter Access.touches =
        [.enter 0, .decode 0, .decode 0, .enter 2, .decode 2, .decode 2] := by
  intro source every
  have hsized : source.Sized [2, 0, 3] := by
    refine ⟨rfl, fun hsize => ?_⟩
    show Except.ok _ = _
    rw [hsize]
    rfl
  obtain ⟨hvisited, -, hproject⟩ := stages_of_every_row hsized
  refine ⟨hsized, ?_, hvisited, ?_, hproject, ?_⟩
  · cbv
  · cbv
  · cbv

end Segments

end Pushdown
