-- SUMMARY: A walk over segments visits the candidate rows of the cells that the segments hold.
import Pushdown.Proofs.Candidates
import Pushdown.Proofs.Segments.Cells

/-!
# Reading through segments

However the cells of a column are cut into segments, a walk hands out what visiting the candidate rows
of the joined cells hands out, or ends with a failure that the decoders are permitted. The walk over all
rows decodes every segment in turn. The walk over listed rows goes through a cursor, whose invariant
`Cursor.Ready` ties the three places it keeps together: the locator at the start of a segment, the open
decoder within its segment, and the last row read, none of them past the row that may be asked for next.
-/

namespace Pushdown

variable {δ α : Type} {segments : Segments δ α} {parts : List (Cells α)} {ahead : δ → Cells α → Prop}
  {permitted : Failure → Prop}

/-! ## Where segments start -/

/-- The number of rows before a segment. -/
def startOf (parts : List (Cells α)) (segment : Nat) : Nat :=
  ((parts.map List.length).take segment).sum

theorem startOf_zero (parts : List (Cells α)) : startOf parts 0 = 0 := rowsBefore_zero _

theorem startOf_mono (parts : List (Cells α)) : Monotone (startOf parts) := rowsBefore_mono _

theorem startOf_length (parts : List (Cells α)) :
    startOf parts parts.length = parts.flatten.length := by
  rw [startOf, List.take_of_length_le (by simp), List.length_flatten]

theorem startOf_succ {segment : Nat} {part : Cells α} (h : parts[segment]? = some part) :
    startOf parts (segment + 1) = startOf parts segment + part.length :=
  rowsBefore_succ (by rw [List.getElem?_map, h]; rfl)

/-- The cells from the start of a segment on are those of that segment and of all after it. -/
theorem drop_startOf {segment : Nat} {part : Cells α} (h : parts[segment]? = some part) :
    parts.flatten.drop (startOf parts segment) = part ++ (parts.drop (segment + 1)).flatten := by
  obtain ⟨hlt, hget⟩ := List.getElem?_eq_some_iff.mp h
  rw [startOf, List.drop_sum_flatten, List.drop_eq_getElem_cons hlt, List.flatten_cons, hget]

theorem cell_startOf {segment offset : Nat} {part : Cells α} (h : parts[segment]? = some part)
    (hoffset : offset < part.length) :
    Cells.cell parts.flatten (startOf parts segment + offset) = part[offset] := by
  have hdrop : parts.flatten.drop (startOf parts segment + offset) =
      part[offset] :: (part.drop (offset + 1) ++ (parts.drop (segment + 1)).flatten) := by
    rw [← List.drop_drop, drop_startOf h, List.drop_append_of_le_length hoffset.le,
      List.drop_eq_getElem_cons hoffset, List.cons_append]
  exact Cells.cell_of_drop hdrop

/-- A segment ends where the cells end, or before. -/
theorem startOf_add_le {segment : Nat} {part : Cells α} (h : parts[segment]? = some part) :
    startOf parts segment + part.length ≤ parts.flatten.length := by
  obtain ⟨hlt, -⟩ := List.getElem?_eq_some_iff.mp h
  rw [← startOf_succ h, ← startOf_length]
  exact startOf_mono parts hlt

/-! ## Decoding whole segments -/

namespace Segments

theorem decodeRows_visits (h : segments.Serves permitted parts ahead) {cells rest after : Cells α} {d : δ}
    {segment row : Nat} (hahead : ahead d rest) (hcells : cells.drop row = rest ++ after) :
    (segments.decodeRows segment row d rest.length).VisitsUnless permitted cells
      (List.range' row rest.length) := by
  induction rest generalizing d row with
  | nil => exact .inl rfl
  | cons c rest ih =>
    rw [List.length_cons, List.range'_succ, decodeRows]
    rcases h.next hahead with ⟨d', hnext, hahead'⟩ | ⟨e, d', hnext, he⟩
    · have hcell : cells.cell row = c := Cells.cell_of_drop hcells
      have hcells' : cells.drop (row + 1) = rest ++ after := by
        rw [← List.drop_drop, hcells]
        rfl
      cases c with
      | error e =>
        simp only [hnext]
        exact Walk.visitsUnless_of_fault hcell ..
      | ok value =>
        simp only [hnext]
        exact (ih hahead' hcells').cons hcell _
    · simp only [hnext]
      exact Walk.visitsUnless_of_permitted _ _ _ he

theorem walkSegment_visits (h : segments.Serves permitted parts ahead) {segment : Nat} {part : Cells α}
    (hpart : parts[segment]? = some part) :
    (segments.walkSegment segment (startOf parts segment) part.length).VisitsUnless permitted parts.flatten
      (List.range' (startOf parts segment) part.length) := by
  have hopened : (Walk.ofCalls [.enter segment] (.ok ()) : Walk α).VisitsUnless permitted parts.flatten [] :=
    .inl (Walk.visits_ofCalls _ _)
  unfold walkSegment
  by_cases hempty : part.length = 0
  · simp only [hempty]
    exact .inl rfl
  · rw [if_neg hempty]
    rcases h.decoder hpart with ⟨d, hdecoder, hahead⟩ | ⟨e, hdecoder, he⟩
    · rw [hdecoder]
      exact hopened.andThen (decodeRows_visits h hahead (drop_startOf hpart))
    · rw [hdecoder]
      exact Walk.visitsUnless_of_permitted _ _ _ he

/-- The walk from a segment on visits the rows from its start on. -/
theorem walkSegments_visits (h : segments.Serves permitted parts ahead) {segment left : Nat}
    (hleft : segment + left = parts.length) :
    (segments.walkSegments segment (startOf parts segment) left).VisitsUnless permitted parts.flatten
      (List.range' (startOf parts segment) (parts.flatten.length - startOf parts segment)) := by
  induction left generalizing segment with
  | zero =>
    have hend : startOf parts segment = parts.flatten.length := by
      rw [← startOf_length, ← hleft, Nat.add_zero]
    rw [hend, Nat.sub_self]
    exact .inl rfl
  | succ left ih =>
    have hpart : parts[segment]? = some parts[segment] := List.getElem?_eq_getElem (by omega)
    have hsucc := startOf_succ hpart
    have hsize := startOf_add_le hpart
    have hrows : List.range' (startOf parts segment)
          (parts.flatten.length - startOf parts segment) =
        List.range' (startOf parts segment) parts[segment].length ++
          List.range' (startOf parts (segment + 1))
            (parts.flatten.length - startOf parts (segment + 1)) := by
      have hlength : parts.flatten.length - startOf parts segment =
          parts[segment].length + (parts.flatten.length - startOf parts (segment + 1)) := by omega
      rw [hlength, hsucc, List.range'_append_1]
    have hmeasured : (Walk.ofCalls [.measure segment] (.ok ()) : Walk α).VisitsUnless permitted
        parts.flatten [] := .inl (Walk.visits_ofCalls _ _)
    have hleft' : segment + 1 + left = parts.length := by omega
    have hrest := ih hleft'
    rw [hsucc] at hrest
    rw [hrows, walkSegments, h.size hpart, hsucc]
    exact (hmeasured.andThen (walkSegment_visits h hpart)).andThen hrest

theorem walkAll_visits (h : segments.Serves permitted parts ahead) :
    segments.walkAll.VisitsUnless permitted parts.flatten (List.range parts.flatten.length) := by
  have hcount : 0 + segments.count = parts.length := by rw [Nat.zero_add, h.count]
  have hall := walkSegments_visits h hcount
  rw [startOf_zero, Nat.sub_zero, ← List.range_eq_range'] at hall
  exact hall

end Segments

/-! ## Locating rows -/

/-- The locator stands at the start of a segment, or after the last one. -/
structure Locator.Stands (parts : List (Cells α)) (l : Locator) : Prop where
  segment_le : l.segment ≤ parts.length
  base_eq : l.base = startOf parts l.segment

namespace Locator

variable {l : Locator} {row : Nat}

theorem Stands.atFront (hl : l.Stands parts) : l.AtFront (parts.map List.length) :=
  ⟨by simpa using hl.segment_le, hl.base_eq⟩

theorem AtFront.stands (hl : l.AtFront (parts.map List.length)) : l.Stands parts :=
  ⟨by simpa using hl.segment_le, hl.base_eq⟩

theorem stands_new (parts : List (Cells α)) : ({} : Locator).Stands parts := (atFront_new _).stands

/-- A row of the column is found in its segment, where the locator then stands. -/
theorem advance_of_lt (h : segments.Serves permitted parts ahead) (hl : l.Stands parts) (hbase : l.base ≤ row)
    (hrow : row < parts.flatten.length) :
    ∃ segment offset part, parts[segment]? = some part ∧ offset < part.length ∧
      startOf parts segment + offset = row ∧
      (advance segments.count segments.size row l).result = .ok ⟨segment, offset⟩ ∧
      (advance segments.count segments.size row l).locator = ⟨segment, startOf parts segment⟩ := by
  rw [List.length_flatten] at hrow
  have hplace := liesAt_placeOf hrow
  obtain ⟨n, hn, hoffset⟩ := hplace.offset_lt
  obtain ⟨part, hpart, rfl⟩ := by simpa using hn
  exact ⟨_, _, part, hpart, hoffset, hplace.row_eq, advance_of_liesAt h.sized hl.atFront hbase hplace⟩

/-- A row past the last one is refused with the number of rows there are. -/
theorem advance_of_le (h : segments.Serves permitted parts ahead) (hl : l.Stands parts)
    (hrow : parts.flatten.length ≤ row) :
    (advance segments.count segments.size row l).result =
      .error (.rowOutOfRange row parts.flatten.length) := by
  rw [List.length_flatten] at hrow ⊢
  exact advance_of_sum_le h.sized hl.atFront hrow

end Locator

/-! ## Reading within a segment -/

/-- The decoder stands at the next offset of its part. -/
structure Entered.Stands (parts : List (Cells α)) (ahead : δ → Cells α → Prop) (o : Entered δ)
    (part : Cells α) : Prop where
  part_eq : parts[o.segment]? = some part
  ahead : ahead o.decoder (part.drop o.next)
  next_le : o.next ≤ part.length

namespace Entered

variable {o : Entered δ} {part : Cells α} {offset : Nat}

/-- Decoding gives the cell that the decoder stands at. After a value the next offset follows the one asked
    for, wherever the decoder is. -/
theorem decodeAt_eq (h : segments.Serves permitted parts ahead) {decoder : δ} {position : Nat}
    (hahead : ahead decoder (part.drop position)) (hposition : position < part.length) (offset : Nat) :
    (∃ d', ({ o with decoder } : Entered δ).decodeAt segments offset =
        (part[position], match part[position] with
          | .ok _ => { o with decoder := d', next := offset + 1 }
          | .error _ => { o with decoder := d' }) ∧
      ahead d' (part.drop (position + 1))) ∨
    ∃ e o', ({ o with decoder } : Entered δ).decodeAt segments offset = (.error e, o') ∧ permitted e := by
  rw [List.drop_eq_getElem_cons hposition] at hahead
  unfold decodeAt
  rcases h.next hahead with ⟨d', hnext, hahead'⟩ | ⟨e, d', hnext, he⟩
  · refine .inl ⟨d', ?_, hahead'⟩
    rw [hnext]
    cases part[position] <;> rfl
  · exact .inr ⟨e, _, by rw [hnext], he⟩

/-- With a decoder that stands `lost` cells past the next offset, a read gives the cell that lies as many
    past the offset asked for. -/
theorem read_eq (h : segments.Serves permitted parts ahead) {lost : Nat}
    (hahead : ahead o.decoder (part.drop (o.next + lost))) (hnext : o.next ≤ offset)
    (hoffset : offset + lost < part.length) :
    (∃ d' calls, o.read segments offset =
        (part[offset + lost], (match part[offset + lost] with
          | .ok _ => { o with decoder := d', next := offset + 1 }
          | .error _ => { o with decoder := d' }), calls) ∧
      ahead d' (part.drop (offset + lost + 1))) ∨
    ∃ e o' calls, o.read segments offset = (.error e, o', calls) ∧ permitted e := by
  unfold read
  by_cases hgap : offset - o.next = 0
  · have hsame : o.next = offset := by omega
    rw [hsame] at hahead
    rcases decodeAt_eq (o := o) h hahead hoffset offset with ⟨d', hdecode, hahead'⟩ | ⟨e, o', hdecode, he⟩
    · exact .inl ⟨d', _, by rw [if_pos hgap]; simp only [hdecode]; rfl, hahead'⟩
    · exact .inr ⟨e, o', _, by rw [if_pos hgap]; simp only [hdecode]; rfl, he⟩
  · rw [if_neg hgap]
    rcases h.skip hahead (n := offset - o.next) (by simp; omega) with ⟨d₁, hskip, hahead₁⟩ | ⟨e, d', hskip, he⟩
    · have hposition : o.next + lost + (offset - o.next) = offset + lost := by omega
      rw [List.drop_drop, hposition] at hahead₁
      rcases decodeAt_eq (o := o) h hahead₁ hoffset offset with ⟨d', hdecode, hahead'⟩ | ⟨e, o', hdecode, he⟩
      · exact .inl ⟨d', _, by rw [hskip]; simp only [hdecode]; rfl, hahead'⟩
      · exact .inr ⟨e, o', _, by rw [hskip]; simp only [hdecode]; rfl, he⟩
    · exact .inr ⟨e, _, _, by rw [hskip], he⟩

end Entered

/-! ## Reading with a cursor -/

/-- The rows from `row` on can be asked for: nothing that the cursor keeps lies past it. -/
structure Cursor.Ready (parts : List (Cells α)) (ahead : δ → Cells α → Prop) (row : Nat)
    (c : Cursor δ) : Prop where
  lastRow_lt : ∀ {previous}, c.lastRow = some previous → previous < row
  locator : c.locator.Stands parts
  base_le : c.locator.base ≤ row
  opened : ∀ {o}, c.opened = some o →
    ∃ part, o.Stands parts ahead part ∧ startOf parts o.segment + o.next ≤ row

namespace Cursor

variable {c : Cursor δ} {row : Nat}

theorem ready_new (parts : List (Cells α)) (ahead : δ → Cells α → Prop) :
    Ready parts ahead 0 {} where
  lastRow_lt := by intro _ h; cases h
  locator := Locator.stands_new parts
  base_le := Nat.le_refl _
  opened := by intro _ h; cases h

theorem Ready.mono (hc : c.Ready parts ahead row) {later : Nat} (hle : row ≤ later) :
    c.Ready parts ahead later where
  lastRow_lt h := (hc.lastRow_lt h).trans_le hle
  locator := hc.locator
  base_le := hc.base_le.trans hle
  opened h := by
    obtain ⟨part, hpart, hrow⟩ := hc.opened h
    exact ⟨part, hpart, hrow.trans hle⟩

/-- The segment of a row is entered at or before the offset of the row, unless it does not open. -/
theorem enter_eq (h : segments.Serves permitted parts ahead) (hc : c.Ready parts ahead row) {segment offset : Nat}
    {part : Cells α} (hpart : parts[segment]? = some part) (hrow : startOf parts segment + offset = row) :
    (∃ o calls, enter segments segment c.opened = (.ok o, calls) ∧ o.segment = segment ∧
      o.Stands parts ahead part ∧ o.next ≤ offset) ∨
    ∃ e calls, enter segments segment c.opened = (.error e, calls) ∧ permitted e := by
  unfold enter
  cases hopened : c.opened.filter (·.segment = segment) with
  | some o =>
    obtain ⟨hsome, hsegment⟩ := Option.filter_eq_some_iff.mp hopened
    have hsegment : o.segment = segment := of_decide_eq_true hsegment
    obtain ⟨part', hstands, hle⟩ := hc.opened hsome
    have hsame : part' = part := by
      have hpart' := hstands.part_eq
      rw [hsegment, hpart] at hpart'
      exact (Option.some.inj hpart').symm
    subst hsame
    exact .inl ⟨o, [], rfl, hsegment, hstands, by rw [hsegment] at hle; omega⟩
  | none =>
    rcases h.decoder hpart with ⟨d, hdecoder, hahead⟩ | ⟨e, hdecoder, he⟩
    · exact .inl ⟨⟨segment, d, 0⟩, _, by rw [hdecoder]; rfl, rfl, ⟨hpart, hahead, Nat.zero_le _⟩,
        Nat.zero_le _⟩
    · exact .inr ⟨e, _, by rw [hdecoder]; rfl, he⟩

/-- A read gives the cell of its row, unless it fails as permitted. After a value the rows that follow can be
    asked for. -/
theorem read_eq (h : segments.Serves permitted parts ahead) (hc : c.Ready parts ahead row) :
    ((c.read segments row).result = Cells.cell parts.flatten row ∧
      ∀ {value}, Cells.cell parts.flatten row = .ok value →
        (c.read segments row).cursor.Ready parts ahead (row + 1)) ∨
    ∃ e, (c.read segments row).result = .error e ∧ permitted e := by
  have hfirst : c.lastRow.filter (row ≤ ·) = none := by
    rw [Option.filter_eq_none_iff]
    intro previous hprevious
    have hlt := hc.lastRow_lt hprevious
    simpa using hlt
  have hbase : ¬ row < c.locator.base := Nat.not_lt.mpr hc.base_le
  unfold read
  rw [hfirst]
  simp only [seek, seekFrom, Locator.locate, if_neg hbase]
  rcases Nat.lt_or_ge row parts.flatten.length with hrow | hrow
  · obtain ⟨segment, offset, part, hpart, hoffset, hstart, hresult, hlocator⟩ :=
      Locator.advance_of_lt h hc.locator hc.base_le hrow
    have hcell : Cells.cell parts.flatten row = part[offset] := by
      rw [← hstart]
      exact cell_startOf hpart hoffset
    rcases enter_eq h hc hpart hstart with
      ⟨o, entered, henter, hsegment, hstands, hnext⟩ | ⟨e, entered, henter, he⟩
    · have hahead : ahead o.decoder (part.drop (o.next + 0)) := hstands.ahead
      rcases Entered.read_eq h hahead hnext hoffset with
        ⟨d', decoded, hread, hahead⟩ | ⟨e, o', decoded, hread, he⟩
      · apply Or.inl
        simp only [Nat.add_zero] at hread hahead
        simp only [hresult, henter, hread, hlocator, hcell]
        cases hvalue : part[offset] with
        | error e => exact ⟨rfl, by intro _ h; cases h⟩
        | ok value =>
          refine ⟨rfl, fun _ => ⟨?_, ?_, ?_, ?_⟩⟩
          · intro previous hprevious
            cases hprevious
            exact Nat.lt_succ_self row
          · exact ⟨(List.getElem?_eq_some_iff.mp hpart).1.le, rfl⟩
          · show startOf parts segment ≤ row + 1
            omega
          · intro o' ho'
            cases ho'
            subst hsegment
            refine ⟨part, ⟨hpart, hahead, hoffset⟩, ?_⟩
            show startOf parts o.segment + (offset + 1) ≤ row + 1
            omega
      · apply Or.inr
        simp only [hresult, henter, hread]
        exact ⟨e, rfl, he⟩
    · apply Or.inr
      simp only [hresult, henter]
      exact ⟨e, rfl, he⟩
  · rw [Locator.advance_of_le h hc.locator hrow, Cells.cell_of_le hrow]
    exact .inl ⟨rfl, by intro _ h; cases h⟩

end Cursor

/-! ## Walking through candidates -/

namespace Segments

/-- Rows in ascending order are visited one after the other: the cursor stays ready for the next. -/
theorem walkRows_visits (h : segments.Serves permitted parts ahead) {c : Cursor δ} {row : Nat}
    (hc : c.Ready parts ahead row) {rows : List Nat} (hfrom : ∀ r ∈ rows, row ≤ r)
    (hrows : rows.Pairwise (· < ·)) :
    (segments.walkRows c rows).VisitsUnless permitted parts.flatten rows := by
  induction rows generalizing c row with
  | nil => exact .inl rfl
  | cons r rows ih =>
    obtain ⟨hlt, hrows⟩ := List.pairwise_cons.mp hrows
    unfold walkRows
    rcases Cursor.read_eq h (hc.mono (hfrom r List.mem_cons_self)) with ⟨hresult, hready⟩ | ⟨e, hresult, he⟩
    · simp only [hresult]
      cases hcell : Cells.cell parts.flatten r with
      | error e => exact Walk.visitsUnless_of_fault hcell ..
      | ok value => exact (ih (hready hcell) (fun r' hr' => hlt r' hr') hrows).cons hcell _
    · simp only [hresult]
      exact Walk.visitsUnless_of_permitted _ _ _ he

/-- A walk visits the candidate rows of the joined cells, unless it fails as permitted. -/
theorem walk_visitsUnless (h : segments.Serves permitted parts ahead) {candidates : Candidates}
    (hcandidates : candidates.Ascending) :
    (segments.walk candidates).VisitsUnless permitted parts.flatten
      (candidates.listed parts.flatten.length) := by
  cases candidates with
  | unbounded => exact walkAll_visits h
  | empty => exact .inl rfl
  | bounded rows =>
    exact walkRows_visits h (Cursor.ready_new parts ahead) (fun _ _ => Nat.zero_le _) hcandidates

/-- A walk over segments that hold the cells visits the candidate rows. -/
theorem walk_visits (h : segments.Holds parts ahead) {candidates : Candidates}
    (hcandidates : candidates.Ascending) :
    (segments.walk candidates).Visits parts.flatten (candidates.listed parts.flatten.length) :=
  (walk_visitsUnless h.serves hcandidates).visits

end Segments

end Pushdown
