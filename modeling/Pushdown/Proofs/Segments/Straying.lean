-- SUMMARY: What a cursor hands out when it is read from again after a fault.
import Pushdown.Proofs.Segments.Reading

/-!
# Reading on after a fault

A cursor that failed can be read from again. The decoder has then used up the cell that has no value, while
the offset that the cursor keeps still is the one after the last row read. So the decoder has strayed from
that offset by some cells, which are lost to the segment: every later read of it passes over as many cells
as lie between the two rows, and comes to a cell that lies as far past the row that was asked for.

How many cells are lost can be told from the requests so far and what came of them: `Progress` adds them up.
There are none exactly as long as no row of the segment ended with a fault. A request that the cursor refuses
does no harm. That the decoder of the open segment stands where the progress puts it, and that no later segment
has made any, is the invariant `Cursor.Strayed`.
-/

namespace Pushdown

variable {δ α : Type} {segments : Segments δ α} {parts : List (Cells α)} {ahead : δ → Cells α → Prop}

/-! ## The row in its segment -/

/-- The row lies in the segment that holds the part, `offset` rows after its first. -/
structure LiesIn (parts : List (Cells α)) (row segment offset : Nat) (part : Cells α) : Prop where
  part_eq : parts[segment]? = some part
  offset_lt : offset < part.length
  row_eq : startOf parts segment + offset = row

namespace LiesIn

variable {row segment offset segment' offset' : Nat} {part part' : Cells α}

theorem liesAt (h : LiesIn parts row segment offset part) :
    LiesAt (parts.map List.length) row ⟨segment, offset⟩ where
  offset_lt := ⟨part.length, by simp [h.part_eq], h.offset_lt⟩
  row_eq := h.row_eq

/-- A row lies in one segment only. -/
theorem segment_eq (h : LiesIn parts row segment offset part)
    (h' : LiesIn parts row segment' offset' part') : segment = segment' :=
  congrArg Location.segment (h.liesAt.unique h'.liesAt)

end LiesIn

/-! ## What was read so far -/

/-- The rows that were asked for, with what came of each. -/
abbrev Transcript (α : Type) := List (Nat × Except Failure α)

/-- Asking for one row after the other, going on after errors. -/
def Cursor.transcript (segments : Segments δ α) : List Nat → Cursor δ → Transcript α
  | [], _ => []
  | row :: rows, c =>
    let reading := c.read segments row
    (row, reading.result) :: transcript segments rows reading.cursor

@[simp] theorem Cursor.transcript_nil (c : Cursor δ) : c.transcript segments [] = [] := rfl

@[simp] theorem Cursor.transcript_cons (c : Cursor δ) (row : Nat) (rows : List Nat) :
    c.transcript segments (row :: rows) =
      (row, (c.read segments row).result) :: (c.read segments row).cursor.transcript segments rows := rfl

/-- A request for a row of the segment ended with a fault of the store. -/
def Struck (parts : List (Cells α)) (earlier : Transcript α) (segment : Nat) : Prop :=
  ∃ row e offset part, (row, .error e) ∈ earlier ∧ e.isStoreFault = true ∧
    LiesIn parts row segment offset part

variable {earlier : Transcript α} {row segment offset : Nat} {part : Cells α} {e : Failure}

theorem not_struck_nil (parts : List (Cells α)) (segment : Nat) : ¬ Struck parts [] segment := by
  simp [Struck]

theorem Struck.append (h : Struck parts earlier segment) (more : Transcript α) :
    Struck parts (earlier ++ more) segment := by
  obtain ⟨row, e, offset, part, hmem, he, hrow⟩ := h
  exact ⟨row, e, offset, part, List.mem_append_left _ hmem, he, hrow⟩

/-- Only a fault makes a difference, and only to the segment of the row. -/
theorem struck_concat {result : Except Failure α} :
    Struck parts (earlier ++ [(row, result)]) segment ↔ Struck parts earlier segment ∨
      ∃ e offset part, result = .error e ∧ e.isStoreFault = true ∧ LiesIn parts row segment offset part := by
  constructor
  · rintro ⟨row', e, offset, part, hmem, he, hrow⟩
    rcases List.mem_append.mp hmem with hmem | hmem
    · exact .inl ⟨row', e, offset, part, hmem, he, hrow⟩
    · obtain ⟨rfl, rfl⟩ := Prod.mk.inj (List.mem_singleton.mp hmem)
      exact .inr ⟨e, offset, part, rfl, he, hrow⟩
  · rintro (h | ⟨e, offset, part, rfl, he, hrow⟩)
    · exact h.append _
    · exact ⟨row, e, offset, part, by simp, he, hrow⟩

/-- A value and a refusal leave things as they were. -/
theorem struck_concat_of_no_fault {result : Except Failure α}
    (h : ∀ e, result = .error e → e.isStoreFault = false) :
    Struck parts (earlier ++ [(row, result)]) segment ↔ Struck parts earlier segment := by
  rw [struck_concat, or_iff_left]
  rintro ⟨e, offset, part, hresult, he, -⟩
  simp [h e hresult] at he

theorem struck_concat_of_fault (hrow : LiesIn parts row segment offset part) (he : e.isStoreFault = true)
    {other : Nat} :
    Struck parts (earlier ++ [(row, .error e)]) other ↔ Struck parts earlier other ∨ other = segment := by
  rw [struck_concat]
  refine or_congr_right ⟨?_, ?_⟩
  · rintro ⟨e', offset', part', -, -, hother⟩
    exact hother.segment_eq hrow
  · rintro rfl
    exact ⟨e, offset, part, rfl, he, hrow⟩

/-! ## Cells that are lost -/

/-- Where the requests for rows of a segment have left it: the offset after the last row that was read, and how
    many cells the decoder stands past it. -/
structure Progress where
  next : Nat := 0
  lost : Nat := 0

namespace Progress

/-- The number of cells that a request uses up if it fails: those before the row and its own, as far as they are
    there. None are used up if there are too few to skip. -/
def spent (p : Progress) (size offset : Nat) : Nat :=
  if offset + p.lost < size then offset - p.next + 1
  else if offset + p.lost = size then offset - p.next
  else 0

/-- The progress after a request for a row. One that is refused makes none. -/
def after (p : Progress) (size offset : Nat) : Except Failure α → Progress
  | .ok _ => { p with next := offset + 1 }
  | .error e => if e.isStoreFault then { p with lost := p.lost + p.spent size offset } else p

/-- The progress that requests have made in a segment, if they were for rows of it. -/
def of (sizes : List Nat) (segment : Nat) (earlier : Transcript α) : Progress :=
  earlier.foldl (fun p (row, result) =>
    let start := rowsBefore sizes segment
    let size := sizes[segment]?.getD 0
    if start ≤ row ∧ row < start + size then p.after size (row - start) result else p) {}

variable {p : Progress} {size other : Nat} {result : Except Failure α}

theorem after_ok (value : α) : p.after size offset (.ok value) = { p with next := offset + 1 } := rfl

theorem after_fault (he : e.isStoreFault = true) :
    p.after size offset (.error e : Except Failure α) = { p with lost := p.lost + p.spent size offset } :=
  if_pos he

theorem after_refused (he : e.isStoreFault = false) : p.after size offset (.error e : Except Failure α) = p :=
  if_neg (by simp [he])

/-- A fault in a row that is there costs a cell, if none was lost before. -/
theorem lost_add_spent_pos (p : Progress) (hoffset : offset < size) : 0 < p.lost + p.spent size offset := by
  unfold spent
  split
  · omega
  · omega

@[simp] theorem of_nil (sizes : List Nat) (segment : Nat) : of sizes segment ([] : Transcript α) = {} := rfl

/-- A row of the segment is the only one that counts. -/
theorem of_concat_self (hrow : LiesIn parts row segment offset part) :
    of (parts.map List.length) segment (earlier ++ [(row, result)]) =
      (of (parts.map List.length) segment earlier).after part.length offset result := by
  have hsize : (parts.map List.length)[segment]?.getD 0 = part.length := by simp [hrow.part_eq]
  have hstart : rowsBefore (parts.map List.length) segment + offset = row := hrow.row_eq
  have hoffset := hrow.offset_lt
  simp only [of, List.foldl_append, List.foldl_cons, List.foldl_nil, hsize]
  rw [if_pos (by omega), show row - rowsBefore (parts.map List.length) segment = offset by omega]

theorem of_concat_of_not_liesIn (hrow : ∀ offset part, ¬ LiesIn parts row segment offset part) :
    of (parts.map List.length) segment (earlier ++ [(row, result)]) =
      of (parts.map List.length) segment earlier := by
  simp only [of, List.foldl_append, List.foldl_cons, List.foldl_nil]
  refine if_neg ?_
  rintro ⟨hstart, hend⟩
  cases hpart : parts[segment]? with
  | none => simp [hpart] at hend; omega
  | some part =>
    simp only [List.getElem?_map, hpart, Option.map_some, Option.getD_some] at hend
    refine hrow (row - rowsBefore (parts.map List.length) segment) part ⟨hpart, by omega, ?_⟩
    exact Nat.add_sub_cancel' hstart

theorem of_concat_other (hrow : LiesIn parts row segment offset part) (hother : other ≠ segment) :
    of (parts.map List.length) other (earlier ++ [(row, result)]) =
      of (parts.map List.length) other earlier :=
  of_concat_of_not_liesIn fun _ _ h => hother (h.segment_eq hrow)

theorem of_concat_refused (he : e.isStoreFault = false) (sizes : List Nat) :
    of sizes segment (earlier ++ [(row, .error e)]) = of sizes segment earlier := by
  simp only [of, List.foldl_append, List.foldl_cons, List.foldl_nil]
  split
  · exact after_refused he
  · rfl

/-- No cell is lost exactly as long as no row of the segment ended with a fault. -/
theorem lost_eq_zero_iff (parts : List (Cells α)) (segment : Nat) (earlier : Transcript α) :
    (of (parts.map List.length) segment earlier).lost = 0 ↔ ¬ Struck parts earlier segment := by
  induction earlier using List.reverseRecOn with
  | nil => simpa using not_struck_nil parts segment
  | append_singleton earlier entry ih =>
    obtain ⟨row, result⟩ := entry
    by_cases hrow : ∃ offset part, LiesIn parts row segment offset part
    · obtain ⟨offset, part, hrow⟩ := hrow
      rw [of_concat_self hrow]
      cases result with
      | ok value =>
        rw [after_ok, struck_concat_of_no_fault (by simp)]
        exact ih
      | error e =>
        cases he : e.isStoreFault with
        | true =>
          have hlost := (of (parts.map List.length) segment earlier).lost_add_spent_pos hrow.offset_lt
          rw [after_fault he, struck_concat_of_fault hrow he]
          exact iff_of_false hlost.ne' (not_not.mpr (.inr rfl))
        | false =>
          rw [after_refused he, struck_concat_of_no_fault fun e' he' => by cases he'; exact he]
          exact ih
    · have hnone : ∀ offset part, ¬ LiesIn parts row segment offset part := fun offset part h =>
        hrow ⟨offset, part, h⟩
      rw [of_concat_of_not_liesIn hnone, struck_concat, or_iff_left]
      · exact ih
      · rintro ⟨_, offset, part, -, -, h⟩
        exact hnone offset part h

end Progress

/-! ## Reading with a decoder that has strayed -/

/-- Past the end of its part a decoder refuses with a fault of the store, and stays where it is. -/
structure Segments.Refuses (segments : Segments δ α) (ahead : δ → Cells α → Prop) : Prop where
  skip : ∀ {d rest n}, ahead d rest → rest.length < n →
    ∃ e d', segments.skip d n = (.error e, d') ∧ e.isStoreFault = true ∧ ahead d' rest
  next : ∀ {d}, ahead d [] →
    ∃ e d', segments.next d = (.error e, d') ∧ e.isStoreFault = true ∧ ahead d' []

/-- Where a part has no value, the store is at fault. -/
def Faulting (parts : List (Cells α)) : Prop :=
  ∀ part ∈ parts, ∀ e : Failure, .error e ∈ part → e.isStoreFault = true

/-- The decoder stands where the progress puts it in its part. -/
structure Entered.Strays (parts : List (Cells α)) (ahead : δ → Cells α → Prop) (o : Entered δ)
    (part : Cells α) (p : Progress) : Prop where
  part_eq : parts[o.segment]? = some part
  next_eq : o.next = p.next
  ahead : ahead o.decoder (part.drop (p.next + p.lost))
  lost_le : p.next + p.lost ≤ part.length

namespace Entered

variable {o : Entered δ} {p : Progress}

/-- The decoder after a fault, as many cells further as were used up. -/
theorem Strays.fault (ho : o.Strays parts ahead part p) {d' : δ} {cells : Nat}
    (he : e.isStoreFault = true) (hspent : p.spent part.length offset = cells)
    (hahead : ahead d' (part.drop (p.next + p.lost + cells))) (hle : p.next + p.lost + cells ≤ part.length) :
    ({ o with decoder := d' } : Entered δ).Strays parts ahead part
      (p.after part.length offset (.error e : Except Failure α)) := by
  rw [Progress.after_fault he, hspent]
  rw [Nat.add_assoc] at hahead hle
  exact ⟨ho.part_eq, ho.next_eq, hahead, hle⟩

/-- Where too few cells are left for the row, the read fails. The decoder had strayed before. -/
theorem read_past_end (h : segments.Holds parts ahead) (hrefuses : segments.Refuses ahead)
    (ho : o.Strays parts ahead part p) (hnext : o.next ≤ offset) (hpast : part.length ≤ offset + p.lost) :
    ∃ e d' calls, o.read segments offset = (.error e, { o with decoder := d' }, calls) ∧
      e.isStoreFault = true ∧
      ({ o with decoder := d' } : Entered δ).Strays parts ahead part
        (p.after part.length offset (.error e : Except Failure α)) := by
  have hstart := ho.next_eq
  have hle := ho.lost_le
  unfold read
  by_cases hgap : offset - o.next = 0
  · have hend : part.drop (p.next + p.lost) = [] := List.drop_eq_nil_of_le (by omega)
    obtain ⟨e, d', hfail, he, hahead⟩ := hrefuses.next (hend ▸ ho.ahead)
    rw [← hend] at hahead
    rw [if_pos hgap]
    simp only [decodeAt, hfail]
    have hspent : p.spent part.length offset = 0 := by
      unfold Progress.spent
      split_ifs <;> omega
    exact ⟨e, d', _, rfl, he, ho.fault he hspent hahead hle⟩
  · rw [if_neg hgap]
    rcases Nat.lt_or_ge (part.drop (p.next + p.lost)).length (offset - o.next) with hlt | hge
    · obtain ⟨e, d', hfail, he, hahead⟩ := hrefuses.skip ho.ahead hlt
      rw [List.length_drop] at hlt
      rw [hfail]
      have hspent : p.spent part.length offset = 0 := by
        unfold Progress.spent
        split_ifs <;> omega
      exact ⟨e, d', _, rfl, he, ho.fault he hspent hahead hle⟩
    · obtain ⟨d₁, hskip, hahead₁⟩ := h.skip ho.ahead hge
      rw [List.length_drop] at hge
      rw [List.drop_drop] at hahead₁
      have hend : part.drop (p.next + p.lost + (offset - o.next)) = [] := List.drop_eq_nil_of_le (by omega)
      obtain ⟨e, d', hfail, he, hahead⟩ := hrefuses.next (hend ▸ hahead₁)
      rw [← hend] at hahead
      rw [hskip]
      simp only [decodeAt, hfail]
      have hspent : p.spent part.length offset = offset - o.next := by
        unfold Progress.spent
        split_ifs <;> omega
      exact ⟨e, d', _, rfl, he, ho.fault he hspent hahead (by omega)⟩

/-- A read hands out the cell that lies as far past the row as the decoder has strayed, or it fails with a fault of
    the store. Either way it makes the progress that is told from its result. -/
theorem read_strays (h : segments.Holds parts ahead) (hrefuses : segments.Refuses ahead)
    (hfaulting : Faulting parts) (ho : o.Strays parts ahead part p) (hnext : o.next ≤ offset) :
    ∃ result o' calls, o.read segments offset = (result, o', calls) ∧ o'.segment = o.segment ∧
      o'.Strays parts ahead part (p.after part.length offset result) ∧
      ((∃ value, result = .ok value ∧ part[offset + p.lost]? = some (.ok value)) ∨
        ∃ e, result = .error e ∧ e.isStoreFault = true) := by
  rcases Nat.lt_or_ge (offset + p.lost) part.length with hlt | hpast
  · have hserves : segments.Serves (fun _ => False) parts ahead := h.serves
    have hstart := ho.next_eq
    rcases read_eq hserves (hstart.symm ▸ ho.ahead) hnext hlt with ⟨d', calls, hread, hahead⟩ | ⟨e, -, -, -, hfalse⟩
    · cases hcell : part[offset + p.lost] with
      | ok value =>
        simp only [hcell] at hread
        refine ⟨_, _, _, hread, rfl, ?_, .inl ⟨value, rfl, by rw [List.getElem?_eq_getElem hlt, hcell]⟩⟩
        have hposition : offset + 1 + p.lost = offset + p.lost + 1 := by omega
        exact ⟨ho.part_eq, rfl, by rw [Progress.after_ok]; exact hposition ▸ hahead,
          by rw [Progress.after_ok]; exact hposition ▸ hlt⟩
      | error e =>
        simp only [hcell] at hread
        have he := hfaulting part (List.mem_of_getElem? ho.part_eq) e (hcell ▸ List.getElem_mem hlt)
        have hspent : p.spent part.length offset = offset - p.next + 1 := if_pos hlt
        have hposition : p.next + p.lost + (offset - p.next + 1) = offset + p.lost + 1 := by omega
        exact ⟨_, _, _, hread, rfl, ho.fault he hspent (hposition ▸ hahead) (by omega), .inr ⟨e, rfl, he⟩⟩
    · exact hfalse.elim
  · obtain ⟨e, d', calls, hread, he, hstrays⟩ := read_past_end h hrefuses ho hnext hpast
    exact ⟨_, _, _, hread, rfl, hstrays, .inr ⟨e, rfl, he⟩⟩

end Entered

/-! ## The invariant of a cursor -/

/-- A search leaves the locator at the start of a segment, and not before the one it was at. -/
theorem Locator.advance_stands {permitted : Failure → Prop} (h : segments.Serves permitted parts ahead)
    {l : Locator} (hl : l.Stands parts) (row : Nat) :
    (advance segments.count segments.size row l).locator.Stands parts ∧
      l.segment ≤ (advance segments.count segments.size row l).locator.segment := by
  obtain ⟨hfront, hle⟩ := hl.atFront.advance h.sized row
  exact ⟨hfront.stands, hle⟩

namespace Cursor

variable {c : Cursor δ}

/-- The cursor after some requests. The decoder of the open segment stands where its progress puts it, and the
    segments behind that one are untouched. -/
structure Strayed (parts : List (Cells α)) (ahead : δ → Cells α → Prop) (earlier : Transcript α)
    (c : Cursor δ) : Prop where
  locator : c.locator.Stands parts
  untouched : ∀ {segment}, (∀ o, c.opened = some o → o.segment < segment) →
    Progress.of (parts.map List.length) segment earlier = {}
  segment_le : ∀ {o}, c.opened = some o → o.segment ≤ c.locator.segment
  next_eq : ∀ {o}, c.opened = some o →
    o.next = 0 ∨ ∃ previous, c.lastRow = some previous ∧ startOf parts o.segment + o.next = previous + 1
  strays : ∀ {o}, c.opened = some o →
    ∃ part, o.Strays parts ahead part (.of (parts.map List.length) o.segment earlier)

theorem strayed_new (parts : List (Cells α)) (ahead : δ → Cells α → Prop) : Strayed parts ahead [] {} where
  locator := Locator.stands_new parts
  untouched _ := rfl
  segment_le h := by cases h
  next_eq h := by cases h
  strays h := by cases h

/-- A request that is refused changes nothing but the place of the locator, which may go on. -/
theorem Strayed.refuse (hc : c.Strayed parts ahead earlier) {l : Locator} (hl : l.Stands parts)
    (hle : c.locator.segment ≤ l.segment) (he : e.isStoreFault = false) :
    ({ c with locator := l } : Cursor δ).Strayed parts ahead (earlier ++ [(row, .error e)]) where
  locator := hl
  untouched hsegment := by
    rw [Progress.of_concat_refused he]
    exact hc.untouched hsegment
  segment_le ho := (hc.segment_le ho).trans hle
  next_eq := hc.next_eq
  strays ho := by
    rw [Progress.of_concat_refused he]
    exact hc.strays ho

/-- The segment of a row is entered at or before the offset of the row, by a decoder that stands where the
    progress of the segment puts it. -/
theorem Strayed.enter_eq (h : segments.Holds parts ahead) (hc : c.Strayed parts ahead earlier)
    (hrow : LiesIn parts row segment offset part) (hsegment : c.locator.segment ≤ segment)
    (hlast : ∀ previous, c.lastRow = some previous → previous < row) :
    ∃ o calls, enter segments segment c.opened = (.ok o, calls) ∧ o.segment = segment ∧
      o.Strays parts ahead part (.of (parts.map List.length) segment earlier) ∧ o.next ≤ offset ∧
      (o.next = 0 ∨ ∃ previous, c.lastRow = some previous ∧
        startOf parts o.segment + o.next = previous + 1) := by
  unfold enter
  cases hopened : c.opened.filter (·.segment = segment) with
  | some o =>
    obtain ⟨hsome, hsame⟩ := Option.filter_eq_some_iff.mp hopened
    obtain rfl : o.segment = segment := of_decide_eq_true hsame
    obtain ⟨part', hstrays⟩ := hc.strays hsome
    obtain rfl : part' = part := Option.some.inj (hstrays.part_eq.symm.trans hrow.part_eq)
    have hnext := hc.next_eq hsome
    refine ⟨o, [], rfl, rfl, hstrays, ?_, hnext⟩
    rcases hnext with hzero | ⟨previous, hprevious, hstart⟩
    · rw [hzero]
      exact Nat.zero_le _
    · have hlt := hlast previous hprevious
      have hoffset := hrow.row_eq
      omega
  | none =>
    obtain ⟨d, hdecoder, hahead⟩ := h.decoder hrow.part_eq
    have hnew : Progress.of (parts.map List.length) segment earlier = {} := by
      refine hc.untouched fun o hsome => ?_
      have hle := (hc.segment_le hsome).trans hsegment
      rw [Option.filter_eq_none_iff] at hopened
      exact lt_of_le_of_ne hle fun hsame => hopened o hsome (decide_eq_true hsame)
    refine ⟨⟨segment, d, 0⟩, _, by rw [hdecoder]; rfl, rfl, ?_, Nat.zero_le _, .inl rfl⟩
    rw [hnew]
    exact ⟨hrow.part_eq, rfl, hahead, Nat.zero_le _⟩

/-- The segment of the last request is the last one that was touched, so the invariant is about that segment
    alone. -/
theorem Strayed.open (hc : c.Strayed parts ahead earlier) (hrow : LiesIn parts row segment offset part)
    (hsegment : c.locator.segment ≤ segment) {l : Locator} (hl : l.Stands parts) (hat : l.segment = segment)
    {o : Entered δ} (hopen : o.segment = segment) {lastRow : Option Nat}
    (hnext : o.next = 0 ∨ ∃ previous, lastRow = some previous ∧
      startOf parts o.segment + o.next = previous + 1)
    {result : Except Failure α}
    (hstrays : o.Strays parts ahead part
      ((Progress.of (parts.map List.length) segment earlier).after part.length offset result)) :
    ({ locator := l, opened := some o, lastRow } : Cursor δ).Strayed parts ahead
      (earlier ++ [(row, result)]) where
  locator := hl
  untouched {other} hother := by
    have hlt : segment < other := hopen ▸ hother o rfl
    rw [Progress.of_concat_other hrow hlt.ne']
    exact hc.untouched fun o' hsome => ((hc.segment_le hsome).trans hsegment).trans_lt hlt
  segment_le ho := by
    cases ho
    exact (hopen.trans hat.symm).le
  next_eq ho := by
    cases ho
    exact hnext
  strays ho := by
    cases ho
    rw [hopen, Progress.of_concat_self hrow]
    exact ⟨part, hstrays⟩

/-- What a read of the cursor comes to: the request is refused, or it is for a row of some segment, and the
    value in as many rows after it as cells were lost is handed out, or the store is at fault. -/
inductive Comes (parts : List (Cells α)) (earlier : Transcript α) (row : Nat) : Except Failure α → Prop
  | refused {e : Failure} (he : e.isStoreFault = false) : Comes parts earlier row (.error e)
  | value {segment offset : Nat} {part : Cells α} {value : α} (hrow : LiesIn parts row segment offset part)
      (hcell : part[offset + (Progress.of (parts.map List.length) segment earlier).lost]? = some (.ok value)) :
      Comes parts earlier row (.ok value)
  | fault {segment offset : Nat} {part : Cells α} {e : Failure}
      (hrow : LiesIn parts row segment offset part) (he : e.isStoreFault = true) :
      Comes parts earlier row (.error e)

/-- A read of a row that was found keeps the invariant. -/
theorem Strayed.seek_of_lt (h : segments.Holds parts ahead) (hrefuses : segments.Refuses ahead)
    (hfaulting : Faulting parts) (hc : c.Strayed parts ahead earlier) (hbase : c.locator.base ≤ row)
    (hlast : ∀ previous, c.lastRow = some previous → previous < row) (hlt : row < parts.flatten.length) :
    Comes parts earlier row (c.seek segments row).result ∧
      (c.seek segments row).cursor.Strayed parts ahead (earlier ++ [(row, (c.seek segments row).result)]) := by
  have hserves : segments.Serves (fun _ => False) parts ahead := h.serves
  obtain ⟨hstands, hforward⟩ := Locator.advance_stands hserves hc.locator row
  obtain ⟨segment, offset, part, hpart, hoffset, hstart, hresult, hlocator⟩ :=
    Locator.advance_of_lt hserves hc.locator hbase hlt
  rw [hlocator] at hstands hforward
  have hrow : LiesIn parts row segment offset part := ⟨hpart, hoffset, hstart⟩
  obtain ⟨o, entered, henter, hsegment, hstrays, hnext, hprevious⟩ := hc.enter_eq h hrow hforward hlast
  simp only [seek, seekFrom, Locator.locate, if_neg (Nat.not_lt.mpr hbase), hresult, henter]
  obtain ⟨result, o', decoded, hread, hsame, hstrays', hends⟩ :=
    Entered.read_strays h hrefuses hfaulting hstrays hnext
  have hopen : o'.segment = segment := hsame.trans hsegment
  rcases hends with ⟨value, rfl, hcell⟩ | ⟨e, rfl, he⟩
  · simp only [hread, hlocator]
    have hafter : startOf parts o'.segment + o'.next = row + 1 := by
      rw [hopen, hstrays'.next_eq, Progress.after_ok, ← hstart]
      rfl
    exact ⟨.value hrow hcell, hc.open hrow hforward hstands rfl hopen (.inr ⟨row, rfl, hafter⟩) hstrays'⟩
  · simp only [hread, hlocator]
    have hkept : o'.next = o.next := by
      rw [hstrays'.next_eq, Progress.after_fault he, hstrays.next_eq]
    rw [← hsame, ← hkept] at hprevious
    exact ⟨.fault hrow he, hc.open hrow hforward hstands rfl hopen hprevious hstrays'⟩

/-- One read keeps the invariant. -/
theorem Strayed.read (h : segments.Holds parts ahead) (hrefuses : segments.Refuses ahead)
    (hfaulting : Faulting parts) (hc : c.Strayed parts ahead earlier) (row : Nat) :
    Comes parts earlier row (c.read segments row).result ∧
      (c.read segments row).cursor.Strayed parts ahead (earlier ++ [(row, (c.read segments row).result)]) := by
  have hserves : segments.Serves (fun _ => False) parts ahead := h.serves
  unfold Cursor.read
  cases hfirst : c.lastRow.filter (row ≤ ·) with
  | some previous =>
    have hrefused : (Failure.rowOrder row previous).isStoreFault = false := rfl
    exact ⟨.refused hrefused, hc.refuse hc.locator (Nat.le_refl _) hrefused⟩
  | none =>
    have hlast : ∀ previous, c.lastRow = some previous → previous < row := by
      intro previous hprevious
      simpa using Option.filter_eq_none_iff.mp hfirst previous hprevious
    rcases Nat.lt_or_ge row c.locator.base with hbase | hbase
    · simp only [seek, seekFrom, Locator.locate, if_pos hbase]
      have hrefused : (Failure.rowOrder row c.locator.base).isStoreFault = false := rfl
      exact ⟨.refused hrefused, hc.refuse hc.locator (Nat.le_refl _) hrefused⟩
    · rcases Nat.lt_or_ge row parts.flatten.length with hlt | hge
      · exact hc.seek_of_lt h hrefuses hfaulting hbase hlast hlt
      · simp only [seek, seekFrom, Locator.locate, if_neg (Nat.not_lt.mpr hbase),
          Locator.advance_of_le hserves hc.locator hge]
        obtain ⟨hstands, hforward⟩ := Locator.advance_stands hserves hc.locator row
        have hrefused : (Failure.rowOutOfRange row parts.flatten.length).isStoreFault = false := rfl
        exact ⟨.refused hrefused, hc.refuse hstands hforward hrefused⟩

/-- Every read of a run comes to what the requests before it have left it. -/
theorem Strayed.comes (h : segments.Holds parts ahead) (hrefuses : segments.Refuses ahead)
    (hfaulting : Faulting parts) (hc : c.Strayed parts ahead earlier) {rows : List Nat}
    {before after : Transcript α} {result : Except Failure α}
    (hsplit : c.transcript segments rows = before ++ (row, result) :: after) :
    Comes parts (earlier ++ before) row result := by
  induction rows generalizing c earlier before with
  | nil => simp at hsplit
  | cons first rows ih =>
    obtain ⟨hcomes, hstrayed⟩ := hc.read h hrefuses hfaulting first
    rw [transcript_cons] at hsplit
    cases before with
    | nil =>
      obtain ⟨hhead, -⟩ := List.cons.inj hsplit
      obtain ⟨rfl, rfl⟩ := Prod.mk.inj hhead
      rw [List.append_nil]
      exact hcomes
    | cons entry before =>
      obtain ⟨rfl, hrest⟩ := List.cons.inj hsplit
      have hlater := ih hstrayed hrest
      rw [List.append_assoc] at hlater
      exact hlater

end Cursor

end Pushdown
