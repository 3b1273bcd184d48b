-- SUMMARY: The calls by which a walk reaches listed rows, as one route through the segments.
import Pushdown.Proofs.Segments.Locating
import Pushdown.Proofs.Segments.Order

/-!
# The route to listed rows

A walk over ascending rows that comes to its end has made one and the same calls, whatever the values are:
from where the decoder stands to the next row, into its segment if another one is open, past the rows in
between if there are any, and on it. `route` writes them down from the places of the rows alone. Sizes
that were asked for on the way are left out.

`Traverses` says what such a route does to the column: no segment is entered in vain or twice, nothing is
decoded but the rows, and no more is passed over than lies before them.
-/

namespace Pushdown

/-! ## Calls -/

namespace Access

/-- A call that goes into a segment, and does not only ask for its size. -/
def touches : Access → Bool
  | .measure _ => false
  | .enter _ | .skip .. | .decode _ => true

def entered? : Access → Option Nat
  | .enter segment => some segment
  | .measure _ | .skip .. | .decode _ => none

def isDecode : Access → Bool
  | .decode _ => true
  | .measure _ | .enter _ | .skip .. => false

/-- The number of rows of the segment that a call passes, decoding them or not. -/
def passed (segment : Nat) : Access → Nat
  | .skip other rows => if other = segment then rows else 0
  | .decode other => if other = segment then 1 else 0
  | .measure _ | .enter _ => 0

end Access

/-- The rows of a segment that the calls pass. -/
def passedIn (segment : Nat) (calls : List Access) : Nat := (calls.map (Access.passed segment)).sum

/-- Made one after the other, with a decoder at the place if one is open, the calls decode the rows at the
    places listed, and no others. Rows are skipped and decoded only in the segment that is open, and no call
    skips nothing. -/
inductive Decodes : Option Location → List Access → List Location → Prop
  | nil {place? : Option Location} : Decodes place? [] []
  | measure {place? : Option Location} {segment : Nat} {calls : List Access} {goals : List Location}
      (h : Decodes place? calls goals) : Decodes place? (.measure segment :: calls) goals
  | enter {place? : Option Location} {segment : Nat} {calls : List Access} {goals : List Location}
      (h : Decodes (some ⟨segment, 0⟩) calls goals) : Decodes place? (.enter segment :: calls) goals
  | skip {segment offset n : Nat} {calls : List Access} {goals : List Location} (hn : 0 < n)
      (h : Decodes (some ⟨segment, offset + n⟩) calls goals) :
      Decodes (some ⟨segment, offset⟩) (.skip segment n :: calls) goals
  | decode {segment offset : Nat} {calls : List Access} {goals : List Location}
      (h : Decodes (some ⟨segment, offset + 1⟩) calls goals) :
      Decodes (some ⟨segment, offset⟩) (.decode segment :: calls) (⟨segment, offset⟩ :: goals)

/-- The calls lead through segments of the given sizes to the listed rows, and do nothing else. -/
structure Traverses (sizes rows : List Nat) (calls : List Access) : Prop where
  /-- No segment is entered twice, and none after a later one. -/
  ascend : (calls.filterMap Access.entered?).Pairwise (· < ·)
  /-- The segments that are entered are those with a row in them. -/
  mem_entered : ∀ segment, segment ∈ calls.filterMap Access.entered? ↔
    ∃ row ∈ rows, (placeOf sizes row).segment = segment
  decodes : Decodes none calls (rows.map (placeOf sizes))
  /-- There are as many decodings as rows. -/
  count : calls.countP Access.isDecode = rows.length
  /-- A segment is passed as far as the last of the rows in it, and that one is the last passed. -/
  passed : ∀ row ∈ rows,
    (∀ other ∈ rows, (placeOf sizes other).segment = (placeOf sizes row).segment → other ≤ row) →
    passedIn (placeOf sizes row).segment calls = (placeOf sizes row).offset + 1

/-! ## Places in order -/

namespace Location

/-- The place lies before the other, in an earlier segment or in the same one. -/
def Before (place other : Location) : Prop :=
  place.segment < other.segment ∨ place.segment = other.segment ∧ place.offset < other.offset

end Location

/-- Later rows lie in later places. -/
theorem LiesAt.before {sizes : List Nat} {row row' : Nat} {place place' : Location}
    (h : LiesAt sizes row place) (h' : LiesAt sizes row' place') (hlt : row < row') :
    place.Before place' := by
  have hsegment := h.segment_le h' hlt.le
  have hrow := h.row_eq
  have hrow' := h'.row_eq
  rcases Nat.lt_or_eq_of_le hsegment with hlater | hsame
  · exact .inl hlater
  · rw [hsame] at hrow
    exact .inr ⟨hsame, by omega⟩

/-- The places ascend, and none of them lies before the one where the decoder stands. -/
structure Ahead (place? : Option Location) (goals : List Location) : Prop where
  ascend : goals.Pairwise Location.Before
  not_before : ∀ place, place? = some place → ∀ goal ∈ goals, ¬ goal.Before place

/-- Once the first place is decoded, the decoder stands after it, and the others are still ahead. -/
theorem Ahead.tail {place? : Option Location} {goal : Location} {goals : List Location}
    (h : Ahead place? (goal :: goals)) : Ahead (some ⟨goal.segment, goal.offset + 1⟩) goals := by
  obtain ⟨hfirst, hgoals⟩ := List.pairwise_cons.mp h.ascend
  refine ⟨hgoals, fun place hplace later hlater hbefore => ?_⟩
  cases hplace
  have hafter := hfirst later hlater
  simp only [Location.Before] at hafter hbefore
  omega

/-! ## Routes -/

/-- Decode the row that lies a gap ahead of the decoder. -/
def approach (segment gap : Nat) : List Access :=
  if gap = 0 then [.decode segment] else [.skip segment gap, .decode segment]

/-- Decode the row at a place, starting from where the decoder stands. -/
def callsTo (place? : Option Location) (goal : Location) : List Access :=
  match place?.filter (·.segment = goal.segment) with
  | some place => approach goal.segment (goal.offset - place.offset)
  | none => .enter goal.segment :: approach goal.segment goal.offset

/-- Decode the rows at the places one after the other. -/
def route : Option Location → List Location → List Access
  | _, [] => []
  | place?, goal :: goals => callsTo place? goal ++ route (some ⟨goal.segment, goal.offset + 1⟩) goals

/-- The offset from which the decoder goes on in a segment: where it stands, if it stands there. -/
def startIn (segment : Nat) (place? : Option Location) : Nat :=
  ((place?.filter (·.segment = segment)).map Location.offset).getD 0

section

variable {place? : Option Location} {goals : List Location} {calls : List Access} {segment : Nat}

/-- Either the decoder stands in the segment, or another one is open, or none. -/
theorem stands_or_not (segment : Nat) (place? : Option Location) :
    (∃ start, place? = some ⟨segment, start⟩) ∨ ∀ place, place? = some place → place.segment ≠ segment := by
  by_cases h : ∃ start, place? = some ⟨segment, start⟩
  · exact .inl h
  · apply Or.inr
    rintro ⟨_, start⟩ rfl rfl
    exact h ⟨start, rfl⟩

theorem filter_segment_of_ne (h : ∀ place, place? = some place → place.segment ≠ segment) :
    place?.filter (·.segment = segment) = none := by
  rw [Option.filter_eq_none_iff]
  exact fun place hplace => by simpa using h place hplace

theorem callsTo_of_eq (segment start offset : Nat) :
    callsTo (some ⟨segment, start⟩) ⟨segment, offset⟩ = approach segment (offset - start) := by
  simp [callsTo, Option.filter]

theorem callsTo_of_ne (h : ∀ place, place? = some place → place.segment ≠ segment) (offset : Nat) :
    callsTo place? ⟨segment, offset⟩ = .enter segment :: approach segment offset := by
  rw [callsTo, filter_segment_of_ne h]

theorem startIn_of_eq (segment start : Nat) : startIn segment (some ⟨segment, start⟩) = start := by
  simp [startIn, Option.filter]

theorem startIn_of_ne (h : ∀ place, place? = some place → place.segment ≠ segment) :
    startIn segment place? = 0 := by
  rw [startIn, filter_segment_of_ne h]
  rfl

/-- The decoder stands at or before a place that is ahead of it. -/
theorem Ahead.start_le {start offset : Nat} (h : Ahead (some ⟨segment, start⟩) (⟨segment, offset⟩ :: goals)) :
    start ≤ offset := by
  by_contra hlt
  exact h.not_before _ rfl _ List.mem_cons_self (.inr ⟨rfl, Nat.lt_of_not_le hlt⟩)

/-- The segment where the decoder stands is not a later one than that of a place ahead. -/
theorem Ahead.segment_le (h : Ahead place? goals) {place goal : Location} (hplace : place? = some place)
    (hgoal : goal ∈ goals) : place.segment ≤ goal.segment := by
  by_contra hlt
  exact h.not_before place hplace goal hgoal (.inl (Nat.lt_of_not_le hlt))

/-! ### What is decoded -/

theorem decodes_approach {offset gap : Nat} (h : Decodes (some ⟨segment, offset + gap + 1⟩) calls goals) :
    Decodes (some ⟨segment, offset⟩) (approach segment gap ++ calls) (⟨segment, offset + gap⟩ :: goals) := by
  unfold approach
  split
  case isTrue hgap =>
    subst hgap
    exact .decode h
  case isFalse hgap => exact .skip (Nat.pos_of_ne_zero hgap) (.decode h)

theorem decodes_route (h : Ahead place? goals) : Decodes place? (route place? goals) goals := by
  induction goals generalizing place? with
  | nil => exact .nil
  | cons goal goals ih =>
    obtain ⟨segment, offset⟩ := goal
    have hrest := ih h.tail
    rw [route]
    rcases stands_or_not segment place? with ⟨start, rfl⟩ | hopen
    · obtain ⟨gap, rfl⟩ := Nat.exists_eq_add_of_le h.start_le
      rw [callsTo_of_eq, Nat.add_sub_cancel_left]
      exact decodes_approach hrest
    · rw [callsTo_of_ne hopen]
      rw [← Nat.zero_add offset] at hrest
      have happroach := decodes_approach hrest
      rw [Nat.zero_add] at happroach
      exact .enter happroach

theorem Decodes.count_eq (h : Decodes place? calls goals) : calls.countP Access.isDecode = goals.length := by
  induction h with
  | nil => rfl
  | measure _ ih | enter _ ih | skip _ _ ih => exact ih
  | decode _ ih => rw [List.countP_cons_of_pos rfl, ih, List.length_cons]

/-! ### What is entered -/

theorem entered_approach (segment gap : Nat) : (approach segment gap).filterMap Access.entered? = [] := by
  unfold approach
  split <;> rfl

/-- The segments of the places are entered, except for the one where the decoder stands. -/
theorem entered_route (h : Ahead place? goals) :
    ((route place? goals).filterMap Access.entered?).Pairwise (· < ·) ∧
      ∀ segment, segment ∈ (route place? goals).filterMap Access.entered? ↔
        (∃ goal ∈ goals, goal.segment = segment) ∧ ∀ place, place? = some place → place.segment ≠ segment := by
  induction goals generalizing place? with
  | nil => exact ⟨.nil, by simp [route]⟩
  | cons goal goals ih =>
    obtain ⟨first, offset⟩ := goal
    obtain ⟨hascend, hmem⟩ := ih h.tail
    simp only [Option.some.injEq, forall_eq'] at hmem
    rw [route, List.filterMap_append]
    rcases stands_or_not first place? with ⟨start, rfl⟩ | hopen
    · rw [callsTo_of_eq, entered_approach, List.nil_append]
      refine ⟨hascend, fun segment => ?_⟩
      simp only [hmem, Option.some.injEq, forall_eq', List.exists_mem_cons_iff]
      exact and_congr_left fun hne => (or_iff_right hne).symm
    · rw [callsTo_of_ne hopen, List.filterMap_cons, entered_approach]
      have hlater : ∀ segment ∈ (route (some ⟨first, offset + 1⟩) goals).filterMap Access.entered?,
          first < segment := by
        intro segment hsegment
        obtain ⟨⟨goal, hgoal, rfl⟩, hne⟩ := (hmem segment).mp hsegment
        exact Nat.lt_of_le_of_ne (h.tail.segment_le rfl hgoal) hne
      refine ⟨List.pairwise_cons.mpr ⟨hlater, hascend⟩, fun segment => ?_⟩
      show segment ∈ first :: _ ↔ _
      rw [List.mem_cons, List.exists_mem_cons_iff]
      constructor
      · rintro (rfl | hsegment)
        · exact ⟨.inl rfl, hopen⟩
        · refine ⟨.inr ((hmem segment).mp hsegment).1, fun place hplace => ?_⟩
          have hle : place.segment ≤ first := h.segment_le hplace List.mem_cons_self
          exact (hle.trans_lt (hlater segment hsegment)).ne
      · rintro ⟨hfirst | hgoal, -⟩
        · exact .inl hfirst.symm
        · by_cases hsame : first = segment
          · exact .inl hsame.symm
          · exact .inr ((hmem segment).mpr ⟨hgoal, hsame⟩)

/-! ### What is passed -/

theorem passedIn_append (segment : Nat) (calls more : List Access) :
    passedIn segment (calls ++ more) = passedIn segment calls + passedIn segment more := by
  simp [passedIn]

theorem passedIn_approach (segment gap : Nat) : passedIn segment (approach segment gap) = gap + 1 := by
  unfold approach
  split <;> simp_all [passedIn, Access.passed]

theorem passedIn_approach_of_ne {other : Nat} (h : other ≠ segment) (gap : Nat) :
    passedIn segment (approach other gap) = 0 := by
  unfold approach
  split <;> simp [passedIn, Access.passed, h]

/-- The segment is passed from where the decoder stands in it up to the place, or not at all. -/
theorem passedIn_callsTo {offset : Nat} (h : Ahead place? (⟨segment, offset⟩ :: goals)) :
    startIn segment place? + passedIn segment (callsTo place? ⟨segment, offset⟩) = offset + 1 := by
  rcases stands_or_not segment place? with ⟨start, rfl⟩ | hopen
  · have hle := h.start_le
    rw [callsTo_of_eq, startIn_of_eq, passedIn_approach]
    omega
  · rw [callsTo_of_ne hopen, startIn_of_ne hopen, Nat.zero_add]
    exact (Nat.zero_add _).trans (passedIn_approach segment offset)

theorem passedIn_callsTo_of_ne {other : Nat} (h : other ≠ segment) (place? : Option Location) (offset : Nat) :
    passedIn segment (callsTo place? ⟨other, offset⟩) = 0 := by
  rcases stands_or_not other place? with ⟨start, rfl⟩ | hopen
  · rw [callsTo_of_eq, passedIn_approach_of_ne h]
  · rw [callsTo_of_ne hopen]
    exact (Nat.zero_add _).trans (passedIn_approach_of_ne h offset)

/-- A segment without a place in it is not passed. -/
theorem passedIn_route_of_ne (h : ∀ goal ∈ goals, goal.segment ≠ segment) :
    passedIn segment (route place? goals) = 0 := by
  induction goals generalizing place? with
  | nil => rfl
  | cons goal goals ih =>
    obtain ⟨hgoal, hgoals⟩ := List.forall_mem_cons.mp h
    rw [route, passedIn_append, passedIn_callsTo_of_ne hgoal, ih hgoals]

/-- A segment is passed up to the last of the places in it. -/
theorem passedIn_route (h : Ahead place? goals) {last : Location} (hlast : last ∈ goals)
    (hmax : ∀ goal ∈ goals, goal.segment = last.segment → goal.offset ≤ last.offset) :
    startIn last.segment place? + passedIn last.segment (route place? goals) = last.offset + 1 := by
  induction goals generalizing place? with
  | nil => cases hlast
  | cons goal goals ih =>
    obtain ⟨hfirst, -⟩ := List.pairwise_cons.mp h.ascend
    obtain ⟨-, hgoals⟩ := List.forall_mem_cons.mp hmax
    rw [route, passedIn_append]
    rcases List.mem_cons.mp hlast with rfl | hlater
    · have hnone : ∀ goal ∈ goals, goal.segment ≠ last.segment := by
        intro goal hmem hsame
        have hle := hgoals goal hmem hsame
        have hbefore := hfirst goal hmem
        simp only [Location.Before] at hbefore
        omega
      rw [passedIn_route_of_ne hnone]
      exact passedIn_callsTo h
    · obtain ⟨first, offset⟩ := goal
      have hrest := ih h.tail hlater hgoals
      dsimp only at hrest ⊢
      by_cases hsame : first = last.segment
      · subst hsame
        rw [startIn_of_eq] at hrest
        have hpassed := passedIn_callsTo h
        omega
      · have hle : first ≤ last.segment := h.tail.segment_le rfl hlater
        have hopen : ∀ place, place? = some place → place.segment ≠ last.segment := by
          intro place hplace hsegment
          have hbehind : place.segment ≤ first := h.segment_le hplace List.mem_cons_self
          omega
        rw [startIn_of_ne (by rintro _ ⟨⟩; exact hsame)] at hrest
        rw [startIn_of_ne hopen, passedIn_callsTo_of_ne hsame, Nat.zero_add]
        exact hrest

end

/-! ## Routes among other calls -/

theorem Decodes.of_touches {place? : Option Location} {goals : List Location} {calls : List Access}
    (h : Decodes place? (calls.filter Access.touches) goals) : Decodes place? calls goals := by
  induction calls generalizing place? goals with
  | nil => exact h
  | cons call calls ih =>
    cases call with
    | measure => exact .measure (ih h)
    | enter =>
      cases h with
      | enter h => exact .enter (ih h)
    | skip =>
      cases h with
      | skip hn h => exact .skip hn (ih h)
    | decode =>
      cases h with
      | decode h => exact .decode (ih h)

theorem entered_touches (calls : List Access) :
    (calls.filter Access.touches).filterMap Access.entered? = calls.filterMap Access.entered? := by
  rw [List.filterMap_filter]
  congr 1
  funext call
  cases call <;> rfl

theorem passedIn_touches (segment : Nat) (calls : List Access) :
    passedIn segment (calls.filter Access.touches) = passedIn segment calls := by
  induction calls with
  | nil => rfl
  | cons call calls ih =>
    cases call with
    | measure => exact ih.trans (Nat.zero_add _).symm
    | enter | skip | decode => exact congrArg (_ + ·) ih

/-- Calls that take the route to ascending rows traverse the column, whatever sizes they ask for. -/
theorem traverses_of_route {sizes rows : List Nat} {calls : List Access} (hrows : rows.Pairwise (· < ·))
    (hlt : ∀ row ∈ rows, row < sizes.sum)
    (hroute : calls.filter Access.touches = route none (rows.map (placeOf sizes))) :
    Traverses sizes rows calls := by
  have hahead : Ahead none (rows.map (placeOf sizes)) := by
    refine ⟨List.pairwise_map.mpr (hrows.imp_of_mem fun hrow hlater hless => ?_), nofun⟩
    exact (liesAt_placeOf (hlt _ hrow)).before (liesAt_placeOf (hlt _ hlater)) hless
  obtain ⟨hascend, hmem⟩ := entered_route hahead
  rw [← hroute, entered_touches] at hascend hmem
  have hdecodes : Decodes none calls (rows.map (placeOf sizes)) :=
    .of_touches (hroute ▸ decodes_route hahead)
  refine ⟨hascend, fun segment => ?_, hdecodes, ?_, fun row hrow hmax => ?_⟩
  · simp [hmem]
  · rw [hdecodes.count_eq, List.length_map]
  · have hpassed := passedIn_route hahead (List.mem_map_of_mem hrow) ?_
    · rw [← hroute, passedIn_touches] at hpassed
      exact (Nat.zero_add _).symm.trans hpassed
    · intro goal hgoal hsame
      obtain ⟨other, hother, rfl⟩ := List.mem_map.mp hgoal
      have hle := hmax other hother hsame
      have hplace := (liesAt_placeOf (hlt row hrow)).row_eq
      have hplace' := (liesAt_placeOf (hlt other hother)).row_eq
      rw [hsame] at hplace'
      omega

/-! ## Walks take the route -/

variable {δ α : Type} {segments : Segments δ α}

theorem approach_touches (segment gap : Nat) :
    (approach segment gap).filter Access.touches = approach segment gap := by
  unfold approach
  split <;> rfl

theorem Entered.decodeAt_eq_ok {o o' : Entered δ} {offset : Nat} {value : α}
    (h : o.decodeAt segments offset = (.ok value, o')) : o'.segment = o.segment ∧ o'.next = offset + 1 := by
  unfold Entered.decodeAt at h
  split at h
  · cases h
    exact ⟨rfl, rfl⟩
  · cases h

/-- A decoder that read a row has approached it from the offset where it stood. -/
theorem Entered.read_eq_ok {o o' : Entered δ} {offset : Nat} {value : α} {calls : List Access}
    (h : o.read segments offset = (.ok value, o', calls)) :
    o'.segment = o.segment ∧ o'.next = offset + 1 ∧ calls = approach o.segment (offset - o.next) := by
  unfold Entered.read at h
  unfold approach
  dsimp only at h
  by_cases hgap : offset - o.next = 0
  · rw [if_pos hgap] at h ⊢
    obtain ⟨hvalue, hafter, rfl⟩ := by simpa using h
    obtain ⟨hsegment, hnext⟩ := Entered.decodeAt_eq_ok (Prod.ext hvalue hafter)
    exact ⟨hsegment, hnext, rfl⟩
  · rw [if_neg hgap] at h ⊢
    split at h
    · cases h
    · obtain ⟨hvalue, hafter, rfl⟩ := by simpa using h
      obtain ⟨hsegment, hnext⟩ := Entered.decodeAt_eq_ok (Prod.ext hvalue hafter)
      exact ⟨hsegment, hnext, rfl⟩

namespace Cursor

variable {c : Cursor δ} {row : Nat} {place : Location}

/-- Where the decoder of the open segment stands. -/
def place? (c : Cursor δ) : Option Location := c.opened.map fun o => ⟨o.segment, o.next⟩

theorem measured_touches (asked : List Nat) : (measured segments asked).filter Access.touches = [] := by
  simp [measured, List.filter_map, Function.comp_def, Access.touches]

/-- Entering the segment of a place and approaching it is what leads there. -/
theorem enter_eq_ok {o : Entered δ} {calls : List Access}
    (h : enter segments place.segment c.opened = (.ok o, calls)) :
    o.segment = place.segment ∧
      calls.filter Access.touches ++ approach place.segment (place.offset - o.next) = callsTo c.place? place := by
  obtain ⟨segment, offset⟩ := place
  unfold enter at h
  cases hopened : c.opened.filter (·.segment = segment) with
  | some o' =>
    rw [hopened] at h
    cases h
    obtain ⟨hsome, hsegment⟩ := Option.filter_eq_some_iff.mp hopened
    obtain rfl : o.segment = segment := of_decide_eq_true hsegment
    rw [place?, hsome]
    exact ⟨rfl, (callsTo_of_eq o.segment o.next offset).symm⟩
  | none =>
    rw [hopened] at h
    have hopen : ∀ place, c.place? = some place → place.segment ≠ segment := by
      intro place hplace
      obtain ⟨o', hsome, rfl⟩ := Option.map_eq_some_iff.mp hplace
      simpa using Option.filter_eq_none_iff.mp hopened o' hsome
    rw [callsTo_of_ne hopen]
    cases hdecoder : segments.decoder segment with
    | error e =>
      rw [hdecoder] at h
      cases h
    | ok d =>
      rw [hdecoder] at h
      cases h
      exact ⟨rfl, rfl⟩

/-- A search that gives a value has led to the place of its row, and the decoder then stands after it. -/
theorem seek_eq_ok {value : α} (h : (c.seek segments row).result = .ok value)
    (hplace : (c.locator.locate segments.count segments.size row).result = .ok place) :
    (c.seek segments row).calls.filter Access.touches = callsTo c.place? place ∧
      (c.seek segments row).cursor.place? = some ⟨place.segment, place.offset + 1⟩ ∧
      (c.seek segments row).cursor.locator = (c.locator.locate segments.count segments.size row).locator := by
  revert h
  simp only [seek, seekFrom, hplace]
  rcases henter : enter segments place.segment c.opened with ⟨e | o, entered⟩
  · rintro ⟨⟩
  · obtain ⟨hsegment, hcalls⟩ := enter_eq_ok henter
    rcases hread : o.read segments place.offset with ⟨e | value, o', decoded⟩
    · simp only [hread]
      rintro ⟨⟩
    · simp only [hread]
      obtain ⟨hsame, hnext, rfl⟩ := Entered.read_eq_ok hread
      refine fun _ => ⟨?_, ?_, trivial⟩
      · rw [List.filter_append, List.filter_append, measured_touches, List.nil_append, hsegment,
          approach_touches, hcalls]
      · simp only [place?, Option.map_some, hsame, hsegment, hnext]

end Cursor

/-- A walk over listed rows that comes to its end has taken the route to their places. -/
theorem Segments.walkRows_route {sizes rows : List Nat} {c : Cursor δ} (h : segments.Sized sizes)
    (hlocator : c.locator.AtFront sizes) (hfrom : ∀ row ∈ rows, c.locator.base ≤ row)
    (hlt : ∀ row ∈ rows, row < sizes.sum) (hending : (segments.walkRows c rows).ending = .ok ()) :
    (segments.walkRows c rows).calls.filter Access.touches = route c.place? (rows.map (placeOf sizes)) := by
  induction rows generalizing c with
  | nil => rfl
  | cons row rows ih =>
    obtain ⟨hbase, -⟩ := List.forall_mem_cons.mp hfrom
    obtain ⟨hrow, hlt⟩ := List.forall_mem_cons.mp hlt
    obtain ⟨-, hascend, -⟩ := walkRows_ascend hending
    obtain ⟨value, hresult, hending, -, hcalls⟩ := walkRows_cons_ok hending
    obtain ⟨hearlier, -⟩ := Cursor.read_eq_ok hresult
    have hplace := liesAt_placeOf hrow
    obtain ⟨hlocate, hfront⟩ := Locator.locate_of_liesAt h hlocator hbase hplace
    rw [Cursor.read_eq_seek hearlier] at hresult hending hcalls
    obtain ⟨hroute, hstands, hmoved⟩ := Cursor.seek_eq_ok hresult hlocate
    rw [hfront] at hmoved
    have hlocator' : (c.seek segments row).cursor.locator.AtFront sizes := by
      rw [hmoved]
      exact Locator.atFront_of_liesAt hplace
    have hfrom' : ∀ later ∈ rows, (c.seek segments row).cursor.locator.base ≤ later := by
      rw [hmoved]
      exact fun later hlater => hplace.bounds.1.trans ((List.pairwise_cons.mp hascend).1 later hlater).le
    have hrest := ih hlocator' hfrom' hlt hending
    rw [hcalls, List.filter_append, hroute, hrest, hstands, List.map_cons, route]

/-- A walk over ascending rows of the column that comes to its end traverses the column. -/
theorem Segments.walk_traverses {sizes rows : List Nat} (h : segments.Sized sizes)
    (hrows : rows.Pairwise (· < ·)) (hlt : ∀ row ∈ rows, row < sizes.sum)
    (hending : (segments.walk (.bounded rows)).ending = .ok ()) :
    Traverses sizes rows (segments.walk (.bounded rows)).calls :=
  traverses_of_route hrows hlt
    (walkRows_route h (Locator.atFront_new sizes) (fun _ _ => Nat.zero_le _) hlt hending)

end Pushdown
