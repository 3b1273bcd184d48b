-- SUMMARY: Where the rows of a column lie when its segments have known sizes, and finding them there.
import Mathlib
import Pushdown.Segments
import Pushdown.Segments.Locator

/-!
# Places of rows

The sizes of its segments decide where each row of a column lies: in which segment, and how far from its
front. A row of the column lies in one place only, and rows that ascend lie in places that ascend. A
locator that stands at the front of a segment finds the place of every row that is not before it.

Nothing here is about values: the sizes are what the segments report, whether or not there is as much
behind them.
-/

namespace Pushdown

variable {sizes : List Nat} {row segment n : Nat}

/-! ## Rows before a segment -/

/-- The number of rows before a segment. -/
def rowsBefore (sizes : List Nat) (segment : Nat) : Nat := (sizes.take segment).sum

@[simp] theorem rowsBefore_zero (sizes : List Nat) : rowsBefore sizes 0 = 0 := by simp [rowsBefore]

theorem rowsBefore_mono (sizes : List Nat) : Monotone (rowsBefore sizes) := List.monotone_sum_take _

@[simp] theorem rowsBefore_length (sizes : List Nat) : rowsBefore sizes sizes.length = sizes.sum := by
  simp [rowsBefore]

theorem rowsBefore_succ (h : sizes[segment]? = some n) :
    rowsBefore sizes (segment + 1) = rowsBefore sizes segment + n := by
  simp [rowsBefore, List.take_add_one, h]

theorem rowsBefore_cons (n : Nat) (sizes : List Nat) (segment : Nat) :
    rowsBefore (n :: sizes) (segment + 1) = n + rowsBefore sizes segment := by
  simp [rowsBefore]

/-- A segment ends where the column ends, or before. -/
theorem rowsBefore_add_le (h : sizes[segment]? = some n) : rowsBefore sizes segment + n ≤ sizes.sum := by
  obtain ⟨hlt, -⟩ := List.getElem?_eq_some_iff.mp h
  rw [← rowsBefore_succ h, ← rowsBefore_length]
  exact rowsBefore_mono sizes hlt

/-! ## Places -/

/-- The row lies at the place. -/
structure LiesAt (sizes : List Nat) (row : Nat) (place : Location) : Prop where
  offset_lt : ∃ n, sizes[place.segment]? = some n ∧ place.offset < n
  row_eq : rowsBefore sizes place.segment + place.offset = row

namespace LiesAt

variable {place place' : Location} {row' : Nat}

/-- The row is one of those between the fronts of its segment and of the next. -/
theorem bounds (h : LiesAt sizes row place) :
    rowsBefore sizes place.segment ≤ row ∧ row < rowsBefore sizes (place.segment + 1) := by
  obtain ⟨n, hn, hlt⟩ := h.offset_lt
  have hrow := h.row_eq
  rw [rowsBefore_succ hn]
  omega

theorem lt_sum (h : LiesAt sizes row place) : row < sizes.sum := by
  obtain ⟨n, hn, hlt⟩ := h.offset_lt
  have hend := rowsBefore_add_le hn
  have hrow := h.row_eq
  omega

/-- A later row does not lie in an earlier segment. -/
theorem segment_le (h : LiesAt sizes row place) (h' : LiesAt sizes row' place') (hle : row ≤ row') :
    place.segment ≤ place'.segment := by
  by_contra hlt
  have hfront := rowsBefore_mono sizes (Nat.lt_of_not_le hlt)
  exact absurd (hfront.trans (h.bounds.1.trans hle)) (Nat.not_le.mpr h'.bounds.2)

/-- A row lies in one place only. -/
theorem unique (h : LiesAt sizes row place) (h' : LiesAt sizes row place') : place = place' := by
  have hsegment : place.segment = place'.segment :=
    Nat.le_antisymm (h.segment_le h' (Nat.le_refl _)) (h'.segment_le h (Nat.le_refl _))
  have hrow := h.row_eq
  have hrow' := h'.row_eq
  rw [← hsegment] at hrow'
  have hoffset : place.offset = place'.offset := by omega
  cases place
  cases place'
  simp_all

end LiesAt

/-- The place of a row, found by counting segments off from the first. -/
def placeOf : List Nat → Nat → Location
  | [], row => ⟨0, row⟩
  | n :: sizes, row =>
    if row < n then ⟨0, row⟩
    else ⟨(placeOf sizes (row - n)).segment + 1, (placeOf sizes (row - n)).offset⟩

/-- Every row of the column lies somewhere. -/
theorem liesAt_placeOf (h : row < sizes.sum) : LiesAt sizes row (placeOf sizes row) := by
  induction sizes generalizing row with
  | nil => simp at h
  | cons n sizes ih =>
    rw [List.sum_cons] at h
    rw [placeOf]
    split
    case isTrue hlt => exact ⟨⟨n, rfl, hlt⟩, by simp⟩
    case isFalse hge =>
      have hrest : row - n < sizes.sum := by omega
      obtain ⟨hoffset, hrow⟩ := ih hrest
      refine ⟨hoffset, ?_⟩
      show rowsBefore (n :: sizes) ((placeOf sizes (row - n)).segment + 1) + (placeOf sizes (row - n)).offset = row
      rw [rowsBefore_cons]
      omega

/-! ## Sizes that are told -/

/-- What is told of the size of a segment is right. It may be that nothing is told. -/
def Truthful (sizes : List Nat) (size : Nat → Except Failure Nat) : Prop :=
  ∀ {segment n}, segment < sizes.length → size segment = .ok n → sizes[segment]? = some n

/-- The segments report the sizes, and never fail to. -/
structure Segments.Sized {δ α : Type} (segments : Segments δ α) (sizes : List Nat) : Prop where
  count : segments.count = sizes.length
  size : ∀ {segment n}, sizes[segment]? = some n → segments.size segment = .ok n

namespace Segments.Sized

variable {δ α : Type} {segments : Segments δ α}

theorem size_ne_error (h : segments.Sized sizes) (hlt : segment < segments.count) (e : Failure) :
    segments.size segment ≠ .error e := by
  rw [h.count] at hlt
  rw [h.size (List.getElem?_eq_getElem hlt)]
  exact nofun

theorem getElem?_of_size (h : segments.Sized sizes) (hlt : segment < segments.count)
    (hsize : segments.size segment = .ok n) : sizes[segment]? = some n := by
  rw [h.count] at hlt
  have hget := List.getElem?_eq_getElem hlt
  rw [h.size hget] at hsize
  cases hsize
  exact hget

theorem truthful (h : segments.Sized sizes) : Truthful sizes segments.size :=
  fun hlt hsize => h.getElem?_of_size (h.count ▸ hlt) hsize

end Segments.Sized

/-! ## Locating rows -/

namespace Locator

variable {δ α : Type} {segments : Segments δ α} {l : Locator} {place : Location}

/-- The locator is at the front of a segment, or after the last one. -/
structure AtFront (sizes : List Nat) (l : Locator) : Prop where
  segment_le : l.segment ≤ sizes.length
  base_eq : l.base = rowsBefore sizes l.segment

theorem atFront_new (sizes : List Nat) : ({} : Locator).AtFront sizes :=
  ⟨Nat.zero_le _, (rowsBefore_zero sizes).symm⟩

theorem atFront_of_liesAt (h : LiesAt sizes row place) :
    AtFront sizes ⟨place.segment, rowsBefore sizes place.segment⟩ := by
  obtain ⟨n, hn, -⟩ := h.offset_lt
  exact ⟨(List.getElem?_eq_some_iff.mp hn).1.le, rfl⟩

theorem AtFront.step (hl : l.AtFront sizes) (hn : sizes[l.segment]? = some n) :
    AtFront sizes ⟨l.segment + 1, l.base + n⟩ := by
  obtain ⟨hlt, -⟩ := List.getElem?_eq_some_iff.mp hn
  exact ⟨hlt, by rw [hl.base_eq, rowsBefore_succ hn]⟩

/-- Past the last segment the locator has counted every row. -/
theorem AtFront.base_of_le (hl : l.AtFront sizes) (hsegment : sizes.length ≤ l.segment) :
    l.base = sizes.sum := by
  rw [hl.base_eq, Nat.le_antisymm hl.segment_le hsegment, rowsBefore_length]

/-- It has never counted more rows than there are. -/
theorem AtFront.base_le_sum (hl : l.AtFront sizes) : l.base ≤ sizes.sum := by
  rw [hl.base_eq, ← rowsBefore_length]
  exact rowsBefore_mono sizes hl.segment_le

/-- A search leaves the locator at the front of a segment, and not before the one it was at. -/
theorem AtFront.advance (h : segments.Sized sizes) (hl : l.AtFront sizes) (row : Nat) :
    (advance segments.count segments.size row l).locator.AtFront sizes ∧
      l.segment ≤ (Locator.advance segments.count segments.size row l).locator.segment := by
  fun_induction Locator.advance segments.count segments.size row l with
  | case1 l | case2 l | case4 l => exact ⟨hl, Nat.le_refl _⟩
  | case3 l hlt n hsize hn rest ih =>
    have hget := h.getElem?_of_size hlt hsize
    obtain ⟨hfront, hle⟩ := ih (hl.step hget)
    exact ⟨hfront, Nat.le_of_succ_le hle⟩

/-! ### How a search ends -/

/-- The row cannot be found without the size of the segment, which is not behind the locator and begins at the
    row or before it. -/
structure Needs (sizes : List Nat) (row : Nat) (l : Locator) (segment : Nat) : Prop where
  segment_le : l.segment ≤ segment
  lt_length : segment < sizes.length
  front_le : rowsBefore sizes segment ≤ row

/-- Past the segment that holds the row there is nothing to ask about. -/
theorem Needs.eq_of_lt (h : Needs sizes row l segment) (hrow : row < rowsBefore sizes (l.segment + 1)) :
    segment = l.segment := by
  refine Nat.le_antisymm (Nat.le_of_not_lt fun hlt => ?_) h.segment_le
  exact absurd ((rowsBefore_mono sizes hlt).trans h.front_le) (Nat.not_le.mpr hrow)

/-- A step over a segment leaves the others to be asked about. -/
theorem needs_step {base : Nat} :
    Needs sizes row ⟨l.segment + 1, base⟩ segment ↔ Needs sizes row l segment ∧ segment ≠ l.segment := by
  constructor
  · intro h
    exact ⟨⟨Nat.le_of_succ_le h.segment_le, h.lt_length, h.front_le⟩, Nat.ne_of_gt h.segment_le⟩
  · rintro ⟨h, hne⟩
    exact ⟨Nat.lt_of_le_of_ne h.segment_le hne.symm, h.lt_length, h.front_le⟩

/-- How a search from a locator ends, and where it leaves it. The first size that is needed and not told stops
    it there. -/
inductive Arrives (sizes : List Nat) (size : Nat → Except Failure Nat) (row : Nat) (l : Locator) :
    Except Failure Location → Locator → Prop
  | found {place : Location} (hplace : LiesAt sizes row place)
      (htold : ∀ segment, Needs sizes row l segment → ∃ n, size segment = .ok n) :
      Arrives sizes size row l (.ok place) ⟨place.segment, rowsBefore sizes place.segment⟩
  | past (hrow : sizes.sum ≤ row)
      (htold : ∀ segment, Needs sizes row l segment → ∃ n, size segment = .ok n) :
      Arrives sizes size row l (.error (.rowOutOfRange row sizes.sum)) ⟨sizes.length, sizes.sum⟩
  | stopped {segment : Nat} {e : Failure} (hneeded : Needs sizes row l segment) (hfails : size segment = .error e)
      (htold : ∀ earlier, Needs sizes row l earlier → earlier < segment → ∃ n, size earlier = .ok n) :
      Arrives sizes size row l (.error e) ⟨segment, rowsBefore sizes segment⟩

variable {size : Nat → Except Failure Nat} {result : Except Failure Location} {l' : Locator}

/-- A step over a segment whose size is told makes no difference to how the search ends. -/
theorem Arrives.step {base : Nat} (hsize : size l.segment = .ok n)
    (h : Arrives sizes size row ⟨l.segment + 1, base⟩ result l') : Arrives sizes size row l result l' := by
  have htold : ∀ {segment}, Needs sizes row l segment →
      (Needs sizes row ⟨l.segment + 1, base⟩ segment → ∃ n, size segment = .ok n) →
        ∃ n, size segment = .ok n := by
    intro segment hneeded hlater
    by_cases hsegment : segment = l.segment
    · exact ⟨n, hsegment ▸ hsize⟩
    · exact hlater (needs_step.mpr ⟨hneeded, hsegment⟩)
  cases h with
  | found hplace hlater => exact .found hplace fun segment hneeded => htold hneeded (hlater segment)
  | past hrow hlater => exact .past hrow fun segment hneeded => htold hneeded (hlater segment)
  | stopped hneeded hfails hlater =>
    exact .stopped (needs_step.mp hneeded).1 hfails fun earlier hearlier hlt =>
      htold hearlier fun hneeded => hlater earlier hneeded hlt

/-- A search comes to the place of its row, to the end of the column, or to a size that it needs and is not
    told. -/
theorem AtFront.arrives (h : Truthful sizes size) (hl : l.AtFront sizes) (hbase : l.base ≤ row) :
    Arrives sizes size row l (Locator.advance sizes.length size row l).result
      (Locator.advance sizes.length size row l).locator := by
  fun_induction Locator.advance sizes.length size row l with
  | case1 l hlt e hsize =>
    have hneeded : Needs sizes row l l.segment := ⟨Nat.le_refl _, hlt, hl.base_eq ▸ hbase⟩
    have hstopped := Arrives.stopped hneeded hsize fun _ hearlier hlt =>
      absurd hearlier.segment_le (Nat.not_le.mpr hlt)
    rwa [← hl.base_eq] at hstopped
  | case2 l hlt n hsize hn =>
    have hplace : LiesAt sizes row ⟨l.segment, row - l.base⟩ :=
      ⟨⟨n, h hlt hsize, Nat.sub_lt_left_of_lt_add hbase hn⟩, by rw [← hl.base_eq, Nat.add_sub_cancel' hbase]⟩
    have hfound : Arrives sizes size row l _ _ := .found hplace fun _ hneeded =>
      ⟨n, hneeded.eq_of_lt hplace.bounds.2 ▸ hsize⟩
    rwa [← hl.base_eq] at hfound
  | case3 l hlt n hsize hn rest ih =>
    exact (ih (hl.step (h hlt hsize)) (Nat.le_of_not_lt hn)).step hsize
  | case4 l hge =>
    have hend := hl.base_of_le (Nat.le_of_not_lt hge)
    have hlast : l = ⟨sizes.length, sizes.sum⟩ := by
      rw [← hend, ← Nat.le_antisymm hl.segment_le (Nat.le_of_not_lt hge)]
    have hpast : Arrives sizes size row l _ _ := .past (hend ▸ hbase) fun _ hneeded =>
      absurd (hneeded.segment_le.trans_lt hneeded.lt_length) hge
    rwa [← hlast, ← hend] at hpast

/-! ### Searches that are told every size -/

/-- A row is found at its place, and the locator is then at the front of its segment. -/
theorem advance_of_liesAt (h : segments.Sized sizes) (hl : l.AtFront sizes) (hbase : l.base ≤ row)
    (hrow : LiesAt sizes row place) :
    (advance segments.count segments.size row l).result = .ok place ∧
      (advance segments.count segments.size row l).locator =
        ⟨place.segment, rowsBefore sizes place.segment⟩ := by
  have harrives := hl.arrives h.truthful hbase
  rw [← h.count] at harrives
  generalize (advance segments.count segments.size row l).result = result at harrives ⊢
  generalize (advance segments.count segments.size row l).locator = l' at harrives ⊢
  cases harrives with
  | found hplace => exact ⟨congrArg _ (hplace.unique hrow), by rw [hplace.unique hrow]⟩
  | past hpast => exact absurd hrow.lt_sum (Nat.not_lt.mpr hpast)
  | stopped hneeded hfails => exact absurd hfails (h.size_ne_error (h.count ▸ hneeded.lt_length) _)

/-- A row that is not before the locator is found. -/
theorem locate_of_liesAt (h : segments.Sized sizes) (hl : l.AtFront sizes) (hbase : l.base ≤ row)
    (hrow : LiesAt sizes row place) :
    (locate segments.count segments.size row l).result = .ok place ∧
      (locate segments.count segments.size row l).locator =
        ⟨place.segment, rowsBefore sizes place.segment⟩ := by
  rw [locate, if_neg (Nat.not_lt.mpr hbase)]
  exact advance_of_liesAt h hl hbase hrow

/-- A row past the last one is refused with the number of rows there are. -/
theorem advance_of_sum_le (h : segments.Sized sizes) (hl : l.AtFront sizes) (hrow : sizes.sum ≤ row) :
    (advance segments.count segments.size row l).result = .error (.rowOutOfRange row sizes.sum) := by
  have harrives := hl.arrives h.truthful (hl.base_le_sum.trans hrow)
  rw [← h.count] at harrives
  generalize (advance segments.count segments.size row l).result = result at harrives ⊢
  generalize (advance segments.count segments.size row l).locator = l' at harrives
  cases harrives with
  | found hplace => exact absurd hplace.lt_sum (Nat.not_lt.mpr hrow)
  | past => rfl
  | stopped hneeded hfails => exact absurd hfails (h.size_ne_error (h.count ▸ hneeded.lt_length) _)

end Locator

end Pushdown
