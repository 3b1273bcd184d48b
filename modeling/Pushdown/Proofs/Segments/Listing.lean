-- SUMMARY: What becomes of a list of rows that may be out of order or out of range.
import Pushdown.Proofs.Content
import Pushdown.Proofs.Segments.Order

/-!
# Rows in any order

A stage takes any list of rows. A row is misplaced in the list when it does not come after the row before
it, or when the column has no such row. The rows up to the first misplaced one ascend and are read; that
one is then refused, by the last row read or by the number of rows.
-/

namespace Pushdown

/-! ## Misplaced rows -/

/-- The row at a position of the list is one that a column of `n` rows refuses there. -/
inductive Misplaced (n : Nat) (rows : List Nat) : Nat → Failure → Prop
  | order {i previous row : Nat} (hprevious : rows[i]? = some previous) (hrow : rows[i + 1]? = some row)
      (hle : row ≤ previous) : Misplaced n rows (i + 1) (.rowOrder row previous)
  | range {i row : Nat} (hrow : rows[i]? = some row) (hle : n ≤ row) :
      Misplaced n rows i (.rowOutOfRange row n)

namespace Misplaced

variable {n i j : Nat} {rows : List Nat} {e : Failure}

/-- Whether a row is misplaced depends on it and on the rows before it alone. -/
theorem take_iff : Misplaced n (rows.take i) j e ↔ j < i ∧ Misplaced n rows j e := by
  have hget : ∀ {position row : Nat}, (rows.take i)[position]? = some row ↔
      position < i ∧ rows[position]? = some row := by
    intro position row
    rw [List.getElem?_take]
    split
    case isTrue hlt => exact (and_iff_right hlt).symm
    case isFalse hge => simp [hge]
  constructor
  · rintro (⟨hprevious, hrow, hle⟩ | ⟨hrow, hle⟩)
    · exact ⟨(hget.mp hrow).1, .order (hget.mp hprevious).2 (hget.mp hrow).2 hle⟩
    · exact ⟨(hget.mp hrow).1, .range (hget.mp hrow).2 hle⟩
  · rintro ⟨hlt, ⟨hprevious, hrow, hle⟩ | ⟨hrow, hle⟩⟩
    · exact .order (hget.mpr ⟨Nat.lt_of_succ_lt hlt, hprevious⟩) (hget.mpr ⟨hlt, hrow⟩) hle
    · exact .range (hget.mpr ⟨hlt, hrow⟩) hle

/-- There is no misplaced row exactly if the rows ascend and are rows of the column. -/
theorem none_iff : (∀ i e, ¬ Misplaced n rows i e) ↔ rows.Pairwise (· < ·) ∧ ∀ row ∈ rows, row < n := by
  rw [← List.isChain_iff_pairwise, List.isChain_iff_getElem]
  constructor
  · intro h
    constructor
    · intro i hi
      by_contra hle
      exact h _ _ (.order (List.getElem?_eq_getElem (Nat.lt_of_succ_lt hi)) (List.getElem?_eq_getElem hi)
        (Nat.le_of_not_lt hle))
    · intro row hrow
      obtain ⟨i, hi⟩ := List.mem_iff_getElem?.mp hrow
      by_contra hle
      exact h _ _ (.range hi (Nat.le_of_not_lt hle))
  · rintro ⟨hascend, hlt⟩ i e (⟨hprevious, hrow, hle⟩ | ⟨hrow, hle⟩)
    · obtain ⟨hi, rfl⟩ := List.getElem?_eq_some_iff.mp hrow
      obtain ⟨_, rfl⟩ := List.getElem?_eq_some_iff.mp hprevious
      exact Nat.not_lt.mpr hle (hascend _ hi)
    · exact Nat.not_lt.mpr hle (hlt _ (List.mem_of_getElem? hrow))

/-- A misplaced row is the first one exactly if the rows before it ascend and are rows of the column. -/
theorem first_iff : (∀ j < i, ∀ e, ¬ Misplaced n rows j e) ↔
    (rows.take i).Pairwise (· < ·) ∧ ∀ row ∈ rows.take i, row < n := by
  rw [← none_iff]
  simp only [take_iff, not_and]
  exact ⟨fun h j e hlt => h j hlt e, fun h j hlt e => h j e hlt⟩

end Misplaced

/-! ## Walks up to a misplaced row -/

/-- The list is made of the rows before a position, of the row there, and of those after it. -/
theorem split_of_getElem? {rows : List Nat} {i row : Nat} (hrow : rows[i]? = some row) :
    rows = rows.take i ++ row :: rows.drop (i + 1) := by
  obtain ⟨hlt, rfl⟩ := List.getElem?_eq_some_iff.mp hrow
  rw [List.getElem_cons_drop, List.take_append_drop]

namespace Segments

variable {δ α : Type} {segments : Segments δ α} {c : Cursor δ} {rows : List Nat}

section

variable {parts : List (Cells α)} {ahead : δ → Cells α → Prop} {permitted : Failure → Prop}

/-- A walk that came to its end leaves a cursor that is ready for the rows after it. -/
theorem ready_after (h : segments.Serves permitted parts ahead) {row : Nat} (hc : c.Ready parts ahead row)
    (hfrom : ∀ r ∈ rows, row ≤ r) (hending : (segments.walkRows c rows).ending = .ok ()) {later : Nat}
    (hrow : row ≤ later) (hlater : ∀ r ∈ rows, r < later) :
    (c.after segments rows).Ready parts ahead later := by
  induction rows generalizing c row with
  | nil => exact hc.mono hrow
  | cons r rows ih =>
    obtain ⟨hle, -⟩ := List.forall_mem_cons.mp hfrom
    obtain ⟨hlt, hlater⟩ := List.forall_mem_cons.mp hlater
    obtain ⟨-, hascend, -⟩ := walkRows_ascend hending
    obtain ⟨value, hresult, hending, -⟩ := walkRows_cons_ok hending
    rcases Cursor.read_eq h (hc.mono hle) with ⟨hcell, hready⟩ | ⟨e, herror, -⟩
    · exact ih (hready (hcell.symm.trans hresult)) (List.pairwise_cons.mp hascend).1 hending hlt hlater
    · rw [hresult] at herror
      cases herror

end

/-- After a walk that came to its end, a read that fails ends the walk. -/
theorem walkRows_ending_of_error {row : Nat} {rest : List Nat} {e : Failure}
    (hending : (segments.walkRows c rows).ending = .ok ())
    (herror : ((c.after segments rows).read segments row).result = .error e) :
    (segments.walkRows c (rows ++ row :: rest)).ending = .error e := by
  rw [walkRows_append, Walk.andThen_of_ok hending, walkRows_cons]
  have hreading : (Walk.ofReading row ((c.after segments rows).read segments row)).ending = .error e := by
    rw [Walk.ofReading, herror]
    rfl
  rw [Walk.andThen_of_error hreading]
  exact hreading

variable {values : List α} {i : Nat} {e : Failure}

/-- A walk over ascending rows of the column comes to its end. -/
theorem walk_ending_of_ascending (h : segments.HoldsCells (.ofValues values)) (hrows : rows.Pairwise (· < ·))
    (hlt : ∀ row ∈ rows, row < values.length) : (segments.walk (.bounded rows)).ending = .ok () := by
  obtain ⟨parts, ahead, hholds, hcells⟩ := h
  have hvisits : (segments.walk (.bounded rows)).Visits parts.flatten rows := walk_visits hholds hrows
  rw [hvisits.ending_eq, hcells, Column.findSome?_ofValues hlt, settle_none]

/-- A walk over listed rows fails at the first one that is misplaced, for what is wrong with it. -/
theorem walkRows_ending_of_first (h : segments.HoldsCells (.ofValues values))
    (hmisplaced : Misplaced values.length rows i e)
    (hfirst : ∀ j < i, ∀ e', ¬ Misplaced values.length rows j e') :
    (segments.walkRows {} rows).ending = .error e := by
  obtain ⟨hascend, hlt⟩ := Misplaced.first_iff.mp hfirst
  have hending : (segments.walkRows {} (rows.take i)).ending = .ok () := walk_ending_of_ascending h hascend hlt
  obtain ⟨parts, ahead, hholds, hcells⟩ := h
  have hserves : segments.Serves (fun _ => False) parts ahead := hholds.serves
  cases hmisplaced with
  | @order position previous row hprevious hrow hle =>
    have hlast : (rows.take (position + 1)).getLast? = some previous := by
      rw [List.getLast?_take, if_neg (Nat.succ_ne_zero position), Nat.add_sub_cancel, hprevious]
      rfl
    rw [split_of_getElem? hrow]
    apply walkRows_ending_of_error hending
    rw [Cursor.read_of_le (lastRow_after hending hlast) hle]
  | @range _ row hrow hle =>
    have hready : (Cursor.after segments (rows.take i) {}).Ready parts ahead row :=
      ready_after hserves (Cursor.ready_new parts ahead) (fun _ _ => Nat.zero_le _) hending
        (Nat.zero_le _) fun r hr => (hlt r hr).trans_le hle
    have hcell : Cells.cell parts.flatten row = .error (.rowOutOfRange row values.length) := by
      rw [hcells, Cells.cell_of_le (by simpa using hle), Cells.length_ofValues]
    rw [split_of_getElem? hrow]
    apply walkRows_ending_of_error hending
    rcases Cursor.read_eq hserves hready with ⟨hresult, -⟩ | ⟨_, -, hfalse⟩
    · rw [hresult, hcell]
    · exact hfalse.elim

end Segments

end Pushdown
