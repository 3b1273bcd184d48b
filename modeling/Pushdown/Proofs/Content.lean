-- SUMMARY: What a column holds, and filtering and projecting it without segments.
import Pushdown.Column
import Pushdown.Proofs.Dictionary
import Pushdown.Proofs.Segments.Reading

/-!
# The content of a column

A `Content` is a column with its segments joined: the cells of its rows or, in a dictionary column, the
keys of its rows and the dictionary. Whether a row satisfies a predicate, and the values at some rows, are
read off it directly, in a dictionary column from the texts that the keys stand for.

Filtering and projecting a column come to the same as these readings, whichever way the column is cut
into segments. The first candidate row without a value makes either of them fail.
-/

namespace Pushdown

inductive Content
  | float64 (cells : Cells Binary64)
  | int32 (cells : Cells Int32)
  | utf8 (cells : Cells String)
  | dictionary (keys : List UInt32) (texts : Dictionary)

namespace Content

def columnType : Content → ColumnType
  | .float64 _ => .float64
  | .int32 _ => .int32
  | .utf8 _ => .utf8
  | .dictionary .. => .dictionary

/-- The number of rows. -/
def size : Content → Nat
  | .float64 cells => cells.length
  | .int32 cells => cells.length
  | .utf8 cells => cells.length
  | .dictionary keys _ => keys.length

/-- The content with the texts of a dictionary column in place of its keys. -/
def plain : Content → Content
  | .dictionary keys texts => .utf8 (keys.map texts.textOf)
  | content => content

/-- Why the row has no value, if it has none. -/
def fault? (content : Content) (row : Nat) : Option Failure :=
  match content.plain with
  | .float64 cells => cells.fault? row
  | .int32 cells => cells.fault? row
  | .utf8 cells => cells.fault? row
  | .dictionary .. => none

/-- Whether the row has a value that stands to the operand as the predicate says. -/
def satisfies (content : Content) (predicate : Predicate) (row : Nat) : Bool :=
  match content.plain, predicate.operand with
  | .float64 cells, .float64 operand => cells.passes (predicate.op.holds · operand) row
  | .int32 cells, .int32 operand => cells.passes (predicate.op.holds · operand) row
  | .utf8 cells, .utf8 operand => cells.passes (predicate.op.holds · operand) row
  | _, _ => false

/-- The values of the rows, in their order. -/
def valuesAt (content : Content) (form : DictionaryForm) (rows : List Nat) : Values :=
  match content, form with
  | .float64 cells, _ => .float64 (cells.select rows)
  | .int32 cells, _ => .int32 (cells.select rows)
  | .utf8 cells, _ => .utf8 (cells.select rows)
  | .dictionary keys _, .keys => .dictionaryKeys (rows.filterMap (keys[·]?))
  | .dictionary keys texts, .strings => .utf8 (Cells.select (keys.map texts.textOf) rows)

/-- A dictionary column has a sound dictionary that holds all of its keys. -/
def Sound : Content → Prop
  | .dictionary keys texts => texts.Sound ∧ ∀ key ∈ keys, key.toNat < texts.size
  | _ => True

@[simp] theorem plain_plain (content : Content) : content.plain.plain = content.plain := by
  cases content <;> rfl

@[simp] theorem fault?_plain (content : Content) : content.plain.fault? = content.fault? := by
  funext row
  simp [fault?]

@[simp] theorem satisfies_plain (content : Content) : content.plain.satisfies = content.satisfies := by
  funext predicate row
  simp [satisfies]

/-- Handed out as texts, a dictionary column has the values of the plain column. -/
@[simp] theorem valuesAt_plain (content : Content) :
    content.plain.valuesAt .strings = content.valuesAt .strings := by
  funext rows
  cases content <;> rfl

theorem valuesAt_nil (content : Content) (form : DictionaryForm) :
    content.valuesAt form [] = .none content.columnType form := by
  cases content <;> cases form <;> rfl

end Content

/-! ## Keys in place of texts -/

theorem Comparison.holds_equal_text (x y : String) : Comparison.equal.holds x y = decide (x = y) := by
  rw [Bool.eq_iff_iff, decide_eq_true_iff]
  show (compare x y).isEq = true ↔ x = y
  rw [Ordering.isEq_iff_eq_eq, Std.compare_eq_iff_eq]

theorem Comparison.holds_equal_key (x y : UInt32) : Comparison.equal.holds x y = decide (x = y) := by
  rw [Bool.eq_iff_iff, decide_eq_true_iff]
  show (compare x y).isEq = true ↔ x = y
  rw [Ordering.isEq_iff_eq_eq, Std.compare_eq_iff_eq]

theorem Predicate.suits_dictionary {op : Comparison} (h : suits op .dictionary = true) : op = .equal := by
  cases op with
  | equal => rfl
  | greater | greaterEqual | less | lessEqual => cases h

namespace Cells

variable {keys : List UInt32} {texts : Dictionary}

/-- The text of a row, through its key. -/
theorem value?_textOf (keys : List UInt32) (texts : Dictionary) (row : Nat) :
    value? (keys.map texts.textOf) row = keys[row]?.bind fun key => texts.values[key.toNat]? := by
  rcases Nat.lt_or_ge row keys.length with h | h
  · have hcell : cell (keys.map texts.textOf) row = texts.textOf keys[row] := by
      rw [cell_of_lt (by simpa using h)]
      simp
    rw [List.getElem?_eq_getElem h, Option.bind_some, value?, hcell, Dictionary.textOf]
    cases texts.values[keys[row].toNat]? <;> rfl
  · rw [List.getElem?_eq_none h, value?_of_error (cell_of_le (by simpa using h))]
    rfl

theorem fault?_textOf (hkeys : ∀ key ∈ keys, key.toNat < texts.size) {row : Nat}
    (h : row < keys.length) : fault? (keys.map texts.textOf) row = none := by
  have hcell : cell (keys.map texts.textOf) row = texts.textOf keys[row] := by
    rw [cell_of_lt (by simpa using h)]
    simp
  rw [Dictionary.textOf_of_lt (hkeys _ (List.getElem_mem h))] at hcell
  exact fault?_of_ok hcell

/-- A text is the operand exactly if its key is the key of the operand. -/
theorem passes_key (hd : texts.Sound) (hkeys : ∀ key ∈ keys, key.toNat < texts.size)
    {operand : String} {target : UInt32} (htarget : texts.keyOf? operand = some target) (row : Nat) :
    passes (keys.map texts.textOf) (Comparison.equal.holds · operand) row =
      passes (ofValues keys) (Comparison.equal.holds · target) row := by
  rw [passes, passes, value?_textOf, value?_ofValues]
  cases hkey : keys[row]? with
  | none => rfl
  | some key =>
    have hlt := hkeys key (List.mem_of_getElem? hkey)
    have htext : texts.values[key.toNat]? = some (texts.values.get ⟨key.toNat, hlt⟩) :=
      List.getElem?_eq_getElem hlt
    have hsame : texts.values.get ⟨key.toNat, hlt⟩ = operand ↔ key = target := by
      have hiff : texts.keyOf? operand = some key ↔ texts.values[key.toNat]? = some operand :=
        Dictionary.keyOf?_eq_some hd hlt
      rw [htarget, htext, Option.some_inj, Option.some_inj] at hiff
      rw [← hiff, eq_comm]
    simpa [htext, Comparison.holds_equal_text, Comparison.holds_equal_key] using hsame

/-- The texts of some rows are those of their keys. -/
theorem mapM_select_textOf (hkeys : ∀ key ∈ keys, key.toNat < texts.size) (rows : List Nat) :
    (select (ofValues keys) rows).mapM texts.textOf = .ok (select (keys.map texts.textOf) rows) := by
  have hrows : ∀ key ∈ select (ofValues keys) rows, key.toNat < texts.size := by
    intro key hkey
    obtain ⟨row, -, hrow⟩ := List.mem_filterMap.mp hkey
    rw [value?_ofValues] at hrow
    exact hkeys key (List.mem_of_getElem? hrow)
  rw [Dictionary.mapM_textOf hrows, select, List.filterMap_filterMap]
  congr 2
  funext row
  rw [value?_ofValues, value?_textOf]

/-- An operand without a key is the text of no row. -/
theorem passes_no_key {operand : String} (htarget : texts.keyOf? operand = none) (row : Nat) :
    passes (keys.map texts.textOf) (Comparison.equal.holds · operand) row = false := by
  rw [passes, value?_textOf]
  cases hkey : keys[row]? with
  | none => rfl
  | some key =>
    cases htext : texts.values[key.toNat]? with
    | none => simp [htext]
    | some text =>
      have hne : text ≠ operand := by
        rintro rfl
        exact Dictionary.keyOf?_eq_none.mp htarget (List.mem_of_getElem? htext)
      simp [htext, Comparison.holds_equal_text, hne]

end Cells

/-! ## Stages over segments -/

namespace Segments

variable {δ α : Type} {segments : Segments δ α} {cells : Cells α} {candidates : Candidates}

/-- The segments hold the cells, cut in some way. -/
def HoldsCells (segments : Segments δ α) (cells : Cells α) : Prop :=
  ∃ parts ahead, segments.Holds parts ahead ∧ parts.flatten = cells

theorem filter_result (h : segments.HoldsCells cells) (hcandidates : candidates.Ascending)
    (test : α → Bool) :
    (segments.filter candidates test).result =
      settle ((candidates.listed cells.length).findSome? cells.fault?)
        (.ofAscending ((candidates.listed cells.length).filter (cells.passes test))) := by
  obtain ⟨parts, ahead, hholds, rfl⟩ := h
  exact (walk_visits hholds hcandidates).keep_eq test

theorem project_result (h : segments.HoldsCells cells) (hcandidates : candidates.Ascending) :
    (segments.project candidates).result =
      settle ((candidates.listed cells.length).findSome? cells.fault?)
        (cells.select (candidates.listed cells.length)) := by
  obtain ⟨parts, ahead, hholds, rfl⟩ := h
  exact (walk_visits hholds hcandidates).values_eq

end Segments

/-! ## Stages over a column -/

/-- An operand is compared with values of its own type, a text also with those behind keys. -/
def Operand.fits : Operand → ColumnType → Bool
  | .float64 _, .float64 => true
  | .int32 _, .int32 => true
  | .utf8 _, .utf8 => true
  | .utf8 _, .dictionary => true
  | _, _ => false

namespace Column

variable {δ : Type → Type} {column : Column δ} {content : Content} {candidates : Candidates}

/-- The segments of the column hold its content. -/
inductive Holds : Column δ → Content → Prop
  | float64 {segments : Segments (δ Binary64) Binary64} {cells : Cells Binary64}
      (h : segments.HoldsCells cells) : Holds (.float64 segments) (.float64 cells)
  | int32 {segments : Segments (δ Int32) Int32} {cells : Cells Int32}
      (h : segments.HoldsCells cells) : Holds (.int32 segments) (.int32 cells)
  | utf8 {segments : Segments (δ String) String} {cells : Cells String}
      (h : segments.HoldsCells cells) : Holds (.utf8 segments) (.utf8 cells)
  | dictionary {segments : Segments (δ UInt32) UInt32} {keys : List UInt32} {texts : Dictionary}
      (h : segments.HoldsCells (.ofValues keys)) :
      Holds (.dictionary segments texts) (.dictionary keys texts)

theorem Holds.columnType_eq (h : column.Holds content) : column.columnType = content.columnType := by
  cases h <;> rfl

/-- Rows of a column of keys all have one. -/
theorem findSome?_ofValues {α : Type} {values : List α} {rows : List Nat}
    (h : ∀ row ∈ rows, row < values.length) : rows.findSome? (Cells.ofValues values).fault? = none :=
  List.findSome?_eq_none_iff.mpr fun row hrow => Cells.fault?_ofValues (h row hrow)

theorem findSome?_textOf {keys : List UInt32} {texts : Dictionary} {rows : List Nat}
    (hkeys : ∀ key ∈ keys, key.toNat < texts.size) (h : ∀ row ∈ rows, row < keys.length) :
    rows.findSome? (Cells.fault? (keys.map texts.textOf)) = none :=
  List.findSome?_eq_none_iff.mpr fun row hrow => Cells.fault?_textOf hkeys (h row hrow)

/-- Comparing keys with the key of the operand keeps the rows whose text is the operand. Without such
    a key there are none. -/
theorem filter_keys {segments : Segments (δ UInt32) UInt32} {keys : List UInt32} {texts : Dictionary}
    (h : segments.HoldsCells (.ofValues keys)) (hd : texts.Sound)
    (hkeys : ∀ key ∈ keys, key.toNat < texts.size) (hcandidates : candidates.Within keys.length)
    (operand : String) :
    (match texts.keyOf? operand with
      | none => Stage.settled (.ok Candidates.empty)
      | some key => segments.filter candidates (Comparison.equal.holds · key)).result =
      .ok (.ofAscending ((candidates.listed keys.length).filter
        (Cells.passes (keys.map texts.textOf) (Comparison.equal.holds · operand)))) := by
  cases htarget : texts.keyOf? operand with
  | none =>
    have hnone : (candidates.listed keys.length).filter
        (Cells.passes (keys.map texts.textOf) (Comparison.equal.holds · operand)) = [] := by
      rw [List.filter_eq_nil_iff]
      intro row _
      simp [Cells.passes_no_key htarget]
    rw [hnone]
    rfl
  | some target =>
    have hfilter := Segments.filter_result h hcandidates.ascending (Comparison.equal.holds · target)
    rw [Cells.length_ofValues, findSome?_ofValues hcandidates.lt] at hfilter
    rw [funext (Cells.passes_key hd hkeys htarget)]
    exact hfilter

/-- A predicate that suits the column keeps the candidates that satisfy it. -/
theorem filter_result (h : column.Holds content) (hsound : content.Sound) {predicate : Predicate}
    (hsuits : Predicate.suits predicate.op content.columnType = true)
    (hfits : predicate.operand.fits content.columnType = true)
    (hcandidates : candidates.Within content.size) :
    (column.filter predicate candidates).result =
      settle ((candidates.listed content.size).findSome? content.fault?)
        (.ofAscending ((candidates.listed content.size).filter (content.satisfies predicate))) := by
  obtain ⟨position, op, operand⟩ := predicate
  unfold filter
  rw [h.columnType_eq, hsuits]
  by_cases hempty : candidates.isEmpty = true
  · rw [Candidates.eq_empty_of_isEmpty hempty]
    rfl
  · rw [if_neg hempty]
    cases h with
    | float64 h =>
      cases operand with
      | float64 operand => exact Segments.filter_result h hcandidates.ascending _
      | int32 | utf8 => cases hfits
    | int32 h =>
      cases operand with
      | int32 operand => exact Segments.filter_result h hcandidates.ascending _
      | float64 | utf8 => cases hfits
    | utf8 h =>
      cases operand with
      | utf8 operand => exact Segments.filter_result h hcandidates.ascending _
      | float64 | int32 => cases hfits
    | @dictionary segments keys texts h =>
      cases operand with
      | float64 | int32 => cases hfits
      | utf8 operand =>
        obtain rfl := Predicate.suits_dictionary hsuits
        have hnone : (candidates.listed keys.length).findSome?
            (Content.dictionary keys texts).fault? = none :=
          findSome?_textOf hsound.2 hcandidates.lt
        show _ = settle ((candidates.listed keys.length).findSome? _) _
        rw [hnone]
        exact filter_keys h hsound.1 hsound.2 hcandidates operand

/-- A projection hands out the values of the candidates. -/
theorem project_result (h : column.Holds content) (hsound : content.Sound)
    (hcandidates : candidates.Within content.size) (form : DictionaryForm) :
    (column.project candidates form).result =
      settle ((candidates.listed content.size).findSome? content.fault?)
        (content.valuesAt form (candidates.listed content.size)) := by
  unfold project
  by_cases hempty : candidates.isEmpty = true
  · rw [if_pos hempty, Candidates.eq_empty_of_isEmpty hempty, h.columnType_eq]
    show _ = settle none (content.valuesAt form [])
    rw [Content.valuesAt_nil]
    rfl
  · rw [if_neg hempty]
    cases h with
    | float64 h =>
      show (Segments.project _ candidates).result.bind _ = _
      rw [Segments.project_result h hcandidates.ascending]
      exact map_settle _ _ _
    | int32 h =>
      show (Segments.project _ candidates).result.bind _ = _
      rw [Segments.project_result h hcandidates.ascending]
      exact map_settle _ _ _
    | utf8 h =>
      show (Segments.project _ candidates).result.bind _ = _
      rw [Segments.project_result h hcandidates.ascending]
      exact map_settle _ _ _
    | @dictionary segments keys texts h =>
      have hrows : ∀ row ∈ candidates.listed keys.length, row < keys.length := hcandidates.lt
      show (Segments.project _ candidates).result.bind _ = settle
        ((candidates.listed keys.length).findSome? (Cells.fault? (keys.map texts.textOf))) _
      rw [Segments.project_result h hcandidates.ascending, Cells.length_ofValues,
        findSome?_ofValues hrows, findSome?_textOf hsound.2 hrows]
      cases form with
      | keys =>
        show Except.ok (Values.dictionaryKeys _) = Except.ok (Values.dictionaryKeys _)
        rw [Cells.select_ofValues]
        rfl
      | strings =>
        show ((Cells.select (.ofValues keys) _).mapM texts.textOf).map Values.utf8 =
          Except.ok (Values.utf8 _)
        rw [Cells.mapM_select_textOf hsound.2]
        rfl

end Column

end Pushdown
