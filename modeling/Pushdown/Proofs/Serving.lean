-- SUMMARY: What a scan gives where the store may fail, and where texts may be repeated in a dictionary.
import Pushdown.Proofs.Scan

/-!
# Scans that may fail

A store need not hold what a sheet says in order to answer from it: its decoders may fail where they like,
as long as they fail with what is permitted, and give the cells of the sheet where they do not. Nor need
a dictionary be free of repeated texts. A filter then keeps the rows whose key is the first one of its
operand, which `Content.selects` says; it is the text that the row stands for only if the dictionary has
it once.

The outcome of a scan of such a table is the answer read off the sheet, or a failure that is permitted.
-/

namespace Pushdown

/-! ## Content as filters see it -/

/-- Whether a filter by the predicate keeps the row. In a dictionary column it is the keys that are
    compared. -/
def Content.selects (content : Content) (predicate : Predicate) (row : Nat) : Bool :=
  match content, predicate.operand with
  | .float64 cells, .float64 operand => cells.passes (predicate.op.holds · operand) row
  | .int32 cells, .int32 operand => cells.passes (predicate.op.holds · operand) row
  | .utf8 cells, .utf8 operand => cells.passes (predicate.op.holds · operand) row
  | .dictionary keys texts, .utf8 operand =>
    (texts.keyOf? operand).any fun key => (Cells.ofValues keys).passes (predicate.op.holds · key) row
  | _, _ => false

/-! ## Walks -/

namespace Walk

variable {α : Type} {w : Walk α} {cells : Cells α} {rows : List Nat} {permitted : Failure → Prop}

/-- The outcome of reading a walk in one way or another, where the cells without a value are permitted. -/
theorem VisitsUnless.ends {β : Type} (h : w.VisitsUnless permitted cells rows)
    (hrows : ∀ e, rows.findSome? cells.fault? = some e → permitted e)
    {read : Walk α → Except Failure β} {value : β}
    (hvisits : w.Visits cells rows → read w = settle (rows.findSome? cells.fault?) value)
    (hfails : ∀ e, w.ending = .error e → read w = .error e) : Ends permitted (· = value) (read w) := by
  rcases h with h | ⟨e, hending, he⟩
  · rw [hvisits h]
    cases hfault : rows.findSome? cells.fault? with
    | none => exact .ok rfl
    | some e => exact .error (hrows e hfault)
  · rw [hfails e hending]
    exact .error he

theorem VisitsUnless.values_ends (h : w.VisitsUnless permitted cells rows)
    (hrows : ∀ e, rows.findSome? cells.fault? = some e → permitted e) :
    Ends permitted (· = cells.select rows) w.values :=
  h.ends hrows Visits.values_eq fun e hending => by rw [values, hending]; rfl

theorem VisitsUnless.keep_ends (h : w.VisitsUnless permitted cells rows)
    (hrows : ∀ e, rows.findSome? cells.fault? = some e → permitted e) (test : α → Bool) :
    Ends permitted (· = .ofAscending (rows.filter (cells.passes test))) (w.keep test) :=
  h.ends hrows (fun hvisits => hvisits.keep_eq test) fun e hending => by rw [keep, hending]; rfl

end Walk

/-! ## Stages over segments -/

namespace Segments

variable {δ α : Type} {segments : Segments δ α} {permitted : Failure → Prop} {cells : Cells α}
  {candidates : Candidates}

/-- The segments serve the cells, cut in some way. A cell without a value is permitted as well. -/
structure ServesCells (segments : Segments δ α) (permitted : Failure → Prop) (cells : Cells α) : Prop where
  serves : ∃ parts ahead, segments.Serves permitted parts ahead ∧ parts.flatten = cells
  permitted_of_mem : ∀ e, .error e ∈ cells → permitted e

theorem ServesCells.permitted_of_fault (h : segments.ServesCells permitted cells) {rows : List Nat}
    (hrows : ∀ row ∈ rows, row < cells.length) (e : Failure)
    (hfault : rows.findSome? cells.fault? = some e) : permitted e := by
  obtain ⟨row, hrow, hcell⟩ := List.exists_of_findSome?_eq_some hfault
  have hlt := hrows row hrow
  rw [Cells.fault?_eq_some, Cells.cell_of_lt hlt] at hcell
  exact h.permitted_of_mem e (hcell ▸ List.getElem_mem hlt)

theorem filter_ends (h : segments.ServesCells permitted cells) (hcandidates : candidates.Within cells.length)
    (test : α → Bool) :
    Ends permitted (· = .ofAscending ((candidates.listed cells.length).filter (cells.passes test)))
      (segments.filter candidates test).result := by
  have hrows := h.permitted_of_fault hcandidates.lt
  obtain ⟨parts, ahead, hserves, rfl⟩ := h.serves
  exact (walk_visitsUnless hserves hcandidates.ascending).keep_ends hrows test

theorem project_ends (h : segments.ServesCells permitted cells)
    (hcandidates : candidates.Within cells.length) :
    Ends permitted (· = cells.select (candidates.listed cells.length)) (segments.project candidates).result := by
  have hrows := h.permitted_of_fault hcandidates.lt
  obtain ⟨parts, ahead, hserves, rfl⟩ := h.serves
  exact (walk_visitsUnless hserves hcandidates.ascending).values_ends hrows

end Segments

/-! ## Stages over a column -/

namespace Column

variable {δ : Type → Type} {column : Column δ} {permitted : Failure → Prop} {content : Content}
  {candidates : Candidates}

/-- The segments of the column serve its content. The keys of a dictionary column are positions of its
    dictionary. -/
inductive Serves (permitted : Failure → Prop) : Column δ → Content → Prop
  | float64 {segments : Segments (δ Binary64) Binary64} {cells : Cells Binary64}
      (h : segments.ServesCells permitted cells) : Serves permitted (.float64 segments) (.float64 cells)
  | int32 {segments : Segments (δ Int32) Int32} {cells : Cells Int32}
      (h : segments.ServesCells permitted cells) : Serves permitted (.int32 segments) (.int32 cells)
  | utf8 {segments : Segments (δ String) String} {cells : Cells String}
      (h : segments.ServesCells permitted cells) : Serves permitted (.utf8 segments) (.utf8 cells)
  | dictionary {segments : Segments (δ UInt32) UInt32} {keys : List UInt32} {texts : Dictionary}
      (h : segments.ServesCells permitted (.ofValues keys)) (hkeys : ∀ key ∈ keys, key.toNat < texts.size) :
      Serves permitted (.dictionary segments texts) (.dictionary keys texts)

theorem Serves.columnType_eq (h : column.Serves permitted content) :
    column.columnType = content.columnType := by
  cases h <;> rfl

/-- Comparing keys with the key of the operand. Without such a key no row is kept. -/
theorem filter_keys_ends {segments : Segments (δ UInt32) UInt32} {keys : List UInt32} {texts : Dictionary}
    (h : segments.ServesCells permitted (.ofValues keys)) (hcandidates : candidates.Within keys.length)
    (position : Nat) (op : Comparison) (operand : String) :
    Ends permitted (· = .ofAscending ((candidates.listed keys.length).filter
        ((Content.dictionary keys texts).selects ⟨position, op, .utf8 operand⟩)))
      (match texts.keyOf? operand with
        | none => Stage.settled (.ok Candidates.empty)
        | some key => segments.filter candidates (op.holds · key)).result := by
  have hselects : (Content.dictionary keys texts).selects ⟨position, op, .utf8 operand⟩ = fun row =>
      (texts.keyOf? operand).any fun key => (Cells.ofValues keys).passes (op.holds · key) row := rfl
  rw [hselects]
  cases texts.keyOf? operand with
  | none =>
    simp only [Option.any_none, List.filter_false]
    exact .ok rfl
  | some key =>
    rw [← Cells.length_ofValues keys] at hcandidates ⊢
    exact Segments.filter_ends h hcandidates (op.holds · key)

/-- A predicate that suits the column keeps the candidates that it selects. -/
theorem filter_ends (h : column.Serves permitted content) {predicate : Predicate}
    (hsuits : Predicate.suits predicate.op content.columnType = true)
    (hfits : predicate.operand.fits content.columnType = true)
    (hcandidates : candidates.Within content.size) :
    Ends permitted (· = .ofAscending ((candidates.listed content.size).filter (content.selects predicate)))
      (column.filter predicate candidates).result := by
  obtain ⟨position, op, operand⟩ := predicate
  unfold filter
  rw [h.columnType_eq, hsuits]
  by_cases hempty : candidates.isEmpty = true
  · rw [Candidates.eq_empty_of_isEmpty hempty]
    exact .ok rfl
  · rw [if_neg hempty]
    cases h with
    | float64 h =>
      cases operand with
      | float64 operand => exact Segments.filter_ends h hcandidates _
      | int32 | utf8 => cases hfits
    | int32 h =>
      cases operand with
      | int32 operand => exact Segments.filter_ends h hcandidates _
      | float64 | utf8 => cases hfits
    | utf8 h =>
      cases operand with
      | utf8 operand => exact Segments.filter_ends h hcandidates _
      | float64 | int32 => cases hfits
    | dictionary h hkeys =>
      cases operand with
      | utf8 operand => exact filter_keys_ends h hcandidates position op operand
      | float64 | int32 => cases hfits

/-- A projection hands out the values of the candidates. -/
theorem project_ends (h : column.Serves permitted content) (hcandidates : candidates.Within content.size)
    (form : DictionaryForm) :
    Ends permitted (· = content.valuesAt form (candidates.listed content.size))
      (column.project candidates form).result := by
  unfold project
  by_cases hempty : candidates.isEmpty = true
  · rw [if_pos hempty, Candidates.eq_empty_of_isEmpty hempty, h.columnType_eq]
    exact .ok (Content.valuesAt_nil _ _).symm
  · rw [if_neg hempty]
    cases h with
    | float64 h =>
      apply (Segments.project_ends h hcandidates).bind
      rintro _ rfl
      exact .ok rfl
    | int32 h =>
      apply (Segments.project_ends h hcandidates).bind
      rintro _ rfl
      exact .ok rfl
    | utf8 h =>
      apply (Segments.project_ends h hcandidates).bind
      rintro _ rfl
      exact .ok rfl
    | @dictionary segments keys texts h hkeys =>
      have hwithin : candidates.Within (Cells.ofValues keys).length := by
        rw [Cells.length_ofValues]
        exact hcandidates
      have hproject := Segments.project_ends h hwithin
      rw [Cells.length_ofValues] at hproject
      apply hproject.bind
      rintro _ rfl
      cases form with
      | keys =>
        rw [Cells.select_ofValues]
        exact .ok rfl
      | strings =>
        show Ends permitted _ (((Cells.select (.ofValues keys) _).mapM texts.textOf).map Values.utf8)
        rw [Cells.mapM_select_textOf hkeys]
        exact .ok rfl

end Column

/-! ## Answers read off a sheet -/

namespace Sheet

variable {sheet : Sheet} {predicates : List Predicate}

/-- Whether a filter by the predicate keeps the row of the sheet. -/
def selects (sheet : Sheet) (predicate : Predicate) (row : Nat) : Bool :=
  (sheet.content predicate.column).selects predicate row

/-- The rows that are left when all predicates were applied. -/
def selected (sheet : Sheet) (predicates : List Predicate) : List Nat :=
  (List.range sheet.rows).filter fun row => predicates.all (sheet.selects · row)

/-- The rows that are left, as candidates. -/
def selection (sheet : Sheet) (predicates : List Predicate) : Candidates :=
  if predicates.isEmpty then .unbounded else .ofAscending (sheet.selected predicates)

@[simp] theorem selected_nil : sheet.selected [] = List.range sheet.rows := by
  simp [selected]

theorem selected_concat (predicates : List Predicate) (predicate : Predicate) :
    sheet.selected (predicates ++ [predicate]) =
      (sheet.selected predicates).filter (sheet.selects predicate) := by
  rw [selected, selected, List.filter_filter]
  exact List.filter_congr fun row _ => by simp [Bool.and_comm]

@[simp] theorem selection_nil : sheet.selection [] = .unbounded := rfl

@[simp] theorem selection_concat (predicates : List Predicate) (predicate : Predicate) :
    sheet.selection (predicates ++ [predicate]) =
      .ofAscending (sheet.selected (predicates ++ [predicate])) := by
  simp [selection]

@[simp] theorem listed_selection (predicates : List Predicate) :
    (sheet.selection predicates).listed sheet.rows = sheet.selected predicates := by
  cases predicates with
  | nil => exact selected_nil.symm
  | cons predicate predicates => exact Candidates.listed_ofAscending _ _

theorem selection_within (predicates : List Predicate) :
    (sheet.selection predicates).Within sheet.rows := by
  cases predicates with
  | nil => exact Candidates.within_unbounded _
  | cons predicate predicates => exact (Candidates.within_unbounded sheet.rows).filter _

/-- The answer is read off the sheet, whatever it tells of the single conditions. -/
structure Answers (sheet : Sheet) (query : Query) (predicates : List Predicate) (form : DictionaryForm)
    (answer : Answer) : Prop where
  candidates_eq : answer.candidates = sheet.selection predicates
  rows_eq : answer.rows = (sheet.selected predicates).length
  columns_eq : answer.columns = query.projections.map fun column =>
    { column, values := (sheet.content column).valuesAt form (sheet.selected predicates) }

end Sheet

/-! ## What a scan carries along -/

namespace Table

variable {δ : Type → Type} {table : Table δ} {permitted : Failure → Prop} {query : Query}
  {predicates : List Predicate} {invariant : List Predicate → Candidates → Prop}

/-- What holds of the candidates after some predicates holds of them after one more, unless applying it fails
    as permitted. -/
def Carries (table : Table δ) (permitted : Failure → Prop)
    (invariant : List Predicate → Candidates → Prop) : Prop :=
  ∀ applied predicate candidates, table.Accepts predicate → invariant applied candidates →
    Ends permitted (invariant (applied ++ [predicate])) (table.narrow predicate candidates)

theorem Carries.narrowAll (h : table.Carries permitted invariant) {rest : List (Condition × Predicate)}
    (haccepts : ∀ entry ∈ rest, table.Accepts entry.2) {applied : List Predicate} {candidates : Candidates}
    (hcandidates : invariant applied candidates) :
    Ends permitted (fun narrowed => invariant (applied ++ rest.map (·.2)) narrowed.1)
      (table.narrowAll rest candidates) := by
  induction rest generalizing applied candidates with
  | nil =>
    rw [List.map_nil, List.append_nil]
    exact .ok hcandidates
  | cons entry rest ih =>
    obtain ⟨condition, predicate⟩ := entry
    obtain ⟨hpredicate, hrest⟩ := List.forall_mem_cons.mp haccepts
    apply (h _ _ _ hpredicate hcandidates).bind
    intro narrowed hnarrowed
    have hthen := ih hrest hnarrowed
    rw [List.append_assoc] at hthen
    apply hthen.bind
    intro final hfinal
    exact .ok hfinal

/-- In a scan every predicate carries the invariant on, and every projection is made under it. -/
theorem Carries.scan (h : table.Carries permitted invariant) (hstart : invariant [] .unbounded)
    (hcheck : table.check query = .ok predicates) (form : DictionaryForm) {given : Nat → Projection → Prop}
    (hproject : ∀ candidates column columnType, invariant predicates candidates →
      table.namedType column = .ok columnType →
      Ends permitted (given column) (table.projection candidates form column)) :
    Ends permitted (fun answer => invariant predicates answer.candidates ∧
        answer.rows = answer.candidates.count table.rows ∧
        List.Forall₂ given query.projections answer.columns) (table.scan query form) := by
  obtain ⟨hconditions, hprojections⟩ := check_eq_ok.mp hcheck
  have haccepts := accepts_of_conditions hconditions
  have hentries : ∀ entry ∈ query.conditions.zip predicates, table.Accepts entry.2 :=
    fun entry hentry => haccepts _ (List.of_mem_zip hentry).2
  have hnarrow := h.narrowAll hentries hstart
  have hpredicates : (query.conditions.zip predicates).map (·.2) = predicates :=
    List.map_snd_zip hconditions.length_eq.ge
  rw [hpredicates, List.nil_append] at hnarrow
  unfold Table.scan
  rw [hcheck]
  apply hnarrow.bind
  rintro ⟨candidates, narrowings⟩ hcandidates
  have hcolumns : Ends permitted (List.Forall₂ given query.projections)
      (query.projections.mapM (table.projection candidates form)) :=
    .mapM fun column hcolumn => (hprojections column hcolumn).elim fun _ => hproject _ _ _ hcandidates
  apply hcolumns.bind
  intro columns hgiven
  exact .ok ⟨hcandidates, rfl, hgiven⟩

end Table

/-! ## Tables -/

namespace Table

variable {δ : Type → Type} {table : Table δ} {permitted : Failure → Prop} {sheet : Sheet}
  {query : Query} {predicates : List Predicate}

/-- The columns that have a type serve what the sheet says, in as many rows as it has. -/
structure Serves (table : Table δ) (permitted : Failure → Prop) (sheet : Sheet) : Prop where
  rows_eq : table.rows = sheet.rows
  column : ∀ {position columnType}, table.namedType position = .ok columnType →
    ∃ column, table.column position = .ok column ∧ column.Serves permitted (sheet.content position)
  columnType_eq : ∀ {position columnType}, table.namedType position = .ok columnType →
    (sheet.content position).columnType = columnType
  size_eq : ∀ {position columnType}, table.namedType position = .ok columnType →
    (sheet.content position).size = sheet.rows

/-- One predicate keeps those of the candidates that it selects. -/
theorem narrow_ends (h : table.Serves permitted sheet) {predicate : Predicate}
    (hpredicate : table.Accepts predicate) {candidates : Candidates}
    (hcandidates : candidates.Within sheet.rows) :
    Ends permitted (· = .ofAscending ((candidates.listed sheet.rows).filter (sheet.selects predicate)))
      (table.narrow predicate candidates) := by
  unfold narrow
  by_cases hempty : candidates.isEmpty = true
  · rw [if_pos hempty, Candidates.eq_empty_of_isEmpty hempty]
    exact .ok rfl
  · obtain ⟨columnType, htype, happlies⟩ := hpredicate
    obtain ⟨column, hcolumn, hserves⟩ := h.column htype
    have hsize := h.size_eq htype
    rw [← h.columnType_eq htype] at happlies
    rw [← hsize] at hcandidates
    have hresult := Column.filter_ends hserves happlies.suits happlies.fits hcandidates
    rw [hsize] at hresult
    rw [if_neg hempty, hcolumn]
    exact hresult

/-- The candidates stay those that the predicates applied so far have selected. -/
theorem Serves.carries (h : table.Serves permitted sheet) :
    table.Carries permitted fun applied candidates => candidates = sheet.selection applied := by
  rintro applied predicate _ hpredicate rfl
  have hnarrow := narrow_ends h hpredicate (sheet.selection_within applied)
  rwa [Sheet.listed_selection, ← Sheet.selected_concat, ← Sheet.selection_concat] at hnarrow

theorem projection_ends (h : table.Serves permitted sheet) {column : Nat} {columnType : ColumnType}
    (htype : table.namedType column = .ok columnType) (predicates : List Predicate) (form : DictionaryForm) :
    Ends permitted (· = { column, values := (sheet.content column).valuesAt form (sheet.selected predicates) })
      (table.projection (sheet.selection predicates) form column) := by
  obtain ⟨source, hsource, hserves⟩ := h.column htype
  have hsize := h.size_eq htype
  have hcandidates := sheet.selection_within predicates
  rw [← hsize] at hcandidates
  have hresult := Column.project_ends hserves hcandidates form
  rw [hsize, Sheet.listed_selection] at hresult
  unfold projection
  rw [hsource]
  apply hresult.bind
  rintro _ rfl
  exact .ok rfl

/-- A checked query is answered from the sheet, or fails as permitted. -/
theorem scan_ends (h : table.Serves permitted sheet) (hcheck : table.check query = .ok predicates)
    (form : DictionaryForm) :
    Ends permitted (sheet.Answers query predicates form) (table.scan query form) := by
  have hprojection : ∀ candidates column columnType, candidates = sheet.selection predicates →
      table.namedType column = .ok columnType → Ends permitted
        (· = { column, values := (sheet.content column).valuesAt form (sheet.selected predicates) })
        (table.projection candidates form column) := by
    rintro _ column columnType rfl htype
    exact projection_ends h htype predicates form
  apply (h.carries.scan Sheet.selection_nil.symm hcheck form hprojection).mono
  rintro answer ⟨hcandidates, hrows, hcolumns⟩
  refine ⟨hcandidates, ?_, ?_⟩
  · rw [hrows, hcandidates, h.rows_eq, Candidates.count_eq_length, Sheet.listed_selection]
  · rw [← List.forall₂_eq_eq_eq, List.forall₂_map_right_iff]
    exact hcolumns.flip

end Table

end Pushdown
