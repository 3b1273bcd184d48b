-- SUMMARY: The order of conditions, and repeating them, makes no difference to the rows of an answer.
import Pushdown.Proofs.Memory.Making
import Pushdown.Proofs.Parquet.Claims

/-!
# Reordered conditions

The rows that are left when all conditions were applied depend on which conditions there are, and neither on
their order nor on how often each of them stands in the list. What the single conditions did depends on the
order, and so does whether a scan comes to a cell without a value: a Parquet table may fail for one order and
not for the other. Where neither fails, the answers have the same rows. In memory none fails that was checked.
-/

namespace Pushdown

/-- The answers tell the same of the rows: which they are, how many, and the values in them. -/
structure Answer.SameRows (first second : Answer) : Prop where
  candidates_eq : first.candidates = second.candidates
  rows_eq : first.rows = second.rows
  columns_eq : first.columns = second.columns

/-- Both scans fail, or both are answered with the same rows. -/
inductive SameOutcome : Except Failure Answer → Except Failure Answer → Prop
  | ok {first second : Answer} (h : first.SameRows second) : SameOutcome (.ok first) (.ok second)
  | error {first second : Failure} : SameOutcome (.error first) (.error second)

namespace Sheet

variable {sheet : Sheet} {predicates others : List Predicate}

theorem selected_congr (h : ∀ predicate, predicate ∈ predicates ↔ predicate ∈ others) :
    sheet.selected predicates = sheet.selected others := by
  apply List.filter_congr
  intro row _
  rw [Bool.eq_iff_iff, List.all_eq_true, List.all_eq_true]
  exact forall_congr' fun predicate => imp_congr_left (h predicate)

theorem selection_congr (h : ∀ predicate, predicate ∈ predicates ↔ predicate ∈ others) :
    sheet.selection predicates = sheet.selection others := by
  have hempty : predicates.isEmpty = others.isEmpty := by
    rw [Bool.eq_iff_iff, List.isEmpty_iff, List.isEmpty_iff, List.eq_nil_iff_forall_not_mem,
      List.eq_nil_iff_forall_not_mem]
    exact forall_congr' fun predicate => not_congr (h predicate)
  rw [selection, selection, hempty, selected_congr h]

variable {projections : List Nat} {conditions others' : List Condition} {form : DictionaryForm}

/-- Answers that are read off one sheet have the same rows if the same predicates were applied. -/
theorem Answers.sameRows {answer other : Answer}
    (h : sheet.Answers ⟨projections, conditions⟩ predicates form answer)
    (hother : sheet.Answers ⟨projections, others'⟩ others form other)
    (hsame : ∀ predicate, predicate ∈ predicates ↔ predicate ∈ others) : answer.SameRows other where
  candidates_eq := by rw [h.candidates_eq, hother.candidates_eq, selection_congr hsame]
  rows_eq := by rw [h.rows_eq, hother.rows_eq, selected_congr hsame]
  columns_eq := by rw [h.columns_eq, hother.columns_eq, selected_congr hsame]

end Sheet

namespace Table

variable {δ : Type → Type} {table : Table δ} {permitted : Failure → Prop} {sheet : Sheet}
  {projections : List Nat} {conditions others : List Condition}

/-- A list with the same conditions is checked as well, and stands for the same predicates. -/
theorem exists_check_of_same (h : ∀ condition, condition ∈ conditions ↔ condition ∈ others)
    {predicates : List Predicate} (hcheck : table.check ⟨projections, conditions⟩ = .ok predicates) :
    ∃ predicates', table.check ⟨projections, others⟩ = .ok predicates' ∧
      ∀ predicate, predicate ∈ predicates ↔ predicate ∈ predicates' := by
  obtain ⟨hconditions, hprojections⟩ := check_eq_ok.mp hcheck
  have hmapM := mapM_eq_ok.mpr hconditions
  have hothers : ∀ condition ∈ others, ∃ predicate, table.predicate condition = .ok predicate :=
    fun condition hcondition => exists_mapM.mp ⟨_, hmapM⟩ condition ((h condition).mpr hcondition)
  obtain ⟨predicates', hmapM'⟩ := exists_mapM.mpr hothers
  refine ⟨predicates', check_eq_ok.mpr ⟨mapM_eq_ok.mp hmapM', hprojections⟩, fun predicate => ?_⟩
  rw [mem_of_mapM_eq_ok hmapM, mem_of_mapM_eq_ok hmapM']
  exact exists_congr fun condition => and_congr_left' (h condition)

/-- Where neither scan fails, the rows are the same. -/
theorem Serves.sameRows (h : table.Serves permitted sheet)
    (hsame : ∀ condition, condition ∈ conditions ↔ condition ∈ others) {form : DictionaryForm}
    {answer other : Answer} (hscan : table.scan ⟨projections, conditions⟩ form = .ok answer)
    (hother : table.scan ⟨projections, others⟩ form = .ok other) : answer.SameRows other := by
  obtain ⟨predicates, hcheck, -⟩ := bind_eq_ok.mp hscan
  obtain ⟨predicates', hcheck', hmem⟩ := exists_check_of_same hsame hcheck
  have hends := scan_ends h hcheck form
  have hends' := scan_ends h hcheck' form
  rw [hscan] at hends
  rw [hother] at hends'
  exact hends.of_ok.sameRows hends'.of_ok hmem

end Table

/-- Whether a table in memory answers is a matter of which conditions there are, and so are the rows. -/
theorem MemoryTable.Checked.sameOutcome {t : MemoryTable} (h : t.Checked) {projections : List Nat}
    {conditions others : List Condition}
    (hsame : ∀ condition, condition ∈ conditions ↔ condition ∈ others) (form : DictionaryForm) :
    SameOutcome (t.toTable.scan ⟨projections, conditions⟩ form) (t.toTable.scan ⟨projections, others⟩ form) := by
  cases hcheck : t.toTable.check ⟨projections, conditions⟩ with
  | ok predicates =>
    obtain ⟨predicates', hcheck', -⟩ := Table.exists_check_of_same hsame hcheck
    obtain ⟨answer, hscan, -⟩ := h.exists_answer hcheck form
    obtain ⟨other, hother, -⟩ := h.exists_answer hcheck' form
    rw [hscan, hother]
    exact .ok (h.serves_sheet.sameRows hsame hscan hother)
  | error e =>
    cases hcheck' : t.toTable.check ⟨projections, others⟩ with
    | ok predicates =>
      obtain ⟨predicates', hchecked, -⟩ :=
        Table.exists_check_of_same (fun condition => (hsame condition).symm) hcheck'
      rw [hcheck] at hchecked
      cases hchecked
    | error e' =>
      rw [Table.scan, Table.scan, hcheck, hcheck']
      exact .error

/-- Reordering the conditions changes neither the rows nor, in memory, whether there is an answer. Nor does
    repeating one of them, wherever it is put. -/
theorem scans_of_reordered_conditions (projections : List Nat) (form : DictionaryForm) :
    (∀ t : MemoryTable, t.Made → ∀ conditions others : List Condition, conditions.Perm others →
      SameOutcome (t.toTable.scan ⟨projections, conditions⟩ form)
        (t.toTable.scan ⟨projections, others⟩ form)) ∧
    (∀ t : MemoryTable, t.Made → ∀ (before after : List Condition), ∀ condition ∈ before ++ after,
      SameOutcome (t.toTable.scan ⟨projections, before ++ after⟩ form)
        (t.toTable.scan ⟨projections, before ++ condition :: after⟩ form)) ∧
    ∀ t : Parquet.FileTable, ∀ conditions others : List Condition, conditions.Perm others →
      ∀ answer other, t.toTable.scan ⟨projections, conditions⟩ form = .ok answer →
        t.toTable.scan ⟨projections, others⟩ form = .ok other → answer.SameRows other := by
  refine ⟨?_, ?_, ?_⟩
  · intro t hmade conditions others hperm
    exact hmade.checked.sameOutcome (fun _ => hperm.mem_iff) form
  · intro t hmade before after condition hmem
    refine hmade.checked.sameOutcome (fun other => ?_) form
    constructor
    · intro hother
      rcases List.mem_append.mp hother with hother | hother <;> simp [hother]
    · intro hother
      rcases List.mem_append.mp hother with hother | hother
      · simp [hother]
      · rcases List.mem_cons.mp hother with rfl | hother
        · exact hmem
        · simp [hother]
  · intro t conditions others hperm answer other hscan hother
    exact t.serves_claimedSheet.sameRows (fun _ => hperm.mem_iff) hscan hother

/-- Both tables hold a row in which nothing is asked for that is not there, though the second has a value
    missing elsewhere. -/
theorem reorders_text_and_number :
    let byKey : Condition := ⟨0, .equal, "a"⟩
    let byNumber : Condition := ⟨1, .less, "2"⟩
    let memory : MemoryTable :=
      ⟨[⟨"key", .dictionary [[0, 1], [0]] ⟨["a", "b"]⟩⟩, ⟨"m", .int32 [[1, 1, 2]]⟩], 3⟩
    let batch : Record.Batch :=
      ⟨[.leaf (.text .utf8 [some "a", some "b"]), .leaf (.integer .int32 [some 1, some 1]),
        .leaf (.integer .int32 [some 7, none])]⟩
    let file : Parquet.FileTable :=
      ⟨⟨[⟨"key", .leaf (.text .utf8), false⟩, ⟨"m", .leaf (.integer .int32), false⟩,
        ⟨"n", .leaf (.integer .int32), true⟩], [⟨2, batch⟩]⟩, [2]⟩
    memory.Made ∧ [byKey, byNumber].Perm [byNumber, byKey] ∧
      SameOutcome (memory.toTable.scan ⟨[1], [byKey, byNumber]⟩ .strings)
        (memory.toTable.scan ⟨[1], [byNumber, byKey]⟩ .strings) ∧
      SameOutcome (memory.toTable.scan ⟨[1], [byKey, byNumber]⟩ .strings)
        (memory.toTable.scan ⟨[1], [byKey, byNumber, byKey]⟩ .strings) ∧
      ∃ answer other, file.toTable.scan ⟨[2], [byKey, byNumber]⟩ .strings = .ok answer ∧
        file.toTable.scan ⟨[2], [byNumber, byKey]⟩ .strings = .ok other ∧ answer.SameRows other := by
  intro byKey byNumber memory batch file
  have hkeys : MemoryColumn.ofDictionary "key" [[0, 1], [0]] ⟨["a", "b"]⟩ =
      .ok ⟨"key", .dictionary [[0, 1], [0]] ⟨["a", "b"]⟩⟩ := rfl
  have hcolumns : ∀ column ∈ memory.columns, column.Made :=
    List.forall_mem_cons.mpr ⟨.dictionary hkeys, List.forall_mem_singleton.mpr (.int32 "m" [[1, 1, 2]])⟩
  have hmade : memory.Made := .ofColumns hcolumns rfl
  have hperm : [byKey, byNumber].Perm [byNumber, byKey] := .swap ..
  have hscan : file.toTable.scan ⟨[2], [byKey, byNumber]⟩ .strings =
      .ok { columns := [⟨2, .int32 [7]⟩], candidates := .bounded [0],
            narrowings := [⟨byKey, 1, false⟩, ⟨byNumber, 1, false⟩], rows := 1 } := by cbv
  have hother : file.toTable.scan ⟨[2], [byNumber, byKey]⟩ .strings =
      .ok { columns := [⟨2, .int32 [7]⟩], candidates := .bounded [0],
            narrowings := [⟨byNumber, 2, false⟩, ⟨byKey, 1, false⟩], rows := 1 } := by cbv
  obtain ⟨hreordered, hrepeated, -⟩ := scans_of_reordered_conditions [1] .strings
  obtain ⟨-, -, hfile⟩ := scans_of_reordered_conditions [2] .strings
  exact ⟨hmade, hperm, hreordered memory hmade _ _ hperm, hrepeated memory hmade [byKey, byNumber] [] byKey (by simp),
    _, _, hscan, hother, hfile file _ _ hperm _ _ hscan hother⟩

end Pushdown
