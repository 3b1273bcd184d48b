-- SUMMARY: A condition is read exactly from the texts that spell it, and its operand may be any text.
import Mathlib
import Pushdown.Command.Spelling
import Pushdown.Memory.Table

/-!
# Spelled conditions

A text with two colons or more has one way to be cut into a column, an operator and an operand so that neither of
the first two has a colon in it. A condition is read from it if the first part refers to a column and the second is
the name of an operator. A name without a colon refers to the first column that has it, even if it is a number too.
Hence what is put together from such a name, an operator and any operand is read as just these.
-/

namespace Pushdown

/-! ## Numerals -/

namespace Decimal

/-- Digits, which a plus sign may come before, and the number that they stand for. -/
def Spells (cs : List Char) (n : Nat) : Prop :=
  ∃ digits, (cs = digits ∨ cs = '+' :: digits) ∧ digits ≠ [] ∧ (∀ c ∈ digits, c.isDigit = true) ∧
    Nat.ofDigits 10 (digits.reverse.map digitValue) = n

theorem ofDigits_eq (cs : List Char) : ofDigits cs = Nat.ofDigits 10 (cs.reverse.map digitValue) := by
  induction cs using List.reverseRecOn with
  | nil => rfl
  | append_singleton cs c ih =>
    rw [ofDigits, List.foldl_append, ← ofDigits, ih, List.reverse_append, List.map_append]
    simp [Nat.ofDigits_cons, Nat.add_comm]

theorem unsigned?_eq_some {cs : List Char} {n : Nat} :
    unsigned? cs = some n ↔ cs ≠ [] ∧ (∀ c ∈ cs, c.isDigit = true) ∧
      Nat.ofDigits 10 (cs.reverse.map digitValue) = n := by
  simp [unsigned?, ofDigits_eq, and_assoc]

theorem natural?_eq_some {bound n : Nat} {cs : List Char} :
    natural? bound cs = some n ↔ Spells cs n ∧ n < bound := by
  unfold natural?
  rw [Option.filter_eq_some_iff, decide_eq_true_iff]
  refine and_congr_left' ?_
  split
  · rename_i rest
    rw [unsigned?_eq_some]
    constructor
    · exact fun h => ⟨rest, .inr rfl, h⟩
    · rintro ⟨digits, rfl | hrest, h⟩
      · -- the sign cannot be one of the digits
        exact absurd (h.2.1 '+' List.mem_cons_self) (by decide)
      · rwa [(List.cons.inj hrest).2]
  · rename_i hsign
    rw [unsigned?_eq_some]
    constructor
    · exact fun h => ⟨cs, .inl rfl, h⟩
    · rintro ⟨digits, rfl | hcs, h⟩
      · exact h
      · exact (hsign digits hcs).elim

end Decimal

/-! ## Operators -/

theorem Comparison.ofName?_eq_some {name : String} {op : Comparison} : ofName? name = some op ↔ op.name = name := by
  constructor
  · intro h
    simpa using List.find?_some h
  · rintro rfl
    cases op <;> rfl

theorem Comparison.colon_notMem_name (op : Comparison) : ':' ∉ op.name.toList := by
  cases op <;> decide

theorem Condition.ofName_eq_ok {column : Nat} {name operand : String} {condition : Condition} :
    Condition.ofName column name operand = .ok condition ↔
      column = condition.column ∧ condition.op.name = name ∧ operand = condition.operand := by
  rw [← Comparison.ofName?_eq_some, Condition.ofName]
  cases Comparison.ofName? name with
  | none => simp
  | some op =>
    obtain ⟨column', op', operand'⟩ := condition
    simp

namespace Command

/-! ## The parts of a condition -/

section

variable {cs before after : List Char} {text column op operand : String}

theorem splitColon?_append (h : ':' ∉ before) (after : List Char) :
    splitColon? (before ++ ':' :: after) = some (before, after) := by
  have hbefore : ∀ c ∈ before, decide (c ≠ ':') = true := fun c hc =>
    decide_eq_true fun heq => h (heq ▸ hc)
  rw [splitColon?, List.span_eq_takeWhile_dropWhile, List.takeWhile_append_of_pos hbefore,
    List.dropWhile_append_of_pos hbefore]
  simp

theorem splitColon?_eq_none (h : ':' ∉ cs) : splitColon? cs = none := by
  have hall : ∀ c ∈ cs, decide (c ≠ ':') = true := fun c hc => decide_eq_true fun heq => h (heq ▸ hc)
  rw [splitColon?, List.span_eq_takeWhile_dropWhile, List.dropWhile_eq_nil_iff.mpr hall]

theorem splitColon?_eq_some :
    splitColon? cs = some (before, after) ↔ cs = before ++ ':' :: after ∧ ':' ∉ before := by
  constructor
  · intro h
    by_cases hcolon : ':' ∈ cs
    · obtain ⟨first, rest, rfl, hfirst⟩ := List.eq_append_cons_of_mem hcolon
      rw [splitColon?_append hfirst] at h
      cases h
      exact ⟨rfl, hfirst⟩
    · rw [splitColon?_eq_none hcolon] at h
      cases h
  · rintro ⟨rfl, hbefore⟩
    exact splitColon?_append hbefore after

/-- The text is cut at its first colon and at the next one. -/
structure Parts (text column op operand : String) : Prop where
  text_eq : text = column ++ ":" ++ op ++ ":" ++ operand
  column_plain : ':' ∉ column.toList
  op_plain : ':' ∉ op.toList

theorem splitCondition?_eq_some :
    splitCondition? text = some (column, op, operand) ↔ Parts text column op operand := by
  constructor
  · intro h
    simp only [splitCondition?, Option.bind_eq_bind, Option.bind_eq_some_iff, Prod.exists, splitColon?_eq_some] at h
    obtain ⟨first, rest, ⟨htext, hfirst⟩, second, last, ⟨rfl, hsecond⟩, h⟩ := h
    cases h
    refine ⟨String.toList_injective ?_, by simpa using hfirst, by simpa using hsecond⟩
    simpa using htext
  · rintro ⟨rfl, hcolumn, hop⟩
    have hsplit := splitColon?_append hcolumn (op.toList ++ ':' :: operand.toList)
    simp [splitCondition?, hsplit, splitColon?_append hop]

/-- Two colons are needed to cut a text, and if there are more, they are in the operand. -/
theorem exists_parts_iff : (∃ column op operand, Parts text column op operand) ↔ 2 ≤ text.toList.count ':' := by
  constructor
  · rintro ⟨column, op, operand, rfl, -, -⟩
    simp only [String.toList_append, List.count_append]
    have hcolon : ":".toList.count ':' = 1 := rfl
    omega
  · intro h
    obtain ⟨column, rest, htext, hcolumn⟩ :=
      List.eq_append_cons_of_mem (List.count_pos_iff.mp (Nat.lt_of_lt_of_le Nat.two_pos h))
    rw [htext, List.count_append, List.count_cons_self, List.count_eq_zero.mpr hcolumn] at h
    have hrest : 0 < rest.count ':' := by omega
    obtain ⟨op, operand, rfl, hop⟩ := List.eq_append_cons_of_mem (List.count_pos_iff.mp hrest)
    refine ⟨String.ofList column, String.ofList op, String.ofList operand, ?_⟩
    rw [← splitCondition?_eq_some, splitCondition?, htext]
    simp [splitColon?_append hcolumn, splitColon?_append hop]

end

/-! ## Columns -/

section

variable {δ : Type → Type} {table : Table δ} {name : String} {column : Nat}

/-- The first column that has the name. -/
structure FirstNamed (table : Table δ) (name : String) (column : Nat) : Prop where
  lt : column < table.columnCount
  name_eq : table.columnName? column = some name
  first : ∀ earlier < column, table.columnName? earlier ≠ some name

theorem FirstNamed.unique {other : Nat} (h : FirstNamed table name column) (h' : FirstNamed table name other) :
    column = other :=
  Nat.le_antisymm (Nat.le_of_not_lt fun hlt => h.first other hlt h'.name_eq)
    (Nat.le_of_not_lt fun hlt => h'.first column hlt h.name_eq)

theorem exists_firstNamed (hlt : column < table.columnCount) (hname : table.columnName? column = some name) :
    ∃ first, FirstNamed table name first := by
  classical
  have h : ∃ other, other < table.columnCount ∧ table.columnName? other = some name := ⟨column, hlt, hname⟩
  obtain ⟨hfirst, hfound⟩ := Nat.find_spec h
  exact ⟨Nat.find h, hfirst, hfound, fun earlier hearlier hsame =>
    Nat.find_min h hearlier ⟨hearlier.trans hfirst, hsame⟩⟩

theorem find?_eq_some : ((List.range table.columnCount).find? fun column => table.columnName? column = some name) =
    some column ↔ FirstNamed table name column := by
  rw [List.find?_range_eq_some]
  simp only [decide_eq_true_eq, List.mem_range, Bool.not_eq_true', decide_eq_false_iff_not]
  constructor
  · rintro ⟨hname, hlt, hfirst⟩
    exact ⟨hlt, hname, hfirst⟩
  · rintro ⟨hlt, hname, hfirst⟩
    exact ⟨hname, hlt, hfirst⟩

/-- A text refers to the first column that it is the name of, or else to the position that it spells. -/
inductive Refers (table : Table δ) (text : String) : Nat → Prop
  | name {column : Nat} (h : FirstNamed table text column) : Refers table text column
  | position {column : Nat} (hunnamed : ∀ other < table.columnCount, table.columnName? other ≠ some text)
      (hspells : Decimal.Spells text.toList column) (hlt : column < UInt64.size) : Refers table text column

theorem refers_of_named {first : Nat} (h : FirstNamed table name first) :
    Refers table name column ↔ first = column := by
  constructor
  · rintro (h' | ⟨hunnamed, -, -⟩)
    · exact h.unique h'
    · exact absurd h.name_eq (hunnamed first h.lt)
  · rintro rfl
    exact .name h

theorem refers_of_unnamed (h : ∀ other < table.columnCount, table.columnName? other ≠ some name) :
    Refers table name column ↔ Decimal.Spells name.toList column ∧ column < UInt64.size := by
  constructor
  · rintro (hnamed | ⟨-, hspells, hlt⟩)
    · exact absurd hnamed.name_eq (h column hnamed.lt)
    · exact ⟨hspells, hlt⟩
  · exact fun ⟨hspells, hlt⟩ => .position h hspells hlt

theorem exists_refers_iff : (∃ column, Refers table name column) ↔
    (∃ named < table.columnCount, table.columnName? named = some name) ∨
      ∃ position < UInt64.size, Decimal.Spells name.toList position := by
  by_cases hnamed : ∃ named < table.columnCount, table.columnName? named = some name
  · obtain ⟨named, hlt, hname⟩ := hnamed
    obtain ⟨first, hfirst⟩ := exists_firstNamed hlt hname
    exact iff_of_true ⟨first, .name hfirst⟩ (.inl ⟨named, hlt, hname⟩)
  · rw [or_iff_right hnamed]
    push Not at hnamed
    simp only [refers_of_unnamed hnamed, and_comm]

theorem findColumn_eq_ok : findColumn table name = .ok column ↔ Refers table name column := by
  unfold findColumn
  cases hfound : (List.range table.columnCount).find? fun column => table.columnName? column = some name with
  | some first =>
    rw [refers_of_named (find?_eq_some.mp hfound)]
    simp
  | none =>
    have hunnamed : ∀ other < table.columnCount, table.columnName? other ≠ some name := by
      simpa using hfound
    rw [refers_of_unnamed hunnamed, ← Decimal.natural?_eq_some]
    cases Decimal.natural? UInt64.size name.toList <;> simp

theorem mapError_eq_ok {ε ε' α : Type} {f : ε → ε'} {outcome : Except ε α} {value : α} :
    outcome.mapError f = .ok value ↔ outcome = .ok value := by
  cases outcome <;> simp [Except.mapError]

theorem readCondition_eq_ok {text : String} {condition : Condition} :
    readCondition table text = .ok condition ↔
      ∃ column, Parts text column condition.op.name condition.operand ∧ Refers table column condition.column := by
  unfold readCondition
  simp only [← splitCondition?_eq_some, ← findColumn_eq_ok]
  cases splitCondition? text with
  | none => simp
  | some parts =>
    obtain ⟨name, op, operand⟩ := parts
    simp only [Option.some.injEq, Prod.mk.injEq]
    cases hcolumn : findColumn table name with
    | error e =>
      refine iff_of_false nofun ?_
      rintro ⟨_, ⟨rfl, -⟩, hfound⟩
      rw [hcolumn] at hfound
      cases hfound
    | ok column =>
      show (Condition.ofName column op operand).mapError _ = .ok condition ↔ _
      rw [mapError_eq_ok, Condition.ofName_eq_ok]
      constructor
      · rintro ⟨rfl, rfl, rfl⟩
        exact ⟨name, ⟨rfl, rfl, rfl⟩, hcolumn⟩
      · rintro ⟨_, ⟨rfl, rfl, rfl⟩, hfound⟩
        rw [hcolumn] at hfound
        exact ⟨Except.ok.inj hfound, rfl, rfl⟩

end

/-! ## Conditions that are read -/

/-- A condition is read from a text with two colons or more, if what stands before the first is the name of a column
    or else a position, and what stands between the first two is the name of an operator; the operand is all that
    follows. So a name without a colon, an operator and any operand are read as the first column of the name, the
    operator and the operand. -/
theorem reads_what_is_spelled {δ : Type → Type} (table : Table δ) :
    (∀ text, 2 ≤ text.toList.count ':' ↔ ∃ column op operand, Parts text column op operand) ∧
      (∀ text, (∃ condition, readCondition table text = .ok condition) ↔
        ∃ column op operand, Parts text column op operand ∧
          ((∃ named < table.columnCount, table.columnName? named = some column) ∨
            ∃ position < UInt64.size, Decimal.Spells column.toList position) ∧
          ∃ comparison : Comparison, comparison.name = op) ∧
      (∀ text condition, readCondition table text = .ok condition ↔
        ∃ column, Parts text column condition.op.name condition.operand ∧ Refers table column condition.column) ∧
      ∀ name, ':' ∉ name.toList → ∀ column < table.columnCount, table.columnName? column = some name →
        ∃ first, FirstNamed table name first ∧ ∀ (op : Comparison) (operand : String),
          readCondition table (name ++ ":" ++ op.name ++ ":" ++ operand) = .ok ⟨first, op, operand⟩ := by
  refine ⟨fun text => exists_parts_iff.symm, fun text => ?_, fun text condition => readCondition_eq_ok, ?_⟩
  · simp only [readCondition_eq_ok, ← exists_refers_iff]
    constructor
    · rintro ⟨condition, column, hparts, hrefers⟩
      exact ⟨column, _, _, hparts, ⟨_, hrefers⟩, _, rfl⟩
    · rintro ⟨column, _, operand, hparts, ⟨position, hrefers⟩, op, rfl⟩
      exact ⟨⟨position, op, operand⟩, column, hparts, hrefers⟩
  · intro name hplain column hlt hname
    obtain ⟨first, hfirst⟩ := exists_firstNamed hlt hname
    refine ⟨first, hfirst, fun op operand => ?_⟩
    exact readCondition_eq_ok.mpr ⟨name, ⟨rfl, hplain, op.colon_notMem_name⟩, .name hfirst⟩

/-- A name that is a number too, and that two columns have, with an operand that looks like a condition. -/
theorem reads_repeated_number_as_name :
    let t : MemoryTable := ⟨[⟨"n", .int32 [[1]]⟩, ⟨"0", .int32 [[2]]⟩, ⟨"0", .int32 [[3]]⟩], 1⟩
    ':' ∉ "0".toList ∧ 2 < t.toTable.columnCount ∧ t.toTable.columnName? 2 = some "0" ∧
      readCondition t.toTable "0:LESS_EQUAL:n:EQUAL: 1" = .ok ⟨1, .lessEqual, "n:EQUAL: 1"⟩ ∧
      readCondition t.toTable "+07:EQUAL:" = .ok ⟨7, .equal, ""⟩ := by
  intro t
  obtain ⟨-, -, hread, hnames⟩ := reads_what_is_spelled t.toTable
  obtain ⟨first, hfirst, hspelled⟩ := hnames "0" (by decide) 2 (by decide) rfl
  obtain rfl : first = 1 := hfirst.unique ⟨by decide, rfl, by decide⟩
  refine ⟨by decide, by decide, rfl, hspelled .lessEqual "n:EQUAL: 1", (hread _ _).mpr ⟨"+07", ?_, ?_⟩⟩
  · exact ⟨rfl, by decide, by decide⟩
  · obtain ⟨hspells, hlt⟩ := Decimal.natural?_eq_some.mp
      (show Decimal.natural? UInt64.size "+07".toList = some 7 by decide)
    exact .position (by decide) hspells hlt

end Command

end Pushdown
