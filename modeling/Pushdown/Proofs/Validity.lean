-- SUMMARY: Which queries a scan refuses, with what, and that nothing else but the store makes it fail.
import Pushdown.Proofs.Memory.Making
import Pushdown.Proofs.Parquet.Claims
import Pushdown.Proofs.Parquet.Library

/-!
# Valid queries

Whether a query can be answered depends on the types of the columns alone, of which a `Catalog` is the list.
`Catalog.Flaw` says what can be wrong with a condition or a projection. A scan refuses a query with the flaw
of its first item that has one, conditions before projections, and it refuses no other query. Once a query is
valid, only a fault of the store can make its scan fail, and in memory there is none.
-/

namespace Pushdown

/-- For each column its type, or the name of a type that cannot be scanned. -/
abbrev Catalog := List (Except String ColumnType)

/-- A part of a query that something may be wrong with. -/
inductive Query.Item
  | condition (condition : Condition)
  | projection (column : Nat)

def Query.Item.column : Item → Nat
  | condition c => c.column
  | projection column => column

/-- The items of a query, in the order in which they are looked at. -/
def Query.items (query : Query) : List Item :=
  query.conditions.map .condition ++ query.projections.map .projection

/-! ## What can be wrong -/

namespace Catalog

/-- What is wrong with an item. The operand of a condition counts only if its comparison suits the
    column. -/
inductive Flaw (catalog : Catalog) : Query.Item → Failure → Prop
  | unknownColumn {item : Query.Item} (h : catalog.length ≤ item.column) :
      Flaw catalog item (.unknownColumn item.column catalog.length)
  | unsupportedType {item : Query.Item} {typeName : String} (h : catalog[item.column]? = some (.error typeName)) :
      Flaw catalog item (.unsupportedType item.column typeName)
  | unsupportedOperator {condition : Condition} {columnType : ColumnType}
      (htype : catalog[condition.column]? = some (.ok columnType)) (hop : condition.op ≠ .equal)
      (horder : columnType.isOrdered = false) :
      Flaw catalog (.condition condition) (.unsupportedOperator condition.column condition.op columnType)
  | operandSyntax {condition : Condition} {columnType : ColumnType}
      (htype : catalog[condition.column]? = some (.ok columnType))
      (hsuits : condition.op = .equal ∨ columnType.isOrdered = true)
      (hoperand : Operand.parse? columnType condition.operand = none) :
      Flaw catalog (.condition condition) (.operandSyntax condition.column columnType condition.operand)

/-- Nothing is wrong with any item. -/
def Valid (catalog : Catalog) (query : Query) : Prop := ∀ item ∈ query.items, ∀ e, ¬ catalog.Flaw item e

/-- What is wrong with the first item that anything is wrong with. -/
def FirstFlaw (catalog : Catalog) (query : Query) (e : Failure) : Prop :=
  ∃ before item after, query.items = before ++ item :: after ∧
    (∀ earlier ∈ before, ∀ e', ¬ catalog.Flaw earlier e') ∧ catalog.Flaw item e

variable {catalog : Catalog} {query : Query} {item : Query.Item} {e : Failure}

/-- The request is at fault for a flaw, and not the store. -/
theorem Flaw.isStoreFault_eq (h : catalog.Flaw item e) : e.isStoreFault = false := by
  cases h <;> rfl

theorem FirstFlaw.isStoreFault_eq (h : catalog.FirstFlaw query e) : e.isStoreFault = false := by
  obtain ⟨before, item, after, -, -, hflaw⟩ := h
  exact hflaw.isStoreFault_eq

/-! ## Checking an item -/

/-- The type of a column that an item names. -/
def namedType (catalog : Catalog) (column : Nat) : Except Failure ColumnType :=
  match catalog[column]? with
  | none => .error (.unknownColumn column catalog.length)
  | some (.error typeName) => .error (.unsupportedType column typeName)
  | some (.ok columnType) => .ok columnType

/-- What is found to be wrong with an item, if anything is. -/
def flaw? (catalog : Catalog) : Query.Item → Option Failure
  | .condition condition =>
    failureOf? (catalog.namedType condition.column >>= fun columnType =>
      Predicate.parse condition.column columnType condition.op condition.operand)
  | .projection column => failureOf? (catalog.namedType column)

theorem namedType_eq_ok {column : Nat} {columnType : ColumnType} :
    catalog.namedType column = .ok columnType ↔ catalog[column]? = some (.ok columnType) := by
  unfold namedType
  cases catalog[column]? with
  | none => simp
  | some entry => cases entry <;> simp

theorem namedType_eq_error {column : Nat} :
    catalog.namedType column = .error e ↔
      (catalog.length ≤ column ∧ e = .unknownColumn column catalog.length) ∨
        ∃ typeName, catalog[column]? = some (.error typeName) ∧ e = .unsupportedType column typeName := by
  rw [← List.getElem?_eq_none_iff]
  unfold namedType
  cases catalog[column]? with
  | none => simp [eq_comm]
  | some entry => cases entry <;> simp [eq_comm]

/-- The operand is only looked at when the comparison suits the type. -/
theorem parse_eq_error {column : Nat} {columnType : ColumnType} {op : Comparison} {text : String} :
    Predicate.parse column columnType op text = .error e ↔
      (op ≠ .equal ∧ columnType.isOrdered = false ∧ e = .unsupportedOperator column op columnType) ∨
        ((op = .equal ∨ columnType.isOrdered = true) ∧ Operand.parse? columnType text = none ∧
          e = .operandSyntax column columnType text) := by
  have hsuits : Predicate.suits op columnType = true ↔ op = .equal ∨ columnType.isOrdered = true := by
    simp [Predicate.suits]
  rw [← hsuits, ← and_assoc, ← Bool.not_eq_true columnType.isOrdered, Ne, ← not_or, ← hsuits]
  unfold Predicate.parse
  by_cases h : Predicate.suits op columnType = true
  · cases Operand.parse? columnType text <;> simp [h, eq_comm]
  · simp [h, eq_comm]

/-- Checking an item finds what is wrong with it, and nothing else. -/
theorem flaw?_eq_some : catalog.flaw? item = some e ↔ catalog.Flaw item e := by
  cases item with
  | projection column =>
    show failureOf? _ = some e ↔ _
    rw [failureOf?_eq_some, namedType_eq_error]
    constructor
    · rintro (⟨hlength, rfl⟩ | ⟨typeName, htype, rfl⟩)
      · exact .unknownColumn hlength
      · exact .unsupportedType htype
    · intro h
      cases h with
      | unknownColumn hlength => exact .inl ⟨hlength, rfl⟩
      | unsupportedType htype => exact .inr ⟨_, htype, rfl⟩
  | condition condition =>
    show failureOf? _ = some e ↔ _
    simp only [failureOf?_eq_some, bind_eq_error, namedType_eq_error, namedType_eq_ok, parse_eq_error]
    constructor
    · rintro ((⟨hlength, rfl⟩ | ⟨typeName, htype, rfl⟩) |
        ⟨columnType, htype, (⟨hop, horder, rfl⟩ | ⟨hsuits, hoperand, rfl⟩)⟩)
      · exact .unknownColumn hlength
      · exact .unsupportedType htype
      · exact .unsupportedOperator htype hop horder
      · exact .operandSyntax htype hsuits hoperand
    · intro h
      cases h with
      | unknownColumn hlength => exact .inl (.inl ⟨hlength, rfl⟩)
      | unsupportedType htype => exact .inl (.inr ⟨_, htype, rfl⟩)
      | unsupportedOperator htype hop horder => exact .inr ⟨_, htype, .inl ⟨hop, horder, rfl⟩⟩
      | operandSyntax htype hsuits hoperand => exact .inr ⟨_, htype, .inr ⟨hsuits, hoperand, rfl⟩⟩

theorem flaw?_eq_none : catalog.flaw? item = none ↔ ∀ e, ¬ catalog.Flaw item e := by
  rw [Option.eq_none_iff_forall_ne_some]
  exact forall_congr' fun e => not_congr flaw?_eq_some

theorem findSome?_eq_some : query.items.findSome? catalog.flaw? = some e ↔ catalog.FirstFlaw query e := by
  rw [List.findSome?_eq_some_iff]
  refine exists_congr fun before => exists_congr fun item => exists_congr fun after => and_congr_right' ?_
  rw [flaw?_eq_some, and_comm]
  exact and_congr_left' (forall₂_congr fun earlier _ => flaw?_eq_none)

theorem findSome?_eq_none : query.items.findSome? catalog.flaw? = none ↔ catalog.Valid query := by
  rw [List.findSome?_eq_none_iff]
  exact forall₂_congr fun item _ => flaw?_eq_none

end Catalog

/-! ## What a scan refuses -/

namespace Table

variable {δ : Type → Type} {table : Table δ} {catalog : Catalog} {query : Query} {e : Failure}

/-- The types of the table's columns are those of the catalog. -/
def Lists (table : Table δ) (catalog : Catalog) : Prop :=
  ∀ column, table.namedType column = catalog.namedType column

/-- Checking a query finds the first flaw. -/
theorem failureOf?_check (h : table.Lists catalog) (query : Query) :
    failureOf? (table.check query) = query.items.findSome? catalog.flaw? := by
  have hpredicate : ∀ condition, failureOf? (table.predicate condition) =
      catalog.flaw? (.condition condition) := by
    intro condition
    rw [Table.predicate, h]
    rfl
  have hprojection : ∀ column, failureOf? (discard (table.namedType column)) =
      catalog.flaw? (.projection column) := by
    intro column
    rw [h]
    show failureOf? (discard (catalog.namedType column)) = failureOf? (catalog.namedType column)
    cases catalog.namedType column <;> rfl
  unfold check Query.items
  rw [failureOf?_bind fun _ => failureOf?_map _ _, failureOf?_mapM, failureOf?_forM, List.findSome?_append,
    List.findSome?_map, List.findSome?_map]
  simp only [hpredicate, hprojection, Function.comp_def]

theorem check_eq_error (h : table.Lists catalog) : table.check query = .error e ↔ catalog.FirstFlaw query e := by
  rw [← failureOf?_eq_some, failureOf?_check h, Catalog.findSome?_eq_some]

theorem exists_check (h : table.Lists catalog) :
    (∃ predicates, table.check query = .ok predicates) ↔ catalog.Valid query := by
  rw [← failureOf?_eq_none, failureOf?_check h, Catalog.findSome?_eq_none]

/-- The scans of a table refuse the queries that are not valid, and only those. They do so with the first
    flaw, and when they fail otherwise the store is at fault. -/
structure Judges (table : Table δ) (catalog : Catalog) : Prop where
  refuses_iff : ∀ query form,
    (∃ e, table.scan query form = .error e ∧ e.isStoreFault = false) ↔ ¬ catalog.Valid query
  firstFlaw_iff : ∀ query form e,
    (table.scan query form = .error e ∧ e.isStoreFault = false) ↔ catalog.FirstFlaw query e
  isStoreFault_of_valid : ∀ query form e, catalog.Valid query → table.scan query form = .error e →
    e.isStoreFault = true

/-- A table whose checked scans fail with faults of the store only. -/
theorem judges_of_ends (hlists : table.Lists catalog)
    (hends : ∀ query predicates form, table.check query = .ok predicates →
      Ends (·.isStoreFault = true) (fun _ => True) (table.scan query form)) : table.Judges catalog := by
  have hvalid : ∀ query form e, catalog.Valid query → table.scan query form = .error e →
      e.isStoreFault = true := by
    intro query form e hquery hscan
    obtain ⟨predicates, hcheck⟩ := (exists_check hlists).mpr hquery
    have herror := hends query predicates form hcheck
    rw [hscan] at herror
    exact herror.of_error
  have hflaw : ∀ query form e,
      (table.scan query form = .error e ∧ e.isStoreFault = false) ↔ catalog.FirstFlaw query e := by
    intro query form e
    constructor
    · rintro ⟨hscan, he⟩
      -- a query that was checked cannot fail like this, so the check itself did
      rw [← check_eq_error hlists]
      cases hcheck : table.check query with
      | ok predicates =>
        have hfault := hvalid query form e ((exists_check hlists).mp ⟨predicates, hcheck⟩) hscan
        rw [he] at hfault
        cases hfault
      | error e' =>
        rw [scan, hcheck] at hscan
        cases hscan
        rfl
    · intro hflaw
      have hcheck := (check_eq_error hlists).mpr hflaw
      exact ⟨by rw [scan, hcheck]; rfl, hflaw.isStoreFault_eq⟩
  refine ⟨fun query form => ?_, hflaw, hvalid⟩
  simp only [hflaw]
  rw [← exists_check hlists, ← failureOf?_eq_none, failureOf?_check hlists, ← Ne,
    Option.ne_none_iff_exists']
  simp only [Catalog.findSome?_eq_some]

theorem Serves.judges {permitted : Failure → Prop} {sheet : Sheet} (h : table.Serves permitted sheet)
    (hpermitted : ∀ e, permitted e → e.isStoreFault = true) (hlists : table.Lists catalog) :
    table.Judges catalog :=
  judges_of_ends hlists fun _ _ form hcheck =>
    (scan_ends h hcheck form).imp hpermitted fun _ _ => trivial

end Table

/-! ## Tables of either store -/

/-- The type that a column in memory is listed with. -/
def ColumnChunks.listing : ColumnChunks → Except String ColumnType
  | .float64 _ => .ok .float64
  | .int32 _ => .ok .int32
  | .utf8 _ => .ok .utf8
  | .dictionary .. => .ok .dictionary
  | .unsupported typeName _ => .error typeName

def MemoryTable.catalog (t : MemoryTable) : Catalog := t.columns.map fun column => column.data.listing

theorem MemoryTable.lists_catalog (t : MemoryTable) : t.toTable.Lists t.catalog := by
  intro position
  rw [namedType_eq, Catalog.namedType, catalog, List.getElem?_map, List.length_map]
  cases t.columns[position]? with
  | none => rfl
  | some column =>
    obtain ⟨name, data⟩ := column
    cases data <;> rfl

/-- The type that a leaf is listed with. -/
def Parquet.Leaf.listing (leaf : Parquet.Leaf) : Except String ColumnType :=
  if leaf.repeated then .error ("repeated " ++ leaf.physicalType.name)
  else
    match leaf.physicalType with
    | .double => .ok .float64
    | .int32 => .ok .int32
    | .byteArray => .ok .utf8
    | other => .error other.name

def Parquet.FileTable.catalog (t : FileTable) : Catalog := t.leaves.map Leaf.listing

theorem Parquet.FileTable.lists_catalog (t : FileTable) {δ : Type → Type}
    (column : Nat → Except Failure (Column δ)) : (t.tableOf column).Lists t.catalog := by
  intro position
  rw [namedType_tableOf, columnType, leaf?, Catalog.namedType, catalog, List.getElem?_map, List.length_map]
  cases t.leaves[position]? with
  | none => rfl
  | some leaf =>
    obtain ⟨name, type, repeated⟩ := leaf
    cases repeated with
    | true => rfl
    | false => cases type <;> rfl

theorem Parquet.FileTable.judges_of_follows {ρ : Type → Type} {library : Library ρ} {t : FileTable}
    (h : library.Follows t) : (t.toTableBy library).Judges t.catalog :=
  Table.judges_of_ends (t.lists_catalog _) fun _ _ form hcheck =>
    (FileTable.toTableBy_fails_only h).scan hcheck form

/-- Both stores refuse exactly the queries that are not valid for their types, with the first flaw. For a
    valid query a table in memory has an answer. A Parquet table may be at fault then, and nothing else can be
    wrong: whatever the library that reads the file hands out or fails at, as long as it opens leaves as the
    types of the schema. -/
theorem scans_refuse_flawed_queries :
    (∀ t : MemoryTable, t.Made → t.toTable.Judges t.catalog ∧
      ∀ query form, t.catalog.Valid query → ∃ answer, t.toTable.scan query form = .ok answer) ∧
    (∀ t : Parquet.FileTable, t.toTable.Judges t.catalog) ∧
    ∀ (t : Parquet.FileTable) (ρ : Type → Type) (library : Parquet.Library ρ), library.Follows t →
      (t.toTableBy library).Judges t.catalog := by
  refine ⟨fun t hmade => ⟨?_, ?_⟩, fun t => ?_, fun t ρ library hfollows => ?_⟩
  · exact hmade.checked.serves_sheet.judges (fun _ hfalse => hfalse.elim) t.lists_catalog
  · intro query form hvalid
    obtain ⟨predicates, hcheck⟩ := (Table.exists_check t.lists_catalog).mpr hvalid
    obtain ⟨answer, hanswer, -⟩ := hmade.checked.exists_answer hcheck form
    exact ⟨answer, hanswer⟩
  · exact t.toTableBy_contents ▸ Parquet.FileTable.judges_of_follows t.contents_follows
  · exact Parquet.FileTable.judges_of_follows hfollows

/-- An order on text is refused before the column that cannot be scanned, and repeated texts do no harm. In a
    file whose second row group cannot be read, an operand that is no number is refused all the same. -/
theorem refuses_order_on_repeated_texts :
    let t : MemoryTable :=
      ⟨[⟨"key", .dictionary [[0, 1]] ⟨["a", "a"]⟩⟩, ⟨"day", .unsupported "Date32" 2⟩], 2⟩
    let refused : Query := ⟨[1], [⟨0, .equal, "a"⟩, ⟨0, .less, "b"⟩]⟩
    let valid : Query := ⟨[0], [⟨0, .equal, "a"⟩]⟩
    let rowGroup : Parquet.RowGroup := ⟨1, ⟨[.leaf (.integer .int32 [some 7])]⟩⟩
    let file : Parquet.FileTable :=
      ⟨⟨[⟨"n", .leaf (.integer .int32), false⟩], [rowGroup, rowGroup]⟩, [1, 1]⟩
    let library : Parquet.Library fun α => List (Stored α) :=
      { file.contents with
        openLeaf := fun column segment =>
          if segment = 1 then .error .unreadable else file.contents.openLeaf column segment }
    (t.Made ∧ t.toTable.scan refused .strings = .error (.unsupportedOperator 0 .less .dictionary) ∧
      t.catalog.Valid valid ∧ ∃ answer, t.toTable.scan valid .strings = .ok answer) ∧
    library.Follows file ∧
      (file.toTableBy library).scan ⟨[0], [⟨0, .less, "x"⟩]⟩ .strings =
        .error (.operandSyntax 0 .int32 "x") ∧
      (file.toTableBy library).scan ⟨[0], [⟨0, .less, "9"⟩]⟩ .strings = .error (.unreadable .parquet) ∧
      (Failure.unreadable .parquet).isStoreFault = true := by
  intro t refused valid rowGroup file library
  have hkeys : MemoryColumn.ofDictionary "key" [[0, 1]] ⟨["a", "a"]⟩ =
      .ok ⟨"key", .dictionary [[0, 1]] ⟨["a", "a"]⟩⟩ := rfl
  have hcolumns : ∀ column ∈ t.columns, column.Made :=
    List.forall_mem_cons.mpr ⟨.dictionary hkeys, List.forall_mem_singleton.mpr (.unsupported "day" "Date32" 2)⟩
  have hmade : t.Made := .ofColumns hcolumns rfl
  have hflaw : t.catalog.FirstFlaw refused (.unsupportedOperator 0 .less .dictionary) :=
    Catalog.findSome?_eq_some.mp rfl
  have hvalid : t.catalog.Valid valid := Catalog.findSome?_eq_none.mp rfl
  obtain ⟨hjudges, hanswers⟩ := scans_refuse_flawed_queries.1 t hmade
  refine ⟨⟨hmade, ((hjudges.firstFlaw_iff refused .strings _).mpr hflaw).1, hvalid,
    hanswers valid .strings hvalid⟩, ?_⟩
  have hfollows : library.Follows file := by
    intro column segment leaf reader hleaf hsegment hopen
    by_cases hsecond : segment = 1
    · simp [library, hsecond] at hopen
    · simp only [library, if_neg hsecond] at hopen
      exact file.contents_follows column segment leaf reader hleaf hsegment hopen
  have hfile := scans_refuse_flawed_queries.2.2 file _ library hfollows
  have hflaw : file.catalog.FirstFlaw ⟨[0], [⟨0, .less, "x"⟩]⟩ (.operandSyntax 0 .int32 "x") :=
    Catalog.findSome?_eq_some.mp (by cbv)
  have hvalid : file.catalog.Valid ⟨[0], [⟨0, .less, "9"⟩]⟩ := Catalog.findSome?_eq_none.mp (by cbv)
  have hscan : (file.toTableBy library).scan ⟨[0], [⟨0, .less, "9"⟩]⟩ .strings =
      .error (.unreadable .parquet) := by cbv
  exact ⟨hfollows, ((hfile.firstFlaw_iff _ .strings _).mpr hflaw).1, hscan,
    hfile.isStoreFault_of_valid _ .strings _ hvalid hscan⟩

end Pushdown
