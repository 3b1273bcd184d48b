-- SUMMARY: What a Parquet table does over a library that may fail: nothing but the store can make it fail.
import Pushdown.Parquet.Library
import Pushdown.Proofs.Faulting
import Pushdown.Proofs.Parquet.Table

/-!
# Libraries that may fail

A library need not hand out what is stored in the file, and may fail where it likes. What is relied on is that
it opens a leaf as values of the type of the schema. Then the reader is one for the values that the table asks
for, and whatever fails is a fault of the store.

Over a library that hands out what is stored the table is `FileTable.toTable`.
-/

namespace Pushdown

/-! ## Decoders -/

namespace RowGroupDecoder

variable {ρ α : Type} {reader : RecordReader ρ α} {d : RowGroupDecoder ρ} {e : Failure}

theorem isStoreFault_of_skip {n : Nat} (h : (d.skip reader n).1 = .error e) : e.isStoreFault = true := by
  unfold skip at h
  split at h
  · cases h
    rfl
  · split at h
    · rename_i problem _ _
      cases h
      cases problem <;> rfl
    · split at h
      · cases h
        rfl
      · cases h

theorem isStoreFault_of_next (h : (d.next reader).1 = .error e) : e.isStoreFault = true := by
  unfold next at h
  split at h
  · cases h
    rfl
  · split at h
    · rename_i problem _ _
      cases h
      cases problem <;> rfl
    · cases h
      rfl
    · rename_i record _ _
      cases record <;> cases h <;> rfl

end RowGroupDecoder

namespace Parquet

variable {ρ : Type → Type} {library : Library ρ} {t : FileTable}

/-! ## What is relied on -/

/-- A leaf that is opened in a row group is opened as values of the type that the schema gives it. -/
def Library.Follows (library : Library ρ) (t : FileTable) : Prop :=
  ∀ column segment leaf reader, t.leaves[column]? = some leaf → segment < t.rowGroupSizes.length →
    library.openLeaf column segment = .ok reader → reader.physicalType = leaf.physicalType

namespace LeafReader

variable {reader : LeafReader ρ}

theorem exists_doubles (h : reader.physicalType = .double) : ∃ records, reader.doubles? = some records := by
  cases reader <;> cases h
  exact ⟨_, rfl⟩

theorem exists_integers (h : reader.physicalType = .int32) : ∃ records, reader.integers? = some records := by
  cases reader <;> cases h
  exact ⟨_, rfl⟩

theorem exists_texts (h : reader.physicalType = .byteArray) : ∃ records, reader.texts? = some records := by
  cases reader <;> cases h
  exact ⟨_, rfl⟩

end LeafReader

namespace FileTable

theorem physicalType_storedLeaf (t : FileTable) (column segment : Nat) (type : PhysicalType) :
    (t.storedLeaf column segment type).physicalType = type := by
  cases type <;> rfl

theorem contents_follows (t : FileTable) : t.contents.Follows t := by
  intro column segment leaf reader hleaf _ hopen
  simp only [contents, hleaf] at hopen
  cases hopen
  exact t.physicalType_storedLeaf column segment leaf.physicalType

/-! ## A library that hands out what is stored -/

theorem openAs_contents {σ : Type} {column : Nat} {leaf : Leaf} (hleaf : t.leaves[column]? = some leaf)
    (wanted? : LeafReader (fun α => List (Stored α)) → Option σ) (typeName : String) {records : Nat → σ}
    (hwanted : ∀ segment, wanted? (t.storedLeaf column segment leaf.physicalType) = some (records segment)) :
    t.contents.openAs wanted? typeName column = fun segment => .ok (records segment) := by
  funext segment
  simp only [Library.openAs, contents, hleaf, hwanted]

theorem columnBy_contents (t : FileTable) (column : Nat) : t.columnBy t.contents column = t.column column := by
  unfold columnBy FileTable.column
  cases htype : t.columnType column with
  | error e => rfl
  | ok columnType =>
    obtain ⟨leaf, hleaf, -, hphysical⟩ := columnType_eq_ok.mp htype
    obtain ⟨name, type, repeated⟩ := leaf
    cases type with
    | double =>
      cases hphysical
      have hopen := openAs_contents hleaf LeafReader.doubles? "f64" fun _ => rfl
      simp only [hopen]
      rfl
    | int32 =>
      cases hphysical
      have hopen := openAs_contents hleaf LeafReader.integers? "i32" fun _ => rfl
      simp only [hopen]
      rfl
    | byteArray =>
      cases hphysical
      have hopen := openAs_contents hleaf LeafReader.texts? "alloc::sync::Arc<str>" fun _ => rfl
      simp only [hopen]
      rfl
    | boolean | int64 | float | fixedLenByteArray => cases hphysical

/-- The table over the library that hands out what is stored is the table of the file. -/
theorem toTableBy_contents (t : FileTable) : t.toTableBy t.contents = t.toTable :=
  congrArg t.tableOf (funext t.columnBy_contents)

/-! ## Any library -/

theorem segmentsFrom_sized {ρ α : Type} (t : FileTable) (opened : Nat → Except Failure ρ)
    (reader : RecordReader ρ α) : (t.segmentsFrom opened reader).Sized t.rowGroupSizes where
  count := rfl
  size := segmentsFrom_size

theorem segmentsFrom_fails_only {ρ α : Type} {opened : Nat → Except Failure ρ}
    (hopened : ∀ segment < t.rowGroupSizes.length, ∀ e, opened segment = .error e → e.isStoreFault = true)
    (reader : RecordReader ρ α) :
    (t.segmentsFrom opened reader).FailsOnly (·.isStoreFault = true) t.rows where
  sized := ⟨t.rowGroupSizes, t.segmentsFrom_sized opened reader, rfl⟩
  decoder {segment e} hsegment he := by
    cases hrecords : opened segment with
    | ok records =>
      simp [segmentsFrom, hrecords, Except.map] at he
    | error e' =>
      simp only [segmentsFrom, hrecords, Except.map] at he
      cases he
      exact hopened segment hsegment _ hrecords
  skip := RowGroupDecoder.isStoreFault_of_skip
  next := RowGroupDecoder.isStoreFault_of_next

/-- Where the reader is one for the wanted values whenever there is one, only the library can fail. -/
theorem isStoreFault_of_openAs {σ : Type} {wanted? : LeafReader ρ → Option σ} {typeName : String}
    {column segment : Nat} {e : Failure}
    (hwanted : ∀ reader, library.openLeaf column segment = .ok reader → ∃ records, wanted? reader = some records)
    (he : library.openAs wanted? typeName column segment = .error e) : e.isStoreFault = true := by
  unfold Library.openAs at he
  cases hopen : library.openLeaf column segment with
  | error problem =>
    simp only [hopen] at he
    cases he
    cases problem <;> rfl
  | ok reader =>
    obtain ⟨records, hrecords⟩ := hwanted reader hopen
    simp only [hopen, hrecords] at he
    cases he

/-- The reader of a leaf is one for the values that its column is asked for. -/
theorem columnBy_fails_only (h : library.Follows t) {position : Nat} {columnType : ColumnType}
    (htype : t.columnType position = .ok columnType) :
    ∃ column, t.columnBy library position = .ok column ∧ column.columnType = columnType ∧
      column.FailsOnly (·.isStoreFault = true) t.rows := by
  obtain ⟨leaf, hleaf, -, hphysical⟩ := columnType_eq_ok.mp htype
  have hreader := fun segment hsegment reader => h position segment leaf reader hleaf hsegment
  obtain ⟨name, type, repeated⟩ := leaf
  unfold columnBy
  rw [htype]
  cases type with
  | double =>
    cases hphysical
    exact ⟨_, rfl, rfl, .float64 (segmentsFrom_fails_only (fun segment hsegment _ =>
      isStoreFault_of_openAs fun reader hopen =>
        LeafReader.exists_doubles (hreader segment hsegment reader hopen)) _)⟩
  | int32 =>
    cases hphysical
    exact ⟨_, rfl, rfl, .int32 (segmentsFrom_fails_only (fun segment hsegment _ =>
      isStoreFault_of_openAs fun reader hopen =>
        LeafReader.exists_integers (hreader segment hsegment reader hopen)) _)⟩
  | byteArray =>
    cases hphysical
    exact ⟨_, rfl, rfl, .utf8 (segmentsFrom_fails_only (fun segment hsegment _ =>
      isStoreFault_of_openAs fun reader hopen =>
        LeafReader.exists_texts (hreader segment hsegment reader hopen)) _)⟩
  | boolean | int64 | float | fixedLenByteArray => cases hphysical

theorem namedType_tableOf {δ : Type → Type} (t : FileTable) (column : Nat → Except Failure (Column δ))
    (position : Nat) : (t.tableOf column).namedType position = t.columnType position :=
  t.namedType_eq position

/-- A table over a library fails with faults of the store only. -/
theorem toTableBy_fails_only (h : library.Follows t) :
    (t.toTableBy library).FailsOnly (·.isStoreFault = true) where
  column htype := columnBy_fails_only h (t.namedType_tableOf _ _ ▸ htype)

end FileTable

end Parquet

end Pushdown
