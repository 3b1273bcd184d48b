-- SUMMARY: The text of a report tells everything that the report says.
import Pushdown.Command.Report
import Pushdown.Proofs.Command.Json

/-!
# Reading a report

Two reports with the same text agree in all their fields, up to projected numbers that are written alike.
-/

namespace Pushdown

namespace Command

open Json

/-- The texts of projected values. -/
def valueTexts : Values → List String
  | .float64 values => values.map Json.float
  | .int32 values => values.map fun n => Json.int n.toInt
  | .utf8 values => values.map Json.string
  | .dictionaryKeys keys => keys.map fun key => Json.nat key.toNat

theorem valuesText_eq (values : Values) : valuesText values = Json.array (valueTexts values) := by
  cases values <;> rfl

@[simp] theorem value_valuesText (values : Values) : Value (valuesText values).toList := by
  cases values <;> simp [valuesText]

theorem valuesText_inj {values values' : Values} (h : valuesText values = valuesText values') :
    valueTexts values = valueTexts values' := by
  have hvalues (values : Values) : ∀ text ∈ valueTexts values, Value text.toList := by
    cases values <;> simp [valueTexts]
  rw [valuesText_eq, valuesText_eq] at h
  exact array_inj (hvalues values) (hvalues values') h

/-- Integers, texts and keys are told by their texts. -/
theorem valueTexts_injective :
    (Function.Injective fun values => valueTexts (.int32 values)) ∧
      (Function.Injective fun values => valueTexts (.utf8 values)) ∧
      Function.Injective fun keys => valueTexts (.dictionaryKeys keys) := by
  refine ⟨List.map_injective_iff.mpr fun n n' h => ?_, List.map_injective_iff.mpr string_injective,
    List.map_injective_iff.mpr fun key key' h => ?_⟩
  · exact Int32.toInt_inj.mp (int_injective h)
  · exact UInt32.toNat_inj.mp (nat_injective h)

/-- What the text of an entry tells. -/
def ProjectionEntry.shown (e : ProjectionEntry) : Nat × String × List String :=
  (e.column, e.name, valueTexts e.values)

@[simp] theorem NarrowingEntry.value_text (e : NarrowingEntry) : Value e.text.toList :=
  value_object (by simp)

@[simp] theorem ProjectionEntry.value_text (e : ProjectionEntry) : Value e.text.toList :=
  value_object (by simp)

@[simp] theorem ColumnEntry.value_text (e : ColumnEntry) : Value e.text.toList :=
  value_object (by simp)

theorem NarrowingEntry.text_injective : Function.Injective text := by
  intro e e' h
  have hfields := object_inj (by simp) (by simp) h
  simp only [List.cons.injEq, Prod.mk.injEq, true_and, and_true, nat_injective.eq_iff, string_injective.eq_iff,
    bool_injective.eq_iff] at hfields
  obtain ⟨hcolumn, hname, hop, hoperand, hcandidates, hskipped⟩ := hfields
  cases e
  cases e'
  simp_all

theorem ColumnEntry.text_injective : Function.Injective text := by
  intro e e' h
  have hfields := object_inj (by simp) (by simp) h
  simp only [List.cons.injEq, Prod.mk.injEq, true_and, and_true, nat_injective.eq_iff,
    string_injective.eq_iff] at hfields
  obtain ⟨hcolumn, hname, htype, hsegments⟩ := hfields
  have hsizes := List.map_injective_iff.mpr nat_injective (array_map_inj value_nat hsegments)
  cases e
  cases e'
  simp_all

theorem ProjectionEntry.text_eq_iff {e e' : ProjectionEntry} : e.text = e'.text ↔ e.shown = e'.shown := by
  constructor
  · intro h
    have hfields := object_inj (by simp) (by simp) h
    simp only [List.cons.injEq, Prod.mk.injEq, true_and, and_true, nat_injective.eq_iff,
      string_injective.eq_iff] at hfields
    obtain ⟨hcolumn, hname, hvalues⟩ := hfields
    rw [shown, shown, hcolumn, hname, valuesText_inj hvalues]
  · intro h
    simp only [shown, Prod.mk.injEq] at h
    rw [text, text, valuesText_eq, valuesText_eq, h.1, h.2.1, h.2.2]

/-- Reports on a query have the same text exactly if they agree in all fields, up to numbers that are written
    alike. -/
theorem QueryReport.text_eq_iff {r r' : QueryReport} :
    r.text = r'.text ↔ r.input = r'.input ∧ r.backing = r'.backing ∧ r.totalRows = r'.totalRows ∧
      r.matchedRows = r'.matchedRows ∧ r.narrowings = r'.narrowings ∧
      r.columns.map ProjectionEntry.shown = r'.columns.map ProjectionEntry.shown := by
  have hcolumns : r.columns.map ProjectionEntry.text = r'.columns.map ProjectionEntry.text ↔
      r.columns.map ProjectionEntry.shown = r'.columns.map ProjectionEntry.shown := by
    rw [← List.forall₂_eq_eq_eq, ← List.forall₂_eq_eq_eq, List.forall₂_map_left_iff, List.forall₂_map_right_iff,
      List.forall₂_map_left_iff, List.forall₂_map_right_iff]
    simp only [ProjectionEntry.text_eq_iff]
  constructor
  · intro h
    have hfields := object_inj (by simp) (by simp) h
    simp only [List.cons.injEq, Prod.mk.injEq, true_and, and_true, nat_injective.eq_iff,
      string_injective.eq_iff] at hfields
    obtain ⟨hinput, hbacking, htotal, hmatched, hnarrowings, hprojections⟩ := hfields
    exact ⟨hinput, hbacking, htotal, hmatched,
      List.map_injective_iff.mpr NarrowingEntry.text_injective (array_map_inj NarrowingEntry.value_text hnarrowings),
      hcolumns.mp (array_map_inj ProjectionEntry.value_text hprojections)⟩
  · rintro ⟨hinput, hbacking, htotal, hmatched, hnarrowings, hprojections⟩
    rw [text, text, hinput, hbacking, htotal, hmatched, hnarrowings, hcolumns.mpr hprojections]

/-- The text of a report on a table tells the whole report. -/
theorem TableReport.text_injective : Function.Injective text := by
  intro r r' h
  have hfields := object_inj (by simp) (by simp) h
  simp only [List.cons.injEq, Prod.mk.injEq, true_and, and_true, nat_injective.eq_iff,
    string_injective.eq_iff] at hfields
  obtain ⟨hinput, hbacking, hrows, hentries⟩ := hfields
  have hcolumns := List.map_injective_iff.mpr ColumnEntry.text_injective
    (array_map_inj ColumnEntry.value_text hentries)
  cases r
  cases r'
  simp_all

end Command

end Pushdown
