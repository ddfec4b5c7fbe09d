import Mathlib.Data.Set.List
import RowFilter.Proofs.Batch.Making
import RowFilter.Proofs.Column.Gather
import RowFilter.Proofs.Schema.Lookup
import RowFilter.Proofs.Schema.Making

/-!
# The two ways to make a batch

A batch is made of columns (`Batch.make`) or of arrays of the interchange format
(`Batch.ofArrays`). Either way it is made just if nothing is inconsistent: `Batch.make` makes the
batch that has the given parts, `Batch.ofArrays` the batch whose arrays are those given
(`Batch.ofArrays_eq_ok_iff`). Main result: `Batch.exchange_consistent`, which puts both in terms of
types, names, lengths and nulls.
-/

namespace RowFilter

open Interchange

/-! ## Columns as arrays -/

namespace Column

/-- An array becomes a column if it is the column's. -/
theorem ofArray_eq_ok_iff {a : ArrayData} {c : Column} : ofArray a = .ok c ↔ c.toArray = a := by
  constructor
  · intro h
    cases a <;> cases h <;> rfl
  · intro h
    rw [← h, ofArray_toArray]

theorem type_toArray (c : Column) : c.toArray.type = .ofDataType c.type := by cases c <;> rfl

theorem nullCount_toArray (c : Column) : c.toArray.nullCount = c.nullCount := by cases c <;> rfl

/-- The type of an array decides whether it is that of a column. -/
theorem exists_toArray_eq_iff {a : ArrayData} :
    (∃ c : Column, c.toArray = a) ↔ a.type ∈ [.boolean, .int64, .float64] := by
  constructor
  · intro ⟨c, hc⟩
    subst hc
    cases c <;> simp [toArray, ArrayData.type]
  · intro h
    cases a with
    | boolean cells => exact ⟨.bool cells, rfl⟩
    | int64 cells => exact ⟨.int64 cells, rfl⟩
    | float64 cells => exact ⟨.float64 cells, rfl⟩
    | null | int32 | uint16 | uint32 | uint64 | utf8 => simp [ArrayData.type] at h

end Column

/-! ## Arrays and their declarations -/

/-- Arrays and their declarations are consistent if they go together one by one. -/
theorem Interchange.Batch.isConsistent_iff {a : Interchange.Batch} :
    a.isConsistent = true ↔ a.arrays.length = a.fields.length ∧
      ∀ p ∈ a.fields.zip a.arrays, p.2.type = p.1.type ∧ p.2.length = a.rows ∧
        (p.1.nullable = false → p.2.nullCount = 0) := by
  rw [isConsistent, Bool.and_eq_true, beq_iff_eq, List.all_eq_true, eq_comm]
  simp only [Bool.and_eq_true, Bool.or_eq_true, beq_iff_eq, or_iff_not_imp_left,
    Bool.not_eq_true, and_assoc]

theorem Interchange.ArrayType.ofDataType_inj {t t' : DataType} :
    ofDataType t = ofDataType t' ↔ t = t' := by
  cases t <;> cases t' <;> decide

/-- Of the types here, just that of nulls has none of the three array types. -/
theorem Interchange.ArrayType.ofDataType_mem_iff {type : DataType} :
    ofDataType type ∈ [boolean, int64, float64] ↔ type ≠ .null := by
  cases type <;> decide

theorem Interchange.ArrayType.exists_ofDataType {t : ArrayType}
    (h : t ∈ [boolean, int64, float64]) : ∃ type, ofDataType type = t := by
  simp only [List.mem_cons, List.not_mem_nil, or_false] at h
  obtain h | h | h := h
  · exact ⟨.bool, h.symm⟩
  · exact ⟨.int64, h.symm⟩
  · exact ⟨.float64, h.symm⟩

theorem Field.exists_toArrayField {declared : List ArrayField}
    (h : ∀ f ∈ declared, f.type ∈ [.boolean, .int64, .float64]) :
    ∃ fields : List Field, fields.map toArrayField = declared := by
  rw [← Set.mem_range, Set.range_list_map]
  intro f hf
  obtain ⟨type, htype⟩ := ArrayType.exists_ofDataType (h f hf)
  exact ⟨⟨f.name, type, f.nullable⟩, by rw [toArrayField, htype]⟩

/-- Every array has a declaration, so it is of a column type if the declarations are. -/
theorem Column.exists_toArray {a : Interchange.Batch} (hconsistent : a.isConsistent = true)
    (h : ∀ f ∈ a.fields, f.type ∈ [.boolean, .int64, .float64]) :
    ∃ columns : List Column, columns.map toArray = a.arrays := by
  obtain ⟨count, agree⟩ := Interchange.Batch.isConsistent_iff.mp hconsistent
  rw [← Set.mem_range, Set.range_list_map]
  intro array harray
  obtain ⟨slot, hslot, hget⟩ := List.mem_iff_getElem.mp harray
  have hfield : slot < a.fields.length := count ▸ hslot
  have hmem : (a.fields[slot], array) ∈ a.fields.zip a.arrays := by
    refine List.mem_of_getElem? (i := slot) (List.getElem?_zip_eq_some.mpr ?_)
    exact ⟨List.getElem?_eq_getElem hfield, List.getElem?_eq_some_iff.mpr ⟨hslot, hget⟩⟩
  refine exists_toArray_eq_iff.mpr ?_
  rw [(agree _ hmem).1]
  exact h _ (List.getElem_mem hfield)

namespace Batch

variable {schema : Schema} {rows : Nat} {columns : List Column}

/-! ## Batches of arrays -/

/-- Arrays make a batch if they are those of the batch. -/
theorem ofArrays_eq_ok_iff {a : Interchange.Batch} {b : Batch} :
    ofArrays a = .ok b ↔ b.toArrays = a := by
  obtain ⟨fields, arrays, rows⟩ := a
  simp only [ofArrays, bind_eq_ok_iff, Schema.ofArrayFields_eq_ok_iff, make_eq_ok_iff,
    mapM_eq_ok_iff_map_eq fun _ _ => Column.ofArray_eq_ok_iff]
  rw [toArrays, Interchange.Batch.mk.injEq]
  constructor
  · intro ⟨schema, hfields, columns, harrays, hschema, hrows, hcolumns⟩
    rw [hschema, hcolumns]
    exact ⟨hfields, harrays, hrows⟩
  · intro ⟨hfields, harrays, hrows⟩
    exact ⟨b.schema, hfields, b.columns, harrays, rfl, hrows, rfl⟩

/-- A column goes with a field if its array goes with the declaration. -/
theorem fits_iff_toArray {f : Field} {c : Column} :
    Fits rows f c ↔ c.toArray.type = f.toArrayField.type ∧ c.toArray.length = rows ∧
      (f.toArrayField.nullable = false → c.toArray.nullCount = 0) := by
  rw [Column.type_toArray, Column.length_toArray, Column.nullCount_toArray, Field.toArrayField,
    ArrayType.ofDataType_inj]
  constructor
  · intro h
    exact ⟨h.type, h.length, h.nulls⟩
  · intro h
    exact ⟨h.1, h.2.1, h.2.2⟩

theorem isConsistent_iff_toArray {fields : List Field} :
    (⟨fields.map Field.toArrayField, columns.map Column.toArray, rows⟩ :
      Interchange.Batch).isConsistent = true ↔ Consistent fields rows columns := by
  rw [Interchange.Batch.isConsistent_iff, List.length_map, List.length_map, List.zip_map,
    List.forall_mem_map]
  simp only [Prod.map, ← fits_iff_toArray]
  constructor
  · intro h
    exact ⟨h.1, h.2⟩
  · intro h
    exact ⟨h.count, h.fits⟩

/-- The arrays of a batch are as the arrow library demands, so its constructor does not refuse
them. -/
theorem isConsistent_toArrays (b : Batch) : b.toArrays.isConsistent = true :=
  isConsistent_iff_toArray.mpr b.consistent

/-- The types and names of the declarations decide whether consistent arrays make a batch. -/
theorem exists_ofArrays_iff {a : Interchange.Batch} :
    (∃ b, ofArrays a = .ok b) ↔ a.isConsistent = true ∧
      (∀ declared ∈ a.fields, declared.type ∈ [.boolean, .int64, .float64]) ∧
        (a.fields.map (·.name)).Nodup := by
  simp only [ofArrays_eq_ok_iff]
  constructor
  · intro hmade
    obtain ⟨b, rfl⟩ := hmade
    refine ⟨isConsistent_toArrays b, ?_⟩
    rw [toArrays, Schema.toArrayFields, List.forall_mem_map, List.map_map]
    refine ⟨fun f hf => ?_, b.schema.namesDistinct⟩
    exact ArrayType.ofDataType_mem_iff.mpr
      (DataType.isColumnType_iff.mp (b.schema.columnTypes f hf))
  · intro hgiven
    obtain ⟨h, htypes, hnames⟩ := hgiven
    obtain ⟨columns, hcolumns⟩ := Column.exists_toArray h htypes
    obtain ⟨declared, arrays, rows⟩ := a
    obtain ⟨fields, hfields⟩ := Field.exists_toArrayField htypes
    subst hfields hcolumns
    rw [List.map_map] at hnames
    have hnonnull : ∀ f ∈ fields, f.type ≠ .null := fun f hf =>
      ArrayType.ofDataType_mem_iff.mp (htypes f.toArrayField (List.mem_map_of_mem hf))
    obtain ⟨schema, hschema⟩ := Schema.exists_make_eq_ok_iff.mpr ⟨hnames, hnonnull⟩
    obtain rfl := Schema.make_eq_ok_iff.mp hschema
    exact ⟨⟨schema, rows, columns, isConsistent_iff_toArray.mp h⟩, rfl⟩

/-! ## Both ways -/

/-- **Exactly the consistent parts make a batch**, and it does not matter whether they come as
columns or as arrays. Columns must go with the fields one by one; if they do, the batch has the
given parts, and the column of a field's name stands where the field does. If arrays are
consistent, only the types and names of their declarations can keep them from being a batch; it is
the batch of the columns that they become, and it gives the same arrays back. -/
theorem exchange_consistent :
    (∀ (schema : Schema) (rows : Nat) (columns : List Column),
      ((∃ b, make schema rows columns = .ok b) ↔
        columns.length = schema.fields.length ∧
          ∀ (slot : Nat) (f : Field) (c : Column),
            schema.fields[slot]? = some f → columns[slot]? = some c →
              c.type = f.type ∧ c.length = rows ∧ (f.nullable = false → .null ∉ c.values)) ∧
      (∀ e, make schema rows columns = .error e → e.kind = .schemaMismatch) ∧
      ∀ b, make schema rows columns = .ok b →
        b.schema = schema ∧ b.rows = rows ∧ b.columns = columns ∧
          ∀ f ∈ schema.fields, ∃ slot c, schema.index? f.name = some slot ∧
            columns[slot]? = some c ∧ b.columnNamed? f.name = some c) ∧
    (∀ a : Interchange.Batch,
      ((∃ b, ofArrays a = .ok b) ↔ a.isConsistent = true ∧
        (∀ declared ∈ a.fields, declared.type ∈ [.boolean, .int64, .float64]) ∧
          (a.fields.map (·.name)).Nodup) ∧
      ∀ b, ofArrays a = .ok b → b.toArrays = a ∧
        ∃ schema columns, Schema.ofArrayFields a.fields = .ok schema ∧
          a.arrays.mapM Column.ofArray = .ok columns ∧ make schema a.rows columns = .ok b) ∧
    ∀ b : Batch, b.toArrays.isConsistent = true ∧ ofArrays b.toArrays = .ok b := by
  refine ⟨fun schema rows columns => ⟨?_, fun e he => ?_, fun b hb => ?_⟩,
    fun a => ⟨exists_ofArrays_iff, fun b hb => ?_⟩,
    fun b => ⟨isConsistent_toArrays b, ofArrays_eq_ok_iff.mpr rfl⟩⟩
  · simp only [exists_make_iff, consistent_iff, fits_iff_values]
  · exact kind_of_firstFault_eq_some (make_eq_error_iff.mp he)
  · obtain ⟨rfl, rfl, rfl⟩ := make_eq_ok_iff.mp hb
    refine ⟨rfl, rfl, rfl, fun f hf => ?_⟩
    obtain ⟨slot, hslot⟩ := List.getElem?_of_mem hf
    have hindex := Schema.index?_eq_some_iff.mpr ⟨f, hslot, rfl⟩
    obtain ⟨c, hcolumn, hnamed, -⟩ := exists_column_of_index? hindex hslot
    exact ⟨slot, c, hindex, hcolumn, hnamed⟩
  · obtain ⟨schema, hschema, hrest⟩ := bind_eq_ok_iff.mp hb
    obtain ⟨columns, hcolumns, hmake⟩ := bind_eq_ok_iff.mp hrest
    exact ⟨ofArrays_eq_ok_iff.mp hb, schema, columns, hschema, hcolumns, hmake⟩

/-- Arrays with and without nulls. -/
def Sample.arrays : Interchange.Batch where
  fields := [⟨"count", .int64, false⟩, ⟨"flag", .boolean, true⟩]
  arrays := [.int64 #[some 7, some 8], .boolean #[none, some true]]
  rows := 2

theorem sample_exchange :
    ∃ b schema columns, ofArrays Sample.arrays = .ok b ∧ b.toArrays = Sample.arrays ∧
      make schema 2 columns = .ok b ∧ b.schema = schema ∧ b.columns = columns := by
  obtain ⟨columnwise, arraywise, -⟩ := exchange_consistent
  obtain ⟨accepted, agree⟩ := arraywise Sample.arrays
  obtain ⟨b, hb⟩ := accepted.mpr ⟨by decide, by decide, by decide⟩
  obtain ⟨harrays, schema, columns, -, -, hmake⟩ := agree b hb
  obtain ⟨-, -, made⟩ := columnwise schema 2 columns
  obtain ⟨hschema, -, hcolumns, -⟩ := made b hmake
  exact ⟨b, schema, columns, hb, harrays, hmake, hschema, hcolumns⟩

end Batch

end RowFilter
