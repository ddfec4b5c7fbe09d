import RowFilter.Batch
import RowFilter.Proofs.Column.Values

/-!
# Making batches

`Batch.make` makes the batch that has the given parts (`make_eq_ok_iff`), if they are consistent
(`exists_make_iff`). What that takes is put slot by slot (`consistent_iff`) and in terms of the
values of a column (`fits_iff_values`).
-/

namespace RowFilter

/-! ## Nulls -/

namespace Column

theorem countP_isNone_eq_zero_iff {α : Type} {tag : α → Value} (htag : ∀ a, tag a ≠ .null)
    {cells : Array (Option α)} :
    cells.countP Option.isNone = 0 ↔ .null ∉ cells.toList.map (cellValue tag) := by
  rw [Array.countP_eq_zero, List.mem_map]
  constructor
  · intro h ⟨cell, hmem, hcell⟩
    cases cell with
    | none => exact h none (Array.mem_toList_iff.mp hmem) rfl
    | some a => exact htag a hcell
  · intro h cell hmem hnone
    rw [Option.isNone_iff_eq_none] at hnone
    exact h ⟨cell, Array.mem_toList_iff.mpr hmem, hnone ▸ rfl⟩

/-- The count of nulls tells whether there is one among the values. -/
theorem nullCount_eq_zero_iff {c : Column} : c.nullCount = 0 ↔ .null ∉ c.values := by
  cases c with
  | bool cells => exact countP_isNone_eq_zero_iff nofun
  | int64 cells => exact countP_isNone_eq_zero_iff nofun
  | float64 cells => exact countP_isNone_eq_zero_iff nofun

end Column

namespace Batch

/-! ## Consistency -/

variable {schema : Schema} {rows : Nat} {columns : List Column}

theorem consistent_iff {fields : List Field} :
    Consistent fields rows columns ↔ columns.length = fields.length ∧
      ∀ (slot : Nat) (f : Field) (c : Column),
        fields[slot]? = some f → columns[slot]? = some c → Fits rows f c := by
  constructor
  · intro ⟨count, fits⟩
    refine ⟨count, fun slot f c hf hc => ?_⟩
    exact fits (f, c) (List.mem_of_getElem? (List.getElem?_zip_eq_some.mpr ⟨hf, hc⟩))
  · intro ⟨count, fits⟩
    refine ⟨count, fun p hmem => ?_⟩
    obtain ⟨slot, hslot⟩ := List.getElem?_of_mem hmem
    obtain ⟨hf, hc⟩ := List.getElem?_zip_eq_some.mp hslot
    exact fits slot p.1 p.2 hf hc

theorem fits_iff_values {f : Field} {c : Column} :
    Fits rows f c ↔
      c.type = f.type ∧ c.length = rows ∧ (f.nullable = false → .null ∉ c.values) := by
  rw [← Column.nullCount_eq_zero_iff]
  constructor
  · intro h
    exact ⟨h.type, h.length, h.nulls⟩
  · intro h
    exact ⟨h.1, h.2.1, h.2.2⟩

/-! ## Batches of columns -/

theorem make_of_consistent
    (h : Consistent schema.fields rows columns) :
    make schema rows columns = .ok ⟨schema, rows, columns, h⟩ := by
  rw [make]
  split
  next e he =>
    rw [firstFault_eq_none_iff.mpr h] at he
    cases he
  next => rfl

/-- A batch is known by its schema, its row count and its columns. -/
theorem make_eq_ok_iff {b : Batch} :
    make schema rows columns = .ok b ↔
      b.schema = schema ∧ b.rows = rows ∧ b.columns = columns := by
  constructor
  · intro h
    rw [make] at h
    split at h
    next => cases h
    next =>
      cases h
      exact ⟨rfl, rfl, rfl⟩
  · intro h
    obtain ⟨rfl, rfl, rfl⟩ := h
    exact make_of_consistent b.consistent

theorem make_eq_error_iff {e : Error} :
    make schema rows columns = .error e ↔ firstFault schema.fields rows columns = some e := by
  rw [make]
  split
  next e' hfault => rw [hfault, Except.error.injEq, Option.some_inj]
  next hnone =>
    constructor
    · intro h
      cases h
    · intro h
      rw [hnone] at h
      cases h

theorem kind_of_fault?_eq_some {f : Field} {c : Column} {e : Error} (h : fault? rows f c = some e) :
    e.kind = .schemaMismatch := by
  unfold fault? at h
  split at h
  next =>
    cases h
    rfl
  next =>
    split at h
    next =>
      cases h
      rfl
    next =>
      split at h
      next =>
        cases h
        rfl
      next => cases h

/-- Whatever is inconsistent, it is the columns that do not go with the schema. -/
theorem kind_of_firstFault_eq_some {fields : List Field} {e : Error}
    (h : firstFault fields rows columns = some e) : e.kind = .schemaMismatch := by
  unfold firstFault at h
  split at h
  next =>
    cases h
    rfl
  next =>
    obtain ⟨p, -, hfault⟩ := List.exists_of_findSome?_eq_some h
    exact kind_of_fault?_eq_some hfault

/-- Parts make a batch just if they are consistent. -/
theorem exists_make_iff :
    (∃ b, make schema rows columns = .ok b) ↔ Consistent schema.fields rows columns := by
  simp only [make_eq_ok_iff]
  constructor
  · intro ⟨b, hschema, hrows, hcolumns⟩
    subst hschema hrows hcolumns
    exact b.consistent
  · intro h
    exact ⟨⟨schema, rows, columns, h⟩, rfl, rfl, rfl⟩

end Batch

end RowFilter
