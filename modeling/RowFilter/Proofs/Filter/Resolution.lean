import RowFilter.Filter
import RowFilter.Proofs.Filter.Binding

/-!
# Two ways to the columns of a filter

A filter finds its columns by the positions it has noted, if the batch has the filter's own schema,
and by name otherwise. `resolve_eq` says that the two ways agree: the first field of the condition
that the batch does not declare is reported, and if there is none, each field gets the column of
its name. `make_eq` says the same of making a filter: it is `Filter.bound`, unless the schema does
not declare some field.
-/

namespace RowFilter

namespace Schema

/-- The position of a field's name, which there is if the schema declares the field. -/
def slotOf (s : Schema) (f : Field) : Nat := (s.index? f.name).getD 0

theorem index?_of_declares {s : Schema} {f : Field} (h : s.Declares f) :
    s.index? f.name = some (s.slotOf f) := by
  obtain ⟨declared, hfind, -⟩ := h
  rw [find?_eq_bind_index?, Option.bind_eq_some_iff] at hfind
  obtain ⟨slot, hslot, -⟩ := hfind
  rw [slotOf, hslot]
  rfl

end Schema

namespace Filter

theorem slotIn_of_declares {s : Schema} {f : Field} (scope : FieldScope) (h : s.Declares f) :
    slotIn s scope f = .ok (s.slotOf f) := by
  rw [slotIn, Schema.index?_of_declares h]

/-- The position of a declared field leads to the column of its name. -/
theorem columnAt_slotOf {batch : Batch} {f : Field} (h : batch.schema.Declares f) :
    columnAt batch (batch.schema.slotOf f) = .ok (batch.columnOf f) := by
  have hcolumn := (Batch.columnOf_of_declares h).1
  rw [Batch.columnNamed?, Schema.index?_of_declares h] at hcolumn
  have hslot : batch.column? (batch.schema.slotOf f) = some (batch.columnOf f) := hcolumn
  rw [columnAt, hslot]

theorem columnFor_of_index?_eq_none {batch : Batch} {f : Field}
    (h : batch.schema.index? f.name = none) :
    columnFor batch f = .error (.unknownField f.name .batch batch.schema.fields) := by
  rw [columnFor, slotIn, h]
  rfl

/-- A field whose name is there is checked before its column is taken. -/
theorem columnFor_of_index?_eq_some {batch : Batch} {f declared : Field} {slot : Nat}
    (hslot : batch.schema.index? f.name = some slot)
    (hfield : batch.schema.fields[slot]? = some declared) :
    columnFor batch f =
      if f.type = declared.type then columnAt batch slot
      else .error (.fieldTypeDiffers f declared.type) := by
  have hfound : slotIn batch.schema .batch f = .ok slot := by
    rw [slotIn, hslot]
  -- the position is that of a declared field, so the type is checked first
  have hcheck : columnFor batch f =
      (Bound.checkType f declared.type >>= fun _ => columnAt batch slot) := by
    rw [columnFor, hfound, ok_bind, hfield]
  rw [hcheck, Bound.checkType]
  split
  next => rfl
  next => rfl

/-- A field is looked up by name, unless the batch does not declare it. -/
theorem columnFor_eq (batch : Batch) (f : Field) :
    columnFor batch f = unlessFault (batch.schema.fault? .batch f) (batch.columnOf f) := by
  rw [Schema.fault?]
  cases hfind : batch.schema.find? f.name with
  | none =>
    have hslot : batch.schema.index? f.name = none := by
      rw [Schema.index?, List.findIdx?_eq_none_iff]
      intro g hg
      simpa using List.find?_eq_none.mp hfind g hg
    rw [columnFor_of_index?_eq_none hslot]
    rfl
  | some declared =>
    rw [Schema.find?_eq_bind_index?, Option.bind_eq_some_iff] at hfind
    obtain ⟨slot, hslot, hfield⟩ := hfind
    rw [columnFor_of_index?_eq_some hslot hfield]
    by_cases htype : f.type = declared.type
    · have hdecl : batch.schema.Declares f := by
        refine ⟨declared, ?_, htype.symm⟩
        rw [Schema.find?_eq_bind_index?, hslot]
        exact hfield
      have hsame : slot = batch.schema.slotOf f := by rw [Schema.slotOf, hslot]; rfl
      simp only [htype, if_true]
      rw [hsame, columnAt_slotOf hdecl]
      rfl
    · simp only [htype, if_false]
      rfl

/-! ## Lists of fields -/

/-- The positions of declared fields are found. -/
theorem mapM_slotIn {s : Schema} (scope : FieldScope) {fields : List Field}
    (h : ∀ f ∈ fields, s.Declares f) :
    fields.mapM (slotIn s scope) = .ok (fields.map s.slotOf) :=
  mapM_eq_ok fun f hf => slotIn_of_declares scope (h f hf)

/-- The positions of declared fields lead to the columns of their names. -/
theorem mapM_columnAt {batch : Batch} {fields : List Field}
    (h : ∀ f ∈ fields, batch.schema.Declares f) :
    (fields.map batch.schema.slotOf).mapM (columnAt batch) = .ok (fields.map batch.columnOf) := by
  rw [List.mapM_map]
  exact mapM_eq_ok fun f hf => columnAt_slotOf (h f hf)

/-- Looking fields up by name stops at the first one that the batch does not declare. -/
theorem mapM_columnFor (batch : Batch) (fields : List Field) :
    fields.mapM (columnFor batch) =
      unlessFault (fields.findSome? (batch.schema.fault? .batch)) (fields.map batch.columnOf) :=
  mapM_eq_unlessFault fun f _ => columnFor_eq batch f

/-! ## Filters -/

/-- The filter of a condition whose fields the schema declares. -/
def bound (schema : Schema) (c : Condition) : Filter where
  schema := schema
  condition := c
  inputs := c.root.fields
  slots := c.root.fields.map schema.slotOf
  expr := (Bound.place c.root []).1

/-- The schema that an expression is bound to declares its fields. -/
theorem declares_of_mem_fields {schema : Schema} {e : Expr} (h : Bound.fault? schema e = none)
    {f : Field} (hf : f ∈ e.fields) : schema.Declares f :=
  Bound.declares_of_fault?_eq_none h f (Expr.mem_leaves_of_mem_fields hf)

theorem make_eq (schema : Schema) (c : Condition) :
    make schema c = unlessFault (Bound.fault? schema c.root) (bound schema c) := by
  rw [make, Bound.bind_eq, unlessFault_bind]
  cases hfault : Bound.fault? schema c.root with
  | some e => rfl
  | none =>
    show (((Bound.place c.root []).2.mapM (slotIn schema .filter)) >>= _) = _
    rw [Bound.place_inputs_nil, mapM_slotIn .filter fun f hf => declares_of_mem_fields hfault hf]
    rfl

theorem make_eq_ok_iff {schema : Schema} {c : Condition} {f : Filter} :
    make schema c = .ok f ↔ Bound.fault? schema c.root = none ∧ bound schema c = f := by
  rw [make_eq, unlessFault_eq_ok_iff]

/-- Both ways lead to the columns of the fields' names, unless the batch does not declare one of
the fields. -/
theorem resolve_eq {schema : Schema} {c : Condition} (h : Bound.fault? schema c.root = none)
    (batch : Batch) :
    (bound schema c).resolve batch =
      unlessFault (c.root.fields.findSome? (batch.schema.fault? .batch))
        (c.root.fields.map batch.columnOf) := by
  rw [resolve]
  split
  next hsame =>
    -- nothing can be missing from the schema of the filter itself
    have hsame : batch.schema = schema := hsame
    have hall : ∀ f ∈ c.root.fields, batch.schema.Declares f := fun f hf =>
      hsame ▸ declares_of_mem_fields h hf
    show (c.root.fields.map schema.slotOf).mapM (columnAt batch) = _
    rw [← hsame, mapM_columnAt hall, Schema.findSome?_fault?_eq_none_iff.mpr hall]
    rfl
  next => exact mapM_columnFor batch c.root.fields

theorem resolve_eq_ok_iff {schema : Schema} {c : Condition} {batch : Batch} {columns : List Column}
    (h : Bound.fault? schema c.root = none) :
    (bound schema c).resolve batch = .ok columns ↔
      (∀ f ∈ c.root.fields, batch.schema.Declares f) ∧
        columns = c.root.fields.map batch.columnOf := by
  rw [resolve_eq h, unlessFault_eq_ok_iff, Schema.findSome?_fault?_eq_none_iff]
  constructor
  · intro ⟨hdecl, heq⟩
    exact ⟨hdecl, heq.symm⟩
  · intro ⟨hdecl, heq⟩
    exact ⟨hdecl, heq.symm⟩

end Filter

end RowFilter
