import RowFilter.Batch

/-!
# Looking up fields and columns by name

A field of an expression is a name with the type that is expected. `Schema.Declares` says that a
schema has it, `Schema.fault?` what is reported if not. In a batch whose schema declares the field,
the column of that name is there, has the field's type and as many rows as the batch
(`Batch.columnNamed?_of_find?`, from the invariant of batches).
-/

namespace RowFilter

namespace Schema

/-- A name is found where its position says. -/
theorem find?_eq_bind_index? (s : Schema) (name : String) :
    s.find? name = (s.index? name).bind (s.fields[·]?) := by
  rw [find?, index?]
  induction s.fields with
  | nil => rfl
  | cons f fields ih =>
    rw [List.find?_cons, List.findIdx?_cons]
    cases f.name == name with
    | true => rfl
    | false =>
      simp only [ih]
      cases List.findIdx? (·.name == name) fields with
      | none => rfl
      | some i => rfl

/-- No two fields share a name, so the position of a name is that of any field of the name. -/
theorem index?_eq_some_iff {s : Schema} {name : String} {slot : Nat} :
    s.index? name = some slot ↔ ∃ f, s.fields[slot]? = some f ∧ f.name = name := by
  rw [index?, List.findIdx?_eq_some_iff_getElem]
  constructor
  · rintro ⟨hlt, hname, -⟩
    exact ⟨s.fields[slot], List.getElem?_eq_getElem hlt, by simpa using hname⟩
  · rintro ⟨f, hf, hname⟩
    obtain ⟨hlt, rfl⟩ := List.getElem?_eq_some_iff.mp hf
    refine ⟨hlt, by simpa using hname, fun j hj => ?_⟩
    have hne := List.pairwise_iff_getElem.mp (List.pairwise_map.mp s.namesDistinct) j slot
      (Nat.lt_trans hj hlt) hlt hj
    rw [hname] at hne
    simpa using hne

/-- The schema has a field of the same name and type. -/
def Declares (s : Schema) (f : Field) : Prop :=
  ∃ declared, s.find? f.name = some declared ∧ declared.type = f.type

/-- No two fields share a name, so the field that is found is any field of the name. -/
theorem find?_eq_some_iff {s : Schema} {name : String} {f : Field} :
    s.find? name = some f ↔ f ∈ s.fields ∧ f.name = name := by
  rw [find?_eq_bind_index?, Option.bind_eq_some_iff]
  constructor
  · rintro ⟨slot, hslot, hf⟩
    obtain ⟨g, hg, hname⟩ := index?_eq_some_iff.mp hslot
    rw [hf, Option.some_inj] at hg
    exact ⟨List.mem_of_getElem? hf, hg ▸ hname⟩
  · rintro ⟨hmem, hname⟩
    obtain ⟨slot, hslot⟩ := List.getElem?_of_mem hmem
    exact ⟨slot, index?_eq_some_iff.mpr ⟨f, hslot, hname⟩, hslot⟩

/-- A field is not found if no field has its name. -/
theorem find?_eq_none_iff {s : Schema} {name : String} :
    s.find? name = none ↔ ∀ f ∈ s.fields, f.name ≠ name := by
  rw [find?, List.find?_eq_none]
  simp

theorem declares_iff_mem {s : Schema} {f : Field} :
    s.Declares f ↔ ∃ declared ∈ s.fields, declared.name = f.name ∧ declared.type = f.type := by
  simp only [Declares, find?_eq_some_iff, and_assoc]

/-- What is wrong with a reference to a field: its name is not there, or has another type. -/
def fault? (s : Schema) (scope : FieldScope) (f : Field) : Option Error :=
  match s.find? f.name with
  | none => some (.unknownField f.name scope s.fields)
  | some declared =>
    if f.type = declared.type then none else some (.fieldTypeDiffers f declared.type)

theorem fault?_eq_none_iff {s : Schema} {scope : FieldScope} {f : Field} :
    s.fault? scope f = none ↔ s.Declares f := by
  rw [fault?, Declares]
  cases s.find? f.name with
  | none => simp
  | some declared =>
    by_cases h : f.type = declared.type
    · simp [h]
    · simp [h, Ne.symm h]

/-- A name that is there is reported with the type that it has. -/
theorem fault?_eq_some_iff {s : Schema} {scope : FieldScope} {f : Field} {e : Error} :
    s.fault? scope f = some e ↔
      ((∀ declared ∈ s.fields, declared.name ≠ f.name) ∧ e = .unknownField f.name scope s.fields) ∨
        ∃ declared ∈ s.fields, declared.name = f.name ∧ declared.type ≠ f.type ∧
          e = .fieldTypeDiffers f declared.type := by
  rw [fault?]
  cases hfind : s.find? f.name with
  | none =>
    have hnone := find?_eq_none_iff.mp hfind
    constructor
    · intro h
      cases h
      exact Or.inl ⟨hnone, rfl⟩
    · rintro (⟨-, rfl⟩ | ⟨declared, hmem, hname, -⟩)
      · rfl
      · exact absurd hname (hnone declared hmem)
  | some declared =>
    obtain ⟨hmem, hname⟩ := find?_eq_some_iff.mp hfind
    constructor
    · intro h
      by_cases htype : f.type = declared.type
      · simp only [htype, if_true, reduceCtorEq] at h
      · simp only [htype, if_false, Option.some_inj] at h
        exact Or.inr ⟨declared, hmem, hname, Ne.symm htype, h.symm⟩
    · rintro (⟨hnone, -⟩ | ⟨declared', hmem', hname', htype, rfl⟩)
      · exact absurd hname (hnone declared hmem)
      · -- the two declared fields are one, because they have one name
        have hsame := find?_eq_some_iff.mpr ⟨hmem', hname'⟩
        rw [hfind, Option.some_inj] at hsame
        subst hsame
        simp only [Ne.symm htype, if_false]

theorem findSome?_fault?_eq_none_iff {s : Schema} {scope : FieldScope} {fields : List Field} :
    fields.findSome? (s.fault? scope) = none ↔ ∀ f ∈ fields, s.Declares f := by
  rw [List.findSome?_eq_none_iff]
  simp only [fault?_eq_none_iff]

/-- The kind of a fault depends neither on where the field was looked up nor on whether it may be
null. -/
theorem kind_fault?_congr {s : Schema} {f g : Field} (scope scope' : FieldScope)
    (hname : f.name = g.name) (htype : f.type = g.type) :
    (s.fault? scope f).map Error.kind = (s.fault? scope' g).map Error.kind := by
  rw [fault?, fault?, hname, htype]
  cases s.find? g.name with
  | none => rfl
  | some declared =>
    by_cases h : g.type = declared.type
    · simp [h]
    · simp [h, Error.kind]

/-- A fault is of one of two kinds, and the name decides of which. -/
theorem kind_of_fault?_eq_some {s : Schema} {scope : FieldScope} {f : Field} {e : Error}
    (h : s.fault? scope f = some e) :
    e.kind = if s.find? f.name = none then .unknownField else .schemaMismatch := by
  rw [fault?] at h
  cases hfind : s.find? f.name with
  | none =>
    rw [hfind] at h
    cases h
    rfl
  | some declared =>
    rw [hfind] at h
    by_cases ht : f.type = declared.type
    · simp [ht] at h
    · simp only [ht, if_false, Option.some.injEq] at h
      subst h
      rfl

/-- Whatever is reported of several fields is of one of these two kinds. -/
theorem kind_of_findSome?_fault? {s : Schema} {scope : FieldScope} {fields : List Field} {e : Error}
    (h : fields.findSome? (s.fault? scope) = some e) :
    e.kind = .unknownField ∨ e.kind = .schemaMismatch := by
  obtain ⟨f, -, hf⟩ := List.exists_of_findSome?_eq_some h
  rw [kind_of_fault?_eq_some hf]
  split
  next => exact Or.inl rfl
  next => exact Or.inr rfl

end Schema

namespace Batch

/-- Fields and columns go together by position. -/
theorem fits_of_getElem? {b : Batch} {slot : Nat} {f : Field} {c : Column}
    (hfield : b.schema.fields[slot]? = some f) (hcolumn : b.columns[slot]? = some c) :
    Fits b.rows f c := by
  refine b.consistent.fits (f, c) (List.mem_of_getElem? (i := slot) ?_)
  rw [List.getElem?_zip_eq_some]
  exact ⟨hfield, hcolumn⟩

/-- Where a field stands there is a column, and it agrees with the field. -/
theorem exists_column_of_index? {b : Batch} {name : String} {slot : Nat} {f : Field}
    (hslot : b.schema.index? name = some slot) (hfield : b.schema.fields[slot]? = some f) :
    ∃ c, b.columns[slot]? = some c ∧ b.columnNamed? name = some c ∧ Fits b.rows f c := by
  have hlt : slot < b.columns.length := by
    rw [b.consistent.count]
    exact (List.getElem?_eq_some_iff.mp hfield).1
  have hcolumn : b.columns[slot]? = some b.columns[slot] := List.getElem?_eq_getElem hlt
  refine ⟨b.columns[slot], hcolumn, ?_, fits_of_getElem? hfield hcolumn⟩
  rw [columnNamed?, hslot]
  exact hcolumn

/-- The column of a declared field is there and agrees with the declaration. -/
theorem columnNamed?_of_find? {b : Batch} {name : String} {declared : Field}
    (h : b.schema.find? name = some declared) :
    ∃ c, b.columnNamed? name = some c ∧ Fits b.rows declared c := by
  rw [Schema.find?_eq_bind_index?, Option.bind_eq_some_iff] at h
  obtain ⟨slot, hslot, hfield⟩ := h
  obtain ⟨c, -, hnamed, fits⟩ := exists_column_of_index? hslot hfield
  exact ⟨c, hnamed, fits⟩

/-- The column of a name is the one that goes with the field of the name. -/
theorem columnNamed?_eq_some_iff {b : Batch} {name : String} {c : Column} :
    b.columnNamed? name = some c ↔
      ∃ f : Field, f.name = name ∧ (f, c) ∈ b.schema.fields.zip b.columns := by
  rw [columnNamed?, Option.bind_eq_some_iff]
  constructor
  · rintro ⟨slot, hslot, hc⟩
    obtain ⟨f, hf, hname⟩ := Schema.index?_eq_some_iff.mp hslot
    exact ⟨f, hname, List.mem_of_getElem? (List.getElem?_zip_eq_some.mpr ⟨hf, hc⟩)⟩
  · rintro ⟨f, hname, hmem⟩
    obtain ⟨slot, hslot⟩ := List.getElem?_of_mem hmem
    obtain ⟨hf, hc⟩ := List.getElem?_zip_eq_some.mp hslot
    exact ⟨slot, Schema.index?_eq_some_iff.mpr ⟨f, hf, hname⟩, hc⟩

/-- Every column has a cell in every row. -/
theorem length_of_mem_columns {b : Batch} {c : Column} (h : c ∈ b.columns) : c.length = b.rows := by
  obtain ⟨slot, hslot, rfl⟩ := List.mem_iff_getElem.mp h
  have hfield : slot < b.schema.fields.length := b.consistent.count ▸ hslot
  exact (fits_of_getElem? (List.getElem?_eq_getElem hfield) (List.getElem?_eq_getElem hslot)).length

/-- The column of a field's name, of which there is one if the schema declares the field. -/
def columnOf (b : Batch) (f : Field) : Column := (b.columnNamed? f.name).getD default

/-- A declared field has a column of its type with a cell in every row. -/
theorem columnOf_of_declares {b : Batch} {f : Field} (h : b.schema.Declares f) :
    b.columnNamed? f.name = some (b.columnOf f) ∧ (b.columnOf f).type = f.type ∧
      (b.columnOf f).length = b.rows := by
  obtain ⟨declared, hfind, htype⟩ := h
  obtain ⟨c, hc, fits⟩ := columnNamed?_of_find? hfind
  rw [columnOf, hc]
  exact ⟨rfl, fits.type.trans htype, fits.length⟩

/-- A field is declared if there is a column of its name and type. -/
theorem declares_iff {b : Batch} {f : Field} :
    b.schema.Declares f ↔ ∃ c, b.columnNamed? f.name = some c ∧ c.type = f.type := by
  constructor
  · intro h
    obtain ⟨hnamed, htype, -⟩ := columnOf_of_declares h
    exact ⟨b.columnOf f, hnamed, htype⟩
  · rintro ⟨c, hc, htype⟩
    rw [columnNamed?, Option.bind_eq_some_iff] at hc
    obtain ⟨slot, hslot, hc⟩ := hc
    obtain ⟨g, hg, -⟩ := Schema.index?_eq_some_iff.mp hslot
    refine ⟨g, ?_, (fits_of_getElem? hg hc).type.symm.trans htype⟩
    rw [Schema.find?_eq_bind_index?, hslot]
    exact hg

end Batch

end RowFilter
