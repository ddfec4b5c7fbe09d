import RowFilter.Interchange.Batch
import RowFilter.Proofs.Fault

/-!
# Making schemas

`Schema.make` looks at one field after another. It accepts just the fields of some schema
(`make_eq_ok_iff`), and otherwise reports the first field that repeats a name or has no column type
(`make_eq_error_iff_first`). Declarations of arrays become a schema if they are those of that schema
(`ofArrayFields_eq_ok_iff`), so nothing is lost on the way through the interchange format.
-/

namespace RowFilter

variable {α β ε : Type}

/-- Undoing a function element by element undoes it for the list. -/
theorem mapM_eq_ok_iff_map_eq {f : α → Except ε β} {g : β → α}
    (h : ∀ a b, f a = .ok b ↔ g b = a) {l : List α} :
    ∀ {l' : List β}, l.mapM f = .ok l' ↔ l'.map g = l := by
  induction l with
  | nil =>
    intro l'
    rw [List.mapM_nil, List.map_eq_nil_iff]
    constructor
    · intro hnil
      cases hnil
      rfl
    · intro hnil
      rw [hnil]
      rfl
  | cons a l ih =>
    intro l'
    rw [List.mapM_cons, bind_eq_ok_iff, List.map_eq_cons_iff]
    constructor
    · intro ⟨b, hb, hrest⟩
      obtain ⟨bs, hbs, hl'⟩ := bind_eq_ok_iff.mp hrest
      cases hl'
      exact ⟨b, bs, rfl, (h a b).mp hb, ih.mp hbs⟩
    · intro ⟨b, bs, hl', hb, hbs⟩
      subst hl'
      exact ⟨b, (h a b).mpr hb, bind_eq_ok_iff.mpr ⟨bs, ih.mpr hbs, rfl⟩⟩

theorem DataType.isColumnType_iff {t : DataType} : t.isColumnType = true ↔ t ≠ .null := by
  cases t with
  | null => simp [isColumnType]
  | bool | int64 | float64 => simp [isColumnType]

namespace Schema

/-! ## Fields -/

/-- The fields after others are checked against the names of those as well. -/
theorem firstFault_append {seen : List String} {fields more : List Field} :
    firstFault seen (fields ++ more) =
      (firstFault seen fields).or (firstFault ((fields.map (·.name)).reverse ++ seen) more) := by
  induction fields generalizing seen with
  | nil => rfl
  | cons f rest ih =>
    rw [List.cons_append, firstFault, firstFault, ih]
    split
    next => rfl
    next =>
      split
      next => rfl
      next => simp

/-- A single field is at fault for its name, or else for its type. -/
theorem firstFault_singleton_eq_some_iff {seen : List String} {f : Field} {e : Error} :
    firstFault seen [f] = some e ↔
      (f.name ∈ seen ∧ e = .duplicateField f.name) ∨
        (f.name ∉ seen ∧ f.type = .null ∧ e = .untypedField f) := by
  rw [firstFault, firstFault]
  by_cases hseen : f.name ∈ seen
  · simp [hseen, eq_comm]
  · cases htype : f.type with
    | null => simp [hseen, DataType.isColumnType, eq_comm]
    | bool | int64 | float64 => simp [hseen, DataType.isColumnType]

/-- The first field at fault comes after fields that are not. -/
theorem firstFault_eq_some_iff {seen : List String} {fields : List Field} {e : Error} :
    firstFault seen fields = some e ↔ ∃ earlier f later, fields = earlier ++ f :: later ∧
      firstFault seen earlier = none ∧
      firstFault ((earlier.map (·.name)).reverse ++ seen) [f] = some e := by
  constructor
  · induction fields generalizing seen with
    | nil =>
      intro h
      cases h
    | cons f rest ih =>
      intro h
      rw [← List.singleton_append, firstFault_append] at h
      cases hf : firstFault seen [f] with
      | some e' =>
        rw [hf, Option.some_or] at h
        exact ⟨[], f, rest, rfl, rfl, hf.trans h⟩
      | none =>
        rw [hf, Option.none_or] at h
        obtain ⟨earlier, g, later, hrest, hearlier, hg⟩ := ih h
        refine ⟨f :: earlier, g, later, by rw [hrest, List.cons_append], ?_, ?_⟩
        · rw [← List.singleton_append, firstFault_append, hf, Option.none_or]
          exact hearlier
        · simpa using hg
  · intro ⟨earlier, f, later, hfields, hearlier, hf⟩
    rw [hfields, firstFault_append, hearlier, Option.none_or, ← List.singleton_append,
      firstFault_append, hf, Option.some_or]

/-! ## Schemas -/

/-- A schema is known by its fields. -/
theorem eq_of_fields_eq {s s' : Schema} (h : s.fields = s'.fields) : s = s' := by
  cases s
  cases s'
  cases h
  rfl

/-- Just the fields of a schema make that schema. -/
theorem make_eq_ok_iff {fields : List Field} {s : Schema} :
    make fields = .ok s ↔ s.fields = fields := by
  rw [make]
  split
  next e hfault =>
    constructor
    · intro h
      cases h
    · intro h
      have hnone : firstFault [] s.fields = none :=
        firstFault_eq_none_iff.mpr ⟨fun _ _ => List.not_mem_nil, s.namesDistinct, s.columnTypes⟩
      rw [h, hfault] at hnone
      cases hnone
  next =>
    constructor
    · intro h
      cases h
      rfl
    · intro h
      rw [← @eq_of_fields_eq s ⟨fields, _, _⟩ h]

theorem make_eq_error_iff {fields : List Field} {e : Error} :
    make fields = .error e ↔ firstFault [] fields = some e := by
  rw [make]
  split
  next e' hfault => rw [hfault, Except.error.injEq, Option.some_inj]
  next hnone =>
    constructor
    · intro h
      cases h
    · intro h
      rw [hnone] at h
      cases h

/-- Fields make a schema if their names are distinct and none has the type of nulls. -/
theorem exists_make_eq_ok_iff {fields : List Field} :
    (∃ s, make fields = .ok s) ↔
      (fields.map (·.name)).Nodup ∧ ∀ f ∈ fields, f.type ≠ .null := by
  simp only [make_eq_ok_iff, ← DataType.isColumnType_iff]
  constructor
  · intro ⟨s, hs⟩
    exact hs ▸ ⟨s.namesDistinct, s.columnTypes⟩
  · intro ⟨hnames, htypes⟩
    exact ⟨⟨fields, hnames, htypes⟩, rfl⟩

/-- Fields that make no schema fail for the first that repeats a name or has no column type. -/
theorem make_eq_error_iff_first {fields : List Field} {e : Error} :
    make fields = .error e ↔ ∃ earlier f later, fields = earlier ++ f :: later ∧
      ((earlier.map (·.name)).Nodup ∧ ∀ g ∈ earlier, g.type ≠ .null) ∧
      ((f.name ∈ earlier.map (·.name) ∧ e = .duplicateField f.name) ∨
        (f.name ∉ earlier.map (·.name) ∧ f.type = .null ∧ e = .untypedField f)) := by
  rw [make_eq_error_iff, firstFault_eq_some_iff]
  simp only [firstFault_singleton_eq_some_iff, firstFault_eq_none_iff, DataType.isColumnType_iff,
    List.append_nil, List.mem_reverse, List.not_mem_nil, not_false_eq_true, implies_true, true_and]

end Schema

/-! ## Declarations of arrays -/

open Interchange

/-- A type stands for the one with its layout and for no other. -/
theorem Interchange.ArrayType.toDataType?_eq_some_iff {t : ArrayType} {type : DataType} :
    t.toDataType? = some type ↔ ofDataType type = t := by
  cases type <;> cases t <;> decide

theorem DataType.ofArrayType_eq_ok_iff {t : ArrayType} {type : DataType} :
    ofArrayType t = .ok type ↔ ArrayType.ofDataType type = t := by
  rw [ofArrayType, ← ArrayType.toDataType?_eq_some_iff]
  cases t.toDataType? with
  | none => simp
  | some type' => simp

/-- A declaration becomes a field if it is the field's. -/
theorem Field.ofArrayField_eq_ok_iff {declared : ArrayField} {f : Field} :
    ofArrayField declared = .ok f ↔ f.toArrayField = declared := by
  have htype := @DataType.ofArrayType_eq_ok_iff declared.type
  rw [ofArrayField]
  constructor
  · intro h
    cases htype' : DataType.ofArrayType declared.type with
    | error e =>
      rw [htype'] at h
      cases h
    | ok type =>
      rw [htype'] at h
      cases h
      rw [toArrayField, htype.mp htype']
  · intro h
    subst h
    rw [htype.mpr rfl]
    rfl

/-- Declarations make a schema if they are those of the schema. -/
theorem Schema.ofArrayFields_eq_ok_iff {declared : List ArrayField} {s : Schema} :
    ofArrayFields declared = .ok s ↔ s.toArrayFields = declared := by
  rw [ofArrayFields, bind_eq_ok_iff, toArrayFields]
  simp only [mapM_eq_ok_iff_map_eq fun _ _ => Field.ofArrayField_eq_ok_iff, make_eq_ok_iff]
  constructor
  · intro ⟨fields, hfields, hs⟩
    rw [hs, hfields]
  · intro hs
    exact ⟨s.fields, hs, rfl⟩

end RowFilter
