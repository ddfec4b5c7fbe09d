import RowFilter.Proofs.Json.Reading
import RowFilter.Proofs.Schema.Lookup
import RowFilter.Proofs.Schema.Making
import RowFilter.Schema.Json

/-!
# Schemas are indexed by name and survive being written

What is written for a schema is read as that schema, whatever characters its names have
(`Schema.reads_reader`), and what is read as a schema has gone through `Schema.make`
(`Schema.run_eq_ok_iff`). Main result: `Schema.made_faithful`, which says it together with what
`Schema.make` accepts and refuses and how the fields of a schema are found.
-/

namespace RowFilter

open Json Reader

/-! ## Reading what was written -/

theorem DataType.reads_reader (t : DataType) : Reads reader t.toJson t := by
  cases t <;> exact @reads_oneOf _ _ (.plain _ _) _ rfl rfl

namespace Field

theorem reads_reader (f : Field) : Reads reader f.toJson f := by
  have hfills : Fills members {}
      [("name", .string f.name), ("data_type", f.type.toJson), ("nullable", .bool f.nullable)]
      { name := some f.name, type := some f.type, nullable := some f.nullable } := by
    refine .cons rfl rfl ((reads_string f.name).bind_pure _) ?_
    refine .cons rfl rfl (f.type.reads_reader.bind_pure _) ?_
    exact .cons rfl rfl ((reads_bool f.nullable).bind_pure _) .nil
  exact reads_record hfills rfl

theorem legible_toJson (f : Field) : f.toJson.Legible := by
  refine legible_object fun m hm => ?_
  simp only [List.mem_cons, List.not_mem_nil, or_false] at hm
  obtain rfl | rfl | rfl := hm
  · exact legible_string f.name
  · exact legible_string f.type.name
  · exact legible_bool f.nullable

end Field

namespace Schema

theorem reads_fieldsReader (s : Schema) : Reads fieldsReader s.toJson s.fields := by
  have hfields : Reads (list Field.reader) (.array (s.fields.map Field.toJson)) s.fields :=
    reads_list fun f _ => f.reads_reader
  exact reads_record (.cons rfl rfl (hfields.map some) .nil) rfl

/-- The fields of a schema make that schema again. -/
theorem reads_reader (s : Schema) : Reads reader s.toJson s := by
  intro text rest hs
  rw [reader, bind_apply (reads_fieldsReader s hs), make_eq_ok_iff.mpr rfl]
  rfl

theorem legible_toJson (s : Schema) : s.toJson.Legible := by
  refine legible_object fun m hm => ?_
  rw [List.mem_singleton.mp hm]
  refine legible_array fun j hj => ?_
  obtain ⟨f, -, rfl⟩ := List.mem_map.mp hj
  exact f.legible_toJson

/-! ## Whatever is read -/

/-- A text is read as a schema if the fields that stand in it make the schema. -/
theorem run_eq_ok_iff {text : String} {s : Schema} :
    reader.run text = .ok s ↔
      ∃ fields, fieldsReader.run text = .ok fields ∧ make fields = .ok s := by
  simp only [Reader.run_eq_ok_iff, reader, bind_apply_eq_ok_iff]
  constructor
  · intro h
    obtain ⟨rest, ⟨fields, rest', hfields, hmake⟩, hblanks⟩ := h
    cases hmade : make fields with
    | error e =>
      rw [hmade] at hmake
      cases hmake
    | ok s' =>
      rw [hmade] at hmake
      cases hmake
      exact ⟨fields, ⟨rest, hfields, hblanks⟩, hmade⟩
  · intro h
    obtain ⟨fields, ⟨rest, hfields, hblanks⟩, hmake⟩ := h
    refine ⟨rest, ⟨fields, rest, hfields, ?_⟩, hblanks⟩
    rw [hmake]
    rfl

/-- **A schema is indexed by name and survives being written.** Fields make a schema if their names
are distinct and none has the type of nulls; otherwise the first field is reported that repeats a
name or has that type. The position of a field's name is that of the field, and the schema comes
back unchanged from declarations of arrays and from both ways to write it as JSON. A text is read as
a schema just if the fields that stand in it make that schema. -/
theorem made_faithful :
    (∀ fields : List Field,
      ((∃ s, make fields = .ok s) ↔
        (fields.map (·.name)).Nodup ∧ ∀ f ∈ fields, f.type ≠ .null) ∧
      ∀ e, make fields = .error e ↔ ∃ earlier f later, fields = earlier ++ f :: later ∧
        ((earlier.map (·.name)).Nodup ∧ ∀ g ∈ earlier, g.type ≠ .null) ∧
        ((f.name ∈ earlier.map (·.name) ∧ e = .duplicateField f.name ∧ e.kind = .schemaMismatch) ∨
          (f.name ∉ earlier.map (·.name) ∧ f.type = .null ∧ e = .untypedField f ∧
            e.kind = .typeMismatch))) ∧
    (∀ s : Schema,
      (∀ (slot : Nat) (f : Field), s.fields[slot]? = some f → s.index? f.name = some slot) ∧
      (∀ name, s.find? name = (s.index? name).bind (s.fields[·]?)) ∧
      ofArrayFields s.toArrayFields = .ok s ∧
      reader.run s.toJson.compact = .ok s ∧ reader.run s.toJson.pretty = .ok s) ∧
    ∀ (text : String) (s : Schema), reader.run text = .ok s ↔
      ∃ fields, fieldsReader.run text = .ok fields ∧ make fields = .ok s ∧
        (fields.map (·.name)).Nodup ∧ ∀ f ∈ fields, f.type ≠ .null := by
  refine ⟨fun fields => ⟨exists_make_eq_ok_iff, fun e => ?_⟩, fun s => ⟨fun slot f hf => ?_, ?_⟩,
    fun text s => ?_⟩
  · rw [make_eq_error_iff_first]
    -- the kinds are those of the two errors
    refine exists_congr fun earlier => exists_congr fun f => exists_congr fun later =>
      and_congr_right fun _ => and_congr_right fun _ => or_congr ?_ ?_
    · exact and_congr_right fun _ => ⟨fun he => ⟨he, he ▸ rfl⟩, And.left⟩
    · exact and_congr_right fun _ => and_congr_right fun _ => ⟨fun he => ⟨he, he ▸ rfl⟩, And.left⟩
  · exact index?_eq_some_iff.mpr ⟨f, hf, rfl⟩
  · exact ⟨s.find?_eq_bind_index?, ofArrayFields_eq_ok_iff.mpr rfl,
      s.reads_reader.run_compact s.legible_toJson, s.reads_reader.run_pretty s.legible_toJson⟩
  · rw [run_eq_ok_iff]
    constructor
    · intro h
      obtain ⟨fields, hfields, hmake⟩ := h
      exact ⟨fields, hfields, hmake, exists_make_eq_ok_iff.mp ⟨s, hmake⟩⟩
    · intro h
      obtain ⟨fields, hfields, hmake, -⟩ := h
      exact ⟨fields, hfields, hmake⟩

/-- Fields whose names need escapes by a mark, a letter or a number, or lie beyond `U+FFFF`. -/
def Sample.fields : List Field :=
  [⟨"a \"quoted\" back\\slash", .int64, false⟩, ⟨"\t\n\x01\x1f", .bool, true⟩,
    ⟨"𝔘", .float64, true⟩]

theorem sample_made :
    ∃ s, make Sample.fields = .ok s ∧ s.index? "𝔘" = some 2 ∧
      reader.run s.toJson.compact = .ok s ∧
      make (Sample.fields ++ [⟨"𝔘", .int64, false⟩]) = .error (.duplicateField "𝔘") := by
  obtain ⟨makes, survives, -⟩ := made_faithful
  obtain ⟨s, hs⟩ := (makes Sample.fields).1.mpr ⟨by decide, by decide⟩
  obtain ⟨indexed, -, -, hcompact, -⟩ := survives s
  have hfields := make_eq_ok_iff.mp hs
  refine ⟨s, hs, ?_, hcompact, ?_⟩
  · exact indexed 2 ⟨"𝔘", .float64, true⟩ (by rw [hfields]; rfl)
  · refine ((makes _).2 _).mpr ⟨Sample.fields, ⟨"𝔘", .int64, false⟩, [], rfl, ⟨?_, ?_⟩, Or.inl ?_⟩
    · decide
    · decide
    · exact ⟨by decide, rfl, rfl⟩

end Schema

end RowFilter
