import RowFilter.Proofs.Column.Values
import RowFilter.Proofs.Expr.Locality

/-!
# One batch after another

Two batches of one schema make a batch with the rows of both, `Batch.append`. A row of it has the
cells of a row of one of the two (`cell?_append_left`, `cell?_append_right`), so what a condition
matches there is what it matches in the first batch, followed by what it matches in the second
(`Condition.matching_append`).
-/

namespace RowFilter

namespace Column

/-- The cells of a column and then those of another of the same type. -/
def append : Column → Column → Column
  | bool cells, bool more => bool (cells ++ more)
  | int64 cells, int64 more => int64 (cells ++ more)
  | float64 cells, float64 more => float64 (cells ++ more)
  | c, _ => c

section Append

variable {c d : Column}

theorem type_append (h : c.type = d.type) : (c.append d).type = c.type :=
  cases_of_type_eq (motive := fun c d => (c.append d).type = c.type) h (fun _ _ => rfl)
    (fun _ _ => rfl) fun _ _ => rfl

theorem values_append (h : c.type = d.type) : (c.append d).values = c.values ++ d.values := by
  refine cases_of_type_eq (motive := fun c d => (c.append d).values = c.values ++ d.values) h
    (fun cells more => ?_) (fun cells more => ?_) fun cells more => ?_
  · rw [append, values, Array.toList_append, List.map_append]
    rfl
  · rw [append, values, Array.toList_append, List.map_append]
    rfl
  · rw [append, values, Array.toList_append, List.map_append]
    rfl

theorem nullCount_append (h : c.type = d.type) :
    (c.append d).nullCount = c.nullCount + d.nullCount := by
  refine cases_of_type_eq
    (motive := fun c d => (c.append d).nullCount = c.nullCount + d.nullCount) h
    (fun cells more => ?_) (fun cells more => ?_) fun cells more => ?_
  · exact Array.countP_append
  · exact Array.countP_append
  · exact Array.countP_append

theorem length_append (h : c.type = d.type) : (c.append d).length = c.length + d.length := by
  rw [← length_values, values_append h, List.length_append, length_values, length_values]

theorem get?_append_left (h : c.type = d.type) {row : Nat} (hrow : row < c.length) :
    (c.append d).get? row = c.get? row := by
  rw [← length_values] at hrow
  rw [← getElem?_values, values_append h, List.getElem?_append_left hrow, getElem?_values]

theorem get?_append_right (h : c.type = d.type) (row : Nat) :
    (c.append d).get? (c.length + row) = d.get? row := by
  rw [← getElem?_values, values_append h, ← length_values, List.getElem?_append_right (by omega),
    Nat.add_sub_cancel_left, getElem?_values]

end Append

end Column

namespace Batch

variable {b₁ b₂ : Batch}

/-- The columns of two batches of one schema, one after the other, agree with that schema. -/
theorem consistent_append (same : b₂.schema = b₁.schema) :
    Consistent b₁.schema.fields (b₁.rows + b₂.rows)
      (List.zipWith Column.append b₁.columns b₂.columns) := by
  have hcount : b₂.columns.length = b₁.columns.length := by
    rw [b₂.consistent.count, same, b₁.consistent.count]
  refine ⟨?_, fun p hp => ?_⟩
  · rw [List.length_zipWith, hcount, Nat.min_self, b₁.consistent.count]
  · obtain ⟨slot, hslot⟩ := List.getElem?_of_mem hp
    rw [List.getElem?_zip_eq_some, List.getElem?_zipWith_eq_some] at hslot
    obtain ⟨hfield, c, d, hc, hd, hcd⟩ := hslot
    have hfits : Fits b₁.rows p.1 c := fits_of_getElem? hfield hc
    have hfits' : Fits b₂.rows p.1 d := fits_of_getElem? (same ▸ hfield) hd
    have htypes : c.type = d.type := hfits.type.trans hfits'.type.symm
    rw [← hcd]
    exact {
      type := (Column.type_append htypes).trans hfits.type
      length := by rw [Column.length_append htypes, hfits.length, hfits'.length]
      nulls := fun hf => by rw [Column.nullCount_append htypes, hfits.nulls hf, hfits'.nulls hf] }

/-- The rows of a batch and then those of another of the same schema. -/
def append (b₁ b₂ : Batch) (same : b₂.schema = b₁.schema) : Batch where
  schema := b₁.schema
  rows := b₁.rows + b₂.rows
  columns := List.zipWith Column.append b₁.columns b₂.columns
  consistent := consistent_append same

section Append

variable (same : b₂.schema = b₁.schema)

theorem schema_append : (b₁.append b₂ same).schema = b₁.schema := rfl

theorem rows_append : (b₁.append b₂ same).rows = b₁.rows + b₂.rows := rfl

/-- A slot has no column in any of the batches, or it has one in all three. -/
theorem column?_append_cases (slot : Nat) :
    (b₁.column? slot = none ∧ b₂.column? slot = none ∧ (b₁.append b₂ same).column? slot = none) ∨
      ∃ c d, b₁.column? slot = some c ∧ b₂.column? slot = some d ∧
        (b₁.append b₂ same).column? slot = some (c.append d) ∧ c.type = d.type ∧
        c.length = b₁.rows := by
  have hcount : b₁.columns.length = b₁.schema.fields.length := b₁.consistent.count
  have hcount' : b₂.columns.length = b₁.schema.fields.length := same ▸ b₂.consistent.count
  by_cases hslot : slot < b₁.schema.fields.length
  · have hfield : b₁.schema.fields[slot]? = some b₁.schema.fields[slot] :=
      List.getElem?_eq_getElem hslot
    have hc : b₁.columns[slot]? = some b₁.columns[slot] := List.getElem?_eq_getElem (by omega)
    have hd : b₂.columns[slot]? = some b₂.columns[slot] := List.getElem?_eq_getElem (by omega)
    have hfits := fits_of_getElem? hfield hc
    have hfits' := fits_of_getElem? (by rw [same]; exact hfield) hd
    refine Or.inr ⟨_, _, hc, hd, ?_, hfits.type.trans hfits'.type.symm, hfits.length⟩
    exact List.getElem?_zipWith_eq_some.mpr ⟨_, _, hc, hd, rfl⟩
  · -- no batch has more columns than the schema has fields
    have hbeyond : b₁.schema.fields.length ≤ slot := Nat.le_of_not_lt hslot
    have hnone := (b₁.append b₂ same).consistent.count ▸ hbeyond
    exact Or.inl ⟨List.getElem?_eq_none (hcount ▸ hbeyond),
      List.getElem?_eq_none (hcount' ▸ hbeyond), List.getElem?_eq_none hnone⟩

/-- The first rows have the cells of the first batch. -/
theorem cell?_append_left (f : Field) {row : Nat} (hrow : row < b₁.rows) :
    (b₁.append b₂ same).cell? f row = b₁.cell? f row := by
  rw [cell?, cell?, columnNamed?, columnNamed?, schema_append]
  cases b₁.schema.index? f.name with
  | none => rfl
  | some slot =>
    rw [Option.bind_some, Option.bind_some]
    rcases column?_append_cases same slot with ⟨hc, -, hboth⟩ | ⟨c, d, hc, -, hboth, htype, hlength⟩
    · rw [hboth, hc]
    · rw [hboth, hc, Option.bind_some, Option.bind_some]
      exact Column.get?_append_left htype (hlength ▸ hrow)

/-- The rows after them have the cells of the second batch. -/
theorem cell?_append_right (f : Field) (row : Nat) :
    (b₁.append b₂ same).cell? f (b₁.rows + row) = b₂.cell? f row := by
  rw [cell?, cell?, columnNamed?, columnNamed?, schema_append, same]
  cases b₁.schema.index? f.name with
  | none => rfl
  | some slot =>
    rw [Option.bind_some, Option.bind_some]
    rcases column?_append_cases same slot with ⟨-, hd, hboth⟩ | ⟨c, d, -, hd, hboth, htype, hlength⟩
    · rw [hboth, hd]
      rfl
    · rw [hboth, hd, Option.bind_some, Option.bind_some, ← hlength]
      exact Column.get?_append_right htype row

end Append

end Batch

namespace Condition

variable {c : Condition} {b₁ b₂ : Batch} (same : b₂.schema = b₁.schema)

/-- The rows that match in two batches, one after the other. -/
theorem matching_append :
    c.matching (b₁.append b₂ same) = c.matching b₁ ++ (c.matching b₂).map (b₁.rows + ·) := by
  -- the rows up to the end of the first batch, and those beyond
  rw [matching, Batch.rows_append, List.range_add, List.filter_append, List.filter_map, matching,
    matching]
  congr 1
  · refine List.filter_congr fun row hrow => ?_
    rw [Expr.denote_congr fun f _ => Batch.cell?_append_left same f (List.mem_range.mp hrow)]
  · congr 1
    refine List.filter_congr fun row _ => ?_
    rw [Function.comp_apply, Expr.denote_congr fun f _ => Batch.cell?_append_right same f row]

/-- A condition that is decided in the rows of two batches is decided in those of both together. -/
theorem decided_append (h₁ : ∀ row < b₁.rows, c.Decided b₁ row)
    (h₂ : ∀ row < b₂.rows, c.Decided b₂ row) :
    ∀ row < (b₁.append b₂ same).rows, c.Decided (b₁.append b₂ same) row := by
  intro row hrow
  rw [Batch.rows_append] at hrow
  by_cases hfirst : row < b₁.rows
  · rw [Decided, Expr.denote_congr fun f _ => Batch.cell?_append_left same f hfirst]
    exact h₁ row hfirst
  · obtain ⟨r, rfl⟩ : ∃ r, row = b₁.rows + r := ⟨row - b₁.rows, by omega⟩
    rw [Decided, Expr.denote_congr fun f _ => Batch.cell?_append_right same f r]
    exact h₂ r (by omega)

end Condition

end RowFilter
