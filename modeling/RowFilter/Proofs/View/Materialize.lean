import RowFilter.Proofs.Batch.Making
import RowFilter.Proofs.Column.Gather
import RowFilter.Proofs.Expr.Locality

/-!
# The rows of a selection as a batch

`Batch.materialize` views every column of a batch through a selection, exchanges the viewed rows as
arrays and makes a batch of them. Main result: `Batch.materialize_eq`. If the batch has all the rows
of the selection, this cannot fail, and the new batch is `Batch.gather`. Its cells are those of the
selected rows, so expressions denote in it what they denote there (`Expr.denote_gather`).
-/

namespace RowFilter

/-- The column of the rows that a selection names, by way of a view and an array. -/
def Column.materialize (c : Column) (s : Selection) : Except Error Column := do
  let view ← View.make c.toSource s
  let array ← view.toArray
  Column.ofArray array

/-- The batch of the rows that a selection names. -/
def Batch.materialize (b : Batch) (s : Selection) : Except Error Batch := do
  let columns ← b.columns.mapM (·.materialize s)
  Batch.make b.schema s.length columns

/-- If a column has the selected rows, they make a column again. -/
theorem Column.materialize_eq {c : Column} {s : Selection} (h : ∀ row ∈ s.rows, row < c.length) :
    c.materialize s = .ok (c.gather s.rows) := by
  have hview : View.make c.toSource s = .ok ⟨c.toSource, s⟩ := View.make_eq_ok_iff.mpr ⟨h, rfl⟩
  have harray : View.toArray ⟨c.toSource, s⟩ = .ok (c.gather s.rows).toArray := take_toArray h
  rw [materialize, hview, ok_bind, harray, ok_bind, ofArray_toArray]

namespace Batch

variable {b : Batch} {s : Selection}

/-- The gathered columns agree with the schema, in nullability as well. -/
theorem consistent_gather (h : ∀ row ∈ s.rows, row < b.rows) :
    Consistent b.schema.fields s.length (b.columns.map (·.gather s.rows)) := by
  refine ⟨by rw [List.length_map, b.consistent.count], fun p hp => ?_⟩
  rw [List.zip_map_right, List.mem_map] at hp
  obtain ⟨⟨f, c⟩, hmem, rfl⟩ := hp
  have fits := b.consistent.fits (f, c) hmem
  have hrows : ∀ row ∈ s.rows, row < c.length := fits.length ▸ h
  exact {
    type := Column.type_gather.trans fits.type
    length := Column.length_gather.trans s.length_rows
    nulls := fun hf => Column.nullCount_gather hrows (fits.nulls hf) }

/-- The batch of the rows of a selection, all of which are in the batch. -/
def gather (b : Batch) (s : Selection) (h : ∀ row ∈ s.rows, row < b.rows) : Batch where
  schema := b.schema
  rows := s.length
  columns := b.columns.map (·.gather s.rows)
  consistent := consistent_gather h

theorem rows_gather (h : ∀ row ∈ s.rows, row < b.rows) : (b.gather s h).rows = s.length := rfl

theorem schema_gather (h : ∀ row ∈ s.rows, row < b.rows) : (b.gather s h).schema = b.schema := rfl

/-- **The rows of a selection make a batch**: if the batch has them all, nothing fails on the way
through views and arrays. -/
theorem materialize_eq (h : ∀ row ∈ s.rows, row < b.rows) :
    b.materialize s = .ok (b.gather s h) := by
  have hcolumns : b.columns.mapM (·.materialize s) = .ok (b.columns.map (·.gather s.rows)) :=
    mapM_eq_ok fun c hc => Column.materialize_eq (length_of_mem_columns hc ▸ h)
  rw [materialize, hcolumns, ok_bind]
  exact make_of_consistent (consistent_gather h)

/-- The cells of the new batch are those of the selected rows. -/
theorem cell?_gather (h : ∀ row ∈ s.rows, row < b.rows) (f : Field) {i row : Nat}
    (hrow : s.rows[i]? = some row) : (b.gather s h).cell? f i = b.cell? f row := by
  have hnamed : (b.gather s h).columnNamed? f.name =
      (b.columnNamed? f.name).map (·.gather s.rows) := by
    rw [columnNamed?, columnNamed?, Option.map_bind]
    congr 1
    funext slot
    exact List.getElem?_map ..
  rw [cell?, cell?, hnamed]
  cases hc : b.columnNamed? f.name with
  | none => rfl
  | some c =>
    have hmem : c ∈ b.columns := by
      rw [columnNamed?, Option.bind_eq_some_iff] at hc
      obtain ⟨slot, -, hslot⟩ := hc
      exact List.mem_of_getElem? hslot
    rw [Option.map_some, Option.bind_some, Option.bind_some,
      Column.get?_gather (length_of_mem_columns hmem ▸ h), hrow, Option.bind_some]

end Batch

/-- What an expression denotes in a row of the new batch it denotes in the selected row. -/
theorem Expr.denote_gather {b : Batch} {s : Selection} (h : ∀ row ∈ s.rows, row < b.rows) (e : Expr)
    {i row : Nat} (hrow : s.rows[i]? = some row) :
    e.denote (b.gather s h) i = e.denote b row :=
  denote_congr fun f _ => Batch.cell?_gather h f hrow

end RowFilter
