import RowFilter.Proofs.Filter.Exactness
import RowFilter.Proofs.View.Bounds

/-!
# Viewing what a filter has found

The selection that a filter leaves is within the bounds of every column of the batch. Main result:
`view_of_evaluate_ok`. Through that selection a column is seen as the list of its values without
those in the rows where the condition is not true.
-/

namespace RowFilter

namespace Filter

section Found

variable {c : Condition} {batch : Batch} {s : Selection} {column : Column}

/-- The matching rows are in every column. -/
theorem lt_length_of_matching (hcolumn : column ∈ batch.columns)
    (hrows : s.rows = c.matching batch) : ∀ row ∈ s.rows, row < column.length := by
  intro row hrow
  rw [hrows, Condition.mem_matching_iff] at hrow
  rw [Batch.length_of_mem_columns hcolumn]
  exact hrow.1

/-- What a column holds in the matching rows are its values without those in the other rows. -/
theorem map_get_matching (hcolumn : column ∈ batch.columns) :
    (c.matching batch).map column.get =
      (column.values.zipIdx.filter fun p => c.root.denote batch p.2 = some (.bool true)).map
        fun p => .ok p.1 := by
  rw [Condition.matching, ← Batch.length_of_mem_columns hcolumn]
  exact column.map_get_filter _

end Found

/-- **Filtering, then viewing**: after a successful evaluation every column of the batch can be
viewed through the selection. The view is of the column's type and as long as there are matches. Its
values are those of the column in the matching rows, each once and in the order of the rows, and
there is nothing beyond them. -/
theorem view_of_evaluate_ok {schema : Schema} {c : Condition} {f : Filter} {batch : Batch}
    {s s' : Selection} {n : Nat} (made : make schema c = .ok f)
    (done : f.evaluate batch s = (.ok n, s')) {column : Column} (hcolumn : column ∈ batch.columns) :
    ∃ v, View.make column.toSource s' = .ok v ∧ v.type = column.type ∧ v.length = n ∧
      n = (c.matching batch).length ∧
      v.values = ((column.values.zipIdx.filter fun p =>
        c.root.denote batch p.2 = some (.bool true)).map fun p => .ok p.1) ∧
      ∀ i, v.length ≤ i → ∃ e, v.get i = .error e ∧ e.kind = .indexOutOfBounds := by
  obtain ⟨-, hrows, hlength⟩ := found_of_evaluate_ok made done
  have hview : View.make column.toSource s' = .ok ⟨column.toSource, s'⟩ :=
    View.make_eq_ok_iff.mpr ⟨lt_length_of_matching hcolumn hrows, rfl⟩
  refine ⟨⟨column.toSource, s'⟩, hview, rfl, hlength, ?_, ?_, fun i hi => ?_⟩
  · rw [← hlength, ← Selection.length_rows, hrows]
  · rw [View.values_eq, ← map_get_matching hcolumn, ← hrows]
    rfl
  · exact ⟨_, View.get_of_length_le hi, rfl⟩

/-- The amounts of the sample in the rows 0 and 2, the second of which is null. -/
theorem sample_view :
    ∃ v, View.make (Column.int64 #[some 1, some 2, none, some 1, some 7]).toSource
        ⟨.uint16 #[0, 2], 4⟩ = .ok v ∧ v.type = .int64 ∧ v.length = 2 ∧
      v.values = [.ok (.int64 1), .ok .null] ∧ ∃ e, v.get 2 = .error e ∧
        e.kind = .indexOutOfBounds := by
  have made : make Sample.schema Sample.condition = .ok Sample.filter := rfl
  have done : Sample.filter.evaluate Sample.batch Sample.selection =
      (.ok 2, ⟨.uint16 #[0, 2], 4⟩) := rfl
  have hcolumn : Column.int64 #[some 1, some 2, none, some 1, some 7] ∈ Sample.batch.columns := by
    simp [Sample.batch]
  obtain ⟨v, hview, htype, hlength, -, hvalues, hbeyond⟩ := view_of_evaluate_ok made done hcolumn
  refine ⟨v, hview, htype, hlength, ?_, hbeyond 2 (Nat.le_of_eq hlength)⟩
  rw [hvalues]
  rfl

end Filter

end RowFilter
