import RowFilter.Proofs.Batch.Append
import RowFilter.Proofs.Filter.Exactness

/-!
# A filter reads the fields of its condition

Whether a row is selected depends on the cells that the fields of the condition have in it, and on
nothing else: not on other columns, on the places of the columns, on other rows or on the selection.
Main result: `evaluate_local`, about two evaluations of a filter.
-/

namespace RowFilter

/-- Two batches have the same columns under the names of some fields. Their other columns may
differ, and so may the places of these. -/
structure Batch.SameUnder (fields : List Field) (b b' : Batch) : Prop where
  rows : b.rows = b'.rows
  columns : ∀ f ∈ fields, ∀ p : Field × Column, p.1.name = f.name →
    (p ∈ b.schema.fields.zip b.columns ↔ p ∈ b'.schema.fields.zip b'.columns)

theorem Batch.SameUnder.columnNamed?_eq {fields : List Field} {b b' : Batch}
    (h : SameUnder fields b b') {f : Field} (hf : f ∈ fields) :
    b.columnNamed? f.name = b'.columnNamed? f.name := by
  refine Option.ext fun c => ?_
  rw [columnNamed?_eq_some_iff, columnNamed?_eq_some_iff]
  constructor
  · rintro ⟨g, hname, hmem⟩
    exact ⟨g, hname, (h.columns f hf (g, c) hname).mp hmem⟩
  · rintro ⟨g, hname, hmem⟩
    exact ⟨g, hname, (h.columns f hf (g, c) hname).mpr hmem⟩

namespace Condition

variable {c : Condition} {b₁ b₂ : Batch}

/-- A row matches if a row with the same cells does. -/
theorem mem_matching_congr {r₁ r₂ : Nat} (h₁ : r₁ < b₁.rows) (h₂ : r₂ < b₂.rows)
    (h : ∀ g ∈ c.fields, b₁.cell? g r₁ = b₂.cell? g r₂) :
    r₁ ∈ c.matching b₁ ↔ r₂ ∈ c.matching b₂ := by
  rw [mem_matching_iff, mem_matching_iff, Expr.denote_congr h]
  exact and_congr_left' (iff_of_true h₁ h₂)

/-- Batches with the same cells in all rows have the same matching rows. -/
theorem matching_congr (hrows : b₁.rows = b₂.rows)
    (h : ∀ g ∈ c.fields, ∀ row < b₁.rows, b₁.cell? g row = b₂.cell? g row) :
    c.matching b₁ = c.matching b₂ := by
  rw [matching, matching, ← hrows]
  refine List.filter_congr fun row hrow => ?_
  rw [Expr.denote_congr fun g hg => h g hg row (List.mem_range.mp hrow)]

end Condition

namespace Filter

variable {schema : Schema} {c : Condition} {f : Filter}

/-- An evaluation on a batch with the same columns under the names of the fields comes to the
same. -/
theorem evaluate_of_sameUnder {b b' : Batch} {s : Selection} (made : make schema c = .ok f)
    (same : b.SameUnder c.fields b') (hall : ∀ g ∈ c.fields, b'.schema.Declares g) :
    f.evaluate b s = f.evaluate b' s := by
  obtain ⟨hfault, rfl⟩ := make_eq_ok_iff.mp made
  have hnamed : ∀ g ∈ c.fields, b.columnNamed? g.name = b'.columnNamed? g.name :=
    fun g hg => same.columnNamed?_eq hg
  have hall' : ∀ g ∈ c.fields, b.schema.Declares g := fun g hg => by
    rw [Batch.declares_iff, hnamed g hg, ← Batch.declares_iff]
    exact hall g hg
  have hcolumns : c.root.fields.map b.columnOf = c.root.fields.map b'.columnOf := by
    refine List.map_congr_left fun g hg => ?_
    rw [Batch.columnOf, Batch.columnOf, hnamed g hg]
  rw [evaluate, evaluate, (resolve_eq_ok_iff hfault).mpr ⟨hall', rfl⟩,
    (resolve_eq_ok_iff hfault).mpr ⟨hall, rfl⟩, hcolumns, same.rows]

/-- If the evaluations on two batches succeed, so does the one on both together, into a selection
that is large enough. -/
theorem exists_evaluate_append {b₁ b₂ : Batch} {s₁ s₁' s₂ s₂' : Selection} {n₁ n₂ : Nat}
    (made : make schema c = .ok f) (done₁ : f.evaluate b₁ s₁ = (.ok n₁, s₁'))
    (done₂ : f.evaluate b₂ s₂ = (.ok n₂, s₂')) (same : b₂.schema = b₁.schema) {s : Selection}
    (hrange : b₁.rows + b₂.rows ≤ s.maxRow + 1) (hroom : n₁ + n₂ ≤ s.capacity) :
    ∃ s', f.evaluate (b₁.append b₂ same) s = (.ok (n₁ + n₂), s') := by
  obtain ⟨hall, hrows₁, hlength₁⟩ := found_of_evaluate_ok made done₁
  obtain ⟨-, hrows₂, hlength₂⟩ := found_of_evaluate_ok made done₂
  obtain ⟨hfault, rfl⟩ := make_eq_ok_iff.mp made
  have hcount : (c.matching (b₁.append b₂ same)).length = n₁ + n₂ := by
    rw [Condition.matching_append, List.length_append, List.length_map, ← hrows₁, ← hrows₂,
      Selection.length_rows, Selection.length_rows, hlength₁, hlength₂]
  have hfits : ¬(0 < (b₁.append b₂ same).rows ∧ s.maxRow < (b₁.append b₂ same).rows - 1) := by
    rw [Batch.rows_append]
    omega
  have hdecided := Condition.decided_append same (decided_of_evaluate_ok hfault done₁).2.2
    (decided_of_evaluate_ok hfault done₂).2.2
  have hall : ∀ g ∈ c.root.fields, (b₁.append b₂ same).schema.Declares g := hall
  -- there is a slot for every match, so none is reported
  have hresult := (evaluate_bound hfault hall hfits hdecided).1
  rw [List.getElem?_eq_none (hcount ▸ hroom), hcount] at hresult
  exact ⟨_, Prod.ext hresult rfl⟩

/-- **A filter is local to rows and to the fields of its condition.** Rows of two batches with the
same cells under these fields are both selected or both not. So batches with the same cells have the
same selected rows, and whatever else is changed, added, moved or taken away in a batch, the
evaluation stays the same. What is selected in two batches together is what is selected in the first
and then, beyond its rows, what is selected in the second. -/
theorem evaluate_local {b₁ b₂ : Batch} {s₁ s₁' s₂ s₂' : Selection} {n₁ n₂ : Nat}
    (made : make schema c = .ok f) (done₁ : f.evaluate b₁ s₁ = (.ok n₁, s₁'))
    (done₂ : f.evaluate b₂ s₂ = (.ok n₂, s₂')) :
    (∀ r₁ < b₁.rows, ∀ r₂ < b₂.rows, (∀ g ∈ c.fields, b₁.cell? g r₁ = b₂.cell? g r₂) →
      (r₁ ∈ s₁'.rows ↔ r₂ ∈ s₂'.rows)) ∧
    (b₁.rows = b₂.rows → (∀ g ∈ c.fields, ∀ row < b₁.rows, b₁.cell? g row = b₂.cell? g row) →
      s₁'.rows = s₂'.rows) ∧
    (∀ b : Batch, b.SameUnder c.fields b₁ → ∀ s, f.evaluate b s = f.evaluate b₁ s) ∧
    ∀ (same : b₂.schema = b₁.schema) (s : Selection),
      (b₁.rows + b₂.rows ≤ s.maxRow + 1 → n₁ + n₂ ≤ s.capacity →
        ∃ s', f.evaluate (b₁.append b₂ same) s = (.ok (n₁ + n₂), s')) ∧
      ∀ n s', f.evaluate (b₁.append b₂ same) s = (.ok n, s') →
        s'.rows = s₁'.rows ++ s₂'.rows.map (b₁.rows + ·) := by
  obtain ⟨hall, hrows₁, -⟩ := found_of_evaluate_ok made done₁
  obtain ⟨-, hrows₂, -⟩ := found_of_evaluate_ok made done₂
  refine ⟨fun r₁ h₁ r₂ h₂ h => ?_, fun hrows h => ?_, fun b hb s => ?_, fun same s => ⟨?_, ?_⟩⟩
  · rw [hrows₁, hrows₂]
    exact Condition.mem_matching_congr h₁ h₂ h
  · rw [hrows₁, hrows₂]
    exact Condition.matching_congr hrows h
  · exact evaluate_of_sameUnder made hb hall
  · exact fun hrange hroom => exists_evaluate_append made done₁ done₂ same hrange hroom
  · intro n s' done
    rw [(found_of_evaluate_ok made done).2.1, hrows₁, hrows₂]
    exact Condition.matching_append same

end Filter

/-! ## An example -/

namespace Sample

/-- The columns of `batch` that are read, in another order. -/
def reordered : Batch where
  schema := schema
  rows := 5
  columns := [.int64 #[some 1, some 2, none, some 1, some 7],
    .bool #[some true, some false, some true, none, some true]]
  consistent := Batch.firstFault_eq_none_iff.mp (by decide)

/-- Two rows more, in the first of which the condition is true. -/
def more : Batch where
  schema := batch.schema
  rows := 2
  columns := [.bool #[some true, some false], .bool #[none, some true], .int64 #[none, some 2]]
  consistent := Batch.firstFault_eq_none_iff.mp (by decide)

theorem sameUnder_reordered : reordered.SameUnder condition.fields batch where
  rows := rfl
  columns f hf p hname := by
    have hnote : p.1.name ≠ "note" := by
      rcases List.mem_pair.mp hf with rfl | rfl
      · rw [hname]
        decide
      · rw [hname]
        decide
    constructor
    · intro hp
      rcases List.mem_pair.mp hp with rfl | rfl
      · exact List.mem_of_getElem? (i := 2) rfl
      · exact List.mem_of_getElem? (i := 0) rfl
    · intro hp
      rcases List.mem_cons.mp hp with rfl | hp
      · exact List.mem_of_getElem? (i := 1) rfl
      · rcases List.mem_pair.mp hp with rfl | rfl
        · exact absurd rfl hnote
        · exact List.mem_of_getElem? (i := 0) rfl

end Sample

namespace Filter

/-- Without the column that is not read, the sample selects the same rows. With two more rows it
selects row 5 as well. -/
theorem sample_local :
    Sample.filter.evaluate Sample.reordered Sample.selection = (.ok 2, ⟨.uint16 #[0, 2], 4⟩) ∧
      ∃ s', Sample.filter.evaluate (Sample.batch.append Sample.more rfl) Sample.selection =
        (.ok 3, s') ∧ s'.rows = [0, 2, 5] := by
  have made : make Sample.schema Sample.condition = .ok Sample.filter := rfl
  have done : Sample.filter.evaluate Sample.batch Sample.selection =
      (.ok 2, ⟨.uint16 #[0, 2], 4⟩) := rfl
  have doneMore : Sample.filter.evaluate Sample.more Sample.selection =
      (.ok 1, ⟨.uint16 #[0], 4⟩) := rfl
  obtain ⟨-, -, hsame, happend⟩ := evaluate_local made done doneMore
  obtain ⟨hexists, hrows⟩ := happend rfl Sample.selection
  obtain ⟨s', hs'⟩ := hexists (by decide) (by decide)
  have hreordered := hsame Sample.reordered Sample.sameUnder_reordered Sample.selection
  exact ⟨hreordered.trans done, s', hs', hrows 3 s' hs'⟩

end Filter

end RowFilter
