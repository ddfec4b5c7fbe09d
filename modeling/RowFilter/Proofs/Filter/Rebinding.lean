import RowFilter.Proofs.Filter.Outcome

/-!
# Binding again

A filter is bound to one schema and may be evaluated on a batch with another. Main result:
`evaluate_rebound`. What it comes to is what the filter comes to that is made for the schema of the
batch, whichever of the two ways to the columns either of them takes.
-/

namespace RowFilter

namespace Condition

/-- Binds the condition to the schema of the batch and evaluates the filter, if there is one. -/
def evaluateAfresh (c : Condition) (batch : Batch) (s : Selection) : Except Error Nat × Selection :=
  match Filter.make batch.schema c with
  | .error e => (.error e, s)
  | .ok f => f.evaluate batch s

end Condition

namespace Filter

variable {batch : Batch} {s : Selection}

/-- An evaluation depends on the columns that are found and on the bound expression only. -/
theorem evaluate_congr {f g : Filter} (hcolumns : f.resolve batch = g.resolve batch)
    (hexpr : f.expr = g.expr) : f.evaluate batch s = g.evaluate batch s := by
  have hselects : f.selects = g.selects := by
    funext columns row
    rw [selects, selects, hexpr]
  rw [evaluate, evaluate, hcolumns, hselects]

theorem evaluate_of_resolve_error {f : Filter} {e : Error} (h : f.resolve batch = .error e) :
    f.evaluate batch s = (.error e, s) := by
  rw [evaluate, h]

/-- If the condition can be bound to the schema of the batch, the two evaluations are the same. -/
theorem evaluate_eq_of_fault?_eq_none {schema : Schema} {c : Condition}
    (h : Bound.fault? schema c.root = none) (hbatch : Bound.fault? batch.schema c.root = none) :
    (bound schema c).evaluate batch s = c.evaluateAfresh batch s := by
  have hmake : make batch.schema c = .ok (bound batch.schema c) :=
    make_eq_ok_iff.mpr ⟨hbatch, rfl⟩
  rw [Condition.evaluateAfresh, hmake]
  refine evaluate_congr ?_ rfl
  rw [resolve_eq h, resolve_eq hbatch]

/-- If it cannot, the first fault among the fields is of the kind of the first fault in the tree. -/
theorem exists_error_of_fault? {schema : Schema} {c : Condition} {e : Error}
    (h : Bound.fault? schema c.root = none) (hbatch : Bound.fault? batch.schema c.root = some e) :
    ∃ e', (bound schema c).evaluate batch s = (.error e', s) ∧ e'.kind = e.kind := by
  have hkind := Bound.kind_findSome?_fields h batch.schema .batch
  rw [hbatch, Option.map_some, Option.map_eq_some_iff] at hkind
  obtain ⟨e', hfound, hkind⟩ := hkind
  refine ⟨e', evaluate_of_resolve_error ?_, hkind⟩
  rw [resolve_eq h, hfound, unlessFault_some]

/-- **Binding again changes nothing**: evaluating a filter on a batch of any schema comes to the
same count or the same kind of error, and to the same rows, as making the filter for the schema of
the batch and evaluating that. For conditions that were built the kinds are the four named here. -/
theorem evaluate_rebound {schema : Schema} {c : Condition} {f : Filter}
    (made : make schema c = .ok f) (batch : Batch) (s : Selection) :
    (f.evaluate batch s).1.mapError Error.kind =
        (c.evaluateAfresh batch s).1.mapError Error.kind ∧
      (f.evaluate batch s).2 = (c.evaluateAfresh batch s).2 ∧
      (c.root.Built → ∀ e, (f.evaluate batch s).1 = .error e →
        e.kind ∈ [ErrorKind.unknownField, .schemaMismatch, .capacityTooLarge,
          .capacityExceeded]) := by
  obtain ⟨hfault, rfl⟩ := make_eq_ok_iff.mp made
  have hkinds : c.root.Built → ∀ e, ((bound schema c).evaluate batch s).1 = .error e →
      e.kind ∈ [ErrorKind.unknownField, .schemaMismatch, .capacityTooLarge, .capacityExceeded] := by
    intro built e he
    rw [evaluate_eq_outcome built.wellTyped made] at he
    exact Condition.kind_of_outcome he
  cases hbatch : Bound.fault? batch.schema c.root with
  | none =>
    rw [evaluate_eq_of_fault?_eq_none hfault hbatch] at hkinds ⊢
    exact ⟨rfl, rfl, hkinds⟩
  | some e =>
    -- there is no filter for the schema of the batch, and the filter at hand finds no columns
    have hmake : make batch.schema c = .error e := by
      rw [make_eq, hbatch, unlessFault_some]
    obtain ⟨e', he', hkind⟩ := exists_error_of_fault? (s := s) hfault hbatch
    rw [Condition.evaluateAfresh, hmake]
    rw [he'] at hkinds ⊢
    refine ⟨?_, rfl, hkinds⟩
    show Except.error e'.kind = Except.error e.kind
    rw [hkind]

/-- The sample filter finds its columns by name, and the one that is made afresh by position. -/
theorem sample_rebound :
    (Sample.condition.evaluateAfresh Sample.batch Sample.selection).1.mapError Error.kind = .ok 2 ∧
      (Sample.condition.evaluateAfresh Sample.batch Sample.selection).2 =
        ⟨.uint16 #[0, 2], 4⟩ := by
  have made : make Sample.schema Sample.condition = .ok Sample.filter := rfl
  have done : Sample.filter.evaluate Sample.batch Sample.selection =
      (.ok 2, ⟨.uint16 #[0, 2], 4⟩) := rfl
  obtain ⟨hresult, hrows, -⟩ := evaluate_rebound made Sample.batch Sample.selection
  rw [done] at hresult hrows
  exact ⟨hresult.symm, hrows.symm⟩

end Filter

end RowFilter
