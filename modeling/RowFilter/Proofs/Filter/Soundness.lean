import RowFilter.Proofs.Filter.Outcome

/-!
# Evaluation does not go wrong

Main result: `evaluate_sound`. Once an expression that was built is bound to a schema and the
columns of its inputs are found, evaluating it yields a value of its type, or null, in every row. So
the errors for what cannot happen are never seen when a filter is evaluated, and neither are those
for positions, types and parameters.
-/

namespace RowFilter

namespace Bound

/-- The columns that the inputs of an expression bound to a schema are given for a batch, by their
positions in that schema or by name. -/
inductive Resolved (schema : Schema) (inputs : List Field) (batch : Batch) (columns : List Column) :
    Prop
  | byPosition (same : batch.schema = schema)
      (found : (inputs.mapM (Filter.slotIn schema .filter) >>= fun slots =>
        slots.mapM (Filter.columnAt batch)) = .ok columns)
  | byName (found : inputs.mapM (Filter.columnFor batch) = .ok columns)

/-- However they were found, the columns are those of the inputs' names, and the batch declares the
inputs. -/
theorem Resolved.columns_eq {schema : Schema} {e : Expr} {batch : Batch} {columns : List Column}
    (h : Resolved schema e.fields batch columns) (hfault : fault? schema e = none) :
    (∀ f ∈ e.fields, batch.schema.Declares f) ∧ columns = e.fields.map batch.columnOf := by
  cases h with
  | byPosition same found =>
    have hall : ∀ f ∈ e.fields, batch.schema.Declares f := fun f hf =>
      same ▸ Filter.declares_of_mem_fields hfault hf
    rw [← same, Filter.mapM_slotIn .filter hall] at found
    have hcolumns := Filter.mapM_columnAt hall
    exact ⟨hall, Except.ok.inj (found.symm.trans hcolumns)⟩
  | byName found =>
    rw [Filter.mapM_columnFor, unlessFault_eq_ok_iff, Schema.findSome?_fault?_eq_none_iff] at found
    exact ⟨found.1, found.2.symm⟩

section Evaluate

variable {schema : Schema} {e : Expr} {bound : Bound} {inputs : List Field} {batch : Batch}
  {columns : List Column} {row : Nat}

/-- The inputs of a bound expression are its fields. -/
theorem of_bind_eq_ok (hbind : bind schema e [] = .ok (bound, inputs)) :
    fault? schema e = none ∧ inputs = e.fields := by
  rw [bind_eq, unlessFault_eq_ok_iff] at hbind
  obtain ⟨hfault, hplace⟩ := hbind
  exact ⟨hfault, by rw [← place_inputs_nil, hplace]⟩

/-- Columns are found for declared fields only. -/
theorem Resolved.declares (resolved : Resolved schema inputs batch columns)
    (hbind : bind schema e [] = .ok (bound, inputs)) :
    ∀ f ∈ e.fields, batch.schema.Declares f := by
  obtain ⟨hfault, rfl⟩ := of_bind_eq_ok hbind
  exact (resolved.columns_eq hfault).1

/-- Given the columns of its inputs, a bound expression yields what the expression denotes. -/
theorem Resolved.toOption_evaluate (resolved : Resolved schema inputs batch columns)
    (hbind : bind schema e [] = .ok (bound, inputs)) (row : Nat) :
    (bound.evaluate columns.toArray row).toOption = e.denote batch row := by
  obtain ⟨hfault, rfl⟩ := of_bind_eq_ok hbind
  obtain ⟨hall, rfl⟩ := resolved.columns_eq hfault
  have hvalue : (evaluate (e.fields.map batch.columnOf).toArray row (place e []).1).toOption =
      e.denote batch row := toOption_evaluate_place_nil hall
  rw [bind_eq, unlessFault_eq_ok_iff] at hbind
  rw [hbind.2] at hvalue
  exact hvalue

/-- A bound well-typed expression yields a value of its type, or null. -/
theorem exists_evaluate (typed : e.WellTyped) (hbind : bind schema e [] = .ok (bound, inputs))
    (resolved : Resolved schema inputs batch columns) (hrow : row < batch.rows) :
    ∃ v, bound.evaluate columns.toArray row = .ok v ∧ v.HasType e.type := by
  have hvalue := resolved.toOption_evaluate hbind row
  -- the batch is known to declare the fields, but every leaf has to be of its column's type
  have hleaves := declares_of_fault?_eq_none
    (fault?_eq_none_of_fields (of_bind_eq_ok hbind).1 (resolved.declares hbind))
  obtain ⟨v, hv, htype⟩ := typed.exists_denote hrow hleaves
  rw [hv, toOption_eq_some_iff] at hvalue
  exact ⟨v, hvalue, htype⟩

end Evaluate

end Bound

namespace Filter

/-- **Soundness of types**: an expression that was built, over any registries there can be, yields a
value of its type or null in every row of every batch in which its inputs are found. Hence a filter
whose condition was built never reports an internal error, a position out of bounds, types that do
not go together, or an invalid parameter. -/
theorem evaluate_sound {e : Expr} (built : e.Built) (schema : Schema) :
    (∀ bound inputs, Bound.bind schema e [] = .ok (bound, inputs) →
      ∀ (batch : Batch) columns, Bound.Resolved schema inputs batch columns →
        ∀ row < batch.rows, ∃ v, bound.evaluate columns.toArray row = .ok v ∧
          (v = .null ∨ v.type = e.type)) ∧
      ∀ (c : Condition) (f : Filter), c.root = e → make schema c = .ok f →
        ∀ (batch : Batch) (s : Selection) (err : Error), (f.evaluate batch s).1 = .error err →
          err.kind ∉ [ErrorKind.internalError, .indexOutOfBounds, .typeMismatch,
            .invalidParameter] := by
  constructor
  · intro bound inputs hbind batch columns resolved row hrow
    exact Bound.exists_evaluate built.wellTyped hbind resolved hrow
  · intro c f hroot made batch s err herr
    subst hroot
    rw [evaluate_eq_outcome built.wellTyped made] at herr
    have hothers : ∀ kind ∈ [ErrorKind.unknownField, .schemaMismatch, .capacityTooLarge,
        .capacityExceeded], kind ∉ [ErrorKind.internalError, .indexOutOfBounds, .typeMismatch,
          .invalidParameter] := by
      decide
    exact hothers err.kind (Condition.kind_of_outcome herr)

/-- In the sample, whose columns are found by name, every row is true, false or null, and whatever
error a selection may cause is not one of these. -/
theorem sample_sound :
    (∀ row < 5, ∃ v, Sample.filter.expr.evaluate
        (Sample.filter.inputs.map Sample.batch.columnOf).toArray row = .ok v ∧
          (v = .null ∨ v.type = .bool)) ∧
      ∀ (s : Selection) (err : Error), (Sample.filter.evaluate Sample.batch s).1 = .error err →
        err.kind ∉ [ErrorKind.internalError, .indexOutOfBounds, .typeMismatch,
          .invalidParameter] := by
  have made : make Sample.schema Sample.condition = .ok Sample.filter := rfl
  have hbind : Bound.bind Sample.schema Sample.condition.root [] =
      .ok (Sample.filter.expr, Sample.filter.inputs) := rfl
  obtain ⟨hvalues, hkinds⟩ := evaluate_sound Sample.built Sample.schema
  exact ⟨hvalues _ _ hbind Sample.batch _ (.byName rfl),
    hkinds Sample.condition Sample.filter rfl made Sample.batch⟩

end Filter

end RowFilter
