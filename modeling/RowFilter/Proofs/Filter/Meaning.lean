import RowFilter.Proofs.Filter.Making
import RowFilter.Proofs.Filter.Soundness
import RowFilter.Proofs.Selection.Operations

/-!
# What an expression yields and selects

The stages from an expression to its values and to the rows of a filter in three relations: the
expression can be bound and its columns are found (`Expr.Binds`), it yields a value in a row
(`Expr.Yields`), it selects rows (`Expr.Selects`). For well-typed expressions each of them can be
read off the tree: the leaves decide whether the expression binds (`WellTyped.binds_iff`), and then
it yields what it denotes (`Binds.yields_iff`) and selects the rows in which it denotes true
(`WellTyped.selects_trueRows`).
-/

namespace RowFilter

namespace Expr

/-- The expression can be bound to the schema, and the columns of its inputs are found in the
batch. -/
def Binds (schema : Schema) (batch : Batch) (e : Expr) : Prop :=
  ∃ bound inputs columns, Bound.bind schema e [] = .ok (bound, inputs) ∧
    Bound.Resolved schema inputs batch columns

/-- The expression binds, and evaluating its bound form in the row yields the value. -/
def Yields (schema : Schema) (batch : Batch) (row : Nat) (e : Expr) (v : Value) : Prop :=
  e.Binds schema batch ∧ ∀ bound inputs columns, Bound.bind schema e [] = .ok (bound, inputs) →
    Bound.Resolved schema inputs batch columns → bound.evaluate columns.toArray row = .ok v

/-- As a condition the expression makes a filter for the schema. On the batch the filter succeeds
with every selection that has a slot for each row, and with whatever selection it succeeds, it finds
just the given rows. -/
def Selects (schema : Schema) (batch : Batch) (e : Expr) (rows : List Nat) : Prop :=
  ∃ c f, Condition.make e = .ok c ∧ Filter.make schema c = .ok f ∧
    (∀ s : Selection, s.Reachable → batch.rows ≤ s.capacity →
      ∃ found, f.select batch s = .ok found) ∧
    ∀ s found, f.select batch s = .ok found → found.rows = rows

/-- The rows in which the expression denotes true, in ascending order, as for a condition. -/
def trueRows (batch : Batch) (e : Expr) : List Nat :=
  (List.range batch.rows).filter fun row => e.denote batch row = some (.bool true)

variable {schema : Schema} {batch : Batch} {e : Expr} {row : Nat}

theorem mem_trueRows_iff :
    row ∈ e.trueRows batch ↔ row < batch.rows ∧ e.denote batch row = some (.bool true) := by
  rw [trueRows, List.mem_filter, List.mem_range, decide_eq_true_iff]

theorem trueRows_congr {e' : Expr}
    (h : ∀ row < batch.rows, e.denote batch row = e'.denote batch row) :
    e.trueRows batch = e'.trueRows batch :=
  List.filter_congr fun row hrow => by rw [h row (List.mem_range.mp hrow)]

/-- The schema and the batch declare the leaves of an expression that binds. -/
theorem Binds.declares (h : e.Binds schema batch) :
    ∀ f ∈ e.leaves, schema.Declares f ∧ batch.schema.Declares f := by
  obtain ⟨bound, inputs, columns, hbind, resolved⟩ := h
  have hfault := (Bound.of_bind_eq_ok hbind).1
  have hbatch := Bound.fault?_eq_none_of_fields hfault (resolved.declares hbind)
  intro f hf
  exact ⟨Bound.declares_of_fault?_eq_none hfault f hf,
    Bound.declares_of_fault?_eq_none hbatch f hf⟩

/-- That is all it takes. -/
theorem WellTyped.binds_iff (typed : e.WellTyped) :
    e.Binds schema batch ↔ ∀ f ∈ e.leaves, schema.Declares f ∧ batch.schema.Declares f := by
  refine ⟨Binds.declares, fun h => ?_⟩
  have hfault : Bound.fault? schema e = none :=
    (Bound.fault?_eq_none_iff typed).mpr fun f hf => (h f hf).1
  have hfields : ∀ f ∈ e.fields, batch.schema.Declares f := fun f hf =>
    (h f (mem_leaves_of_mem_fields hf)).2
  refine ⟨(Bound.place e []).1, e.fields, e.fields.map batch.columnOf, ?_, .byName ?_⟩
  · rw [Bound.bind_eq, hfault, unlessFault_none, ← Bound.place_inputs_nil]
  · rw [Filter.mapM_columnFor, Schema.findSome?_fault?_eq_none_iff.mpr hfields, unlessFault_none]

/-- An expression that binds yields what it denotes. -/
theorem Binds.yields_iff (h : e.Binds schema batch) {v : Value} :
    e.Yields schema batch row v ↔ e.denote batch row = some v := by
  constructor
  · rintro ⟨⟨bound, inputs, columns, hbind, resolved⟩, hall⟩
    have hvalue := hall bound inputs columns hbind resolved
    rw [← toOption_eq_some_iff, resolved.toOption_evaluate hbind row] at hvalue
    exact hvalue
  · intro hv
    refine ⟨h, fun bound inputs columns hbind resolved => ?_⟩
    rw [← toOption_eq_some_iff, resolved.toOption_evaluate hbind row]
    exact hv

/-- A boolean expression selects the rows in which it denotes true. -/
theorem WellTyped.selects_trueRows (typed : e.WellTyped) (isBool : e.type = .bool)
    (h : e.Binds schema batch) : e.Selects schema batch (e.trueRows batch) := by
  have hfault : Bound.fault? schema e = none :=
    (Bound.fault?_eq_none_iff typed).mpr fun f hf => (h.declares f hf).1
  have hbatch : Bound.fault? batch.schema e = none :=
    (Bound.fault?_eq_none_iff typed).mpr fun f hf => (h.declares f hf).2
  have made : Filter.make schema ⟨e, isBool⟩ = .ok (.bound schema ⟨e, isBool⟩) :=
    Filter.make_eq_ok_iff.mpr ⟨hfault, rfl⟩
  refine ⟨⟨e, isBool⟩, _, dif_pos isBool, made, fun s hs hlarge => ?_, fun s found hfound => ?_⟩
  · obtain ⟨found, hfound, -⟩ :=
      Filter.exists_select typed hfault hbatch (hs.valid.suffices hlarge ⟨e, isBool⟩)
    exact ⟨found, hfound⟩
  · obtain ⟨n, done⟩ := Filter.exists_evaluate_of_select hfound
    exact (Filter.found_of_evaluate_ok made done).2.1

end Expr

end RowFilter
