import RowFilter.Proofs.Filter.Outcome
import RowFilter.Proofs.Selection.Operations

/-!
# Selecting rows

`Filter.select` is an evaluation seen from its result: the selection with the rows found, or the
error. For conditions that were built, `Selection.Suffices` says which selections are large enough
for a batch: `exists_select_iff` has it that these are the ones for which an evaluation succeeds,
and a selection with a slot for every row is one of them (`Selection.Valid.suffices`). A condition
is often a call over other expressions; `exists_filter_of_resolve` makes its filter and says what
that selects. Main result: `evaluate_sized`. With a slot for every row an evaluation fails for
fields alone, whatever the selection was used for before.
-/

namespace RowFilter

/-- The selection is large enough for the rows that a condition selects from a batch: the index type
holds the last row of the batch, and there is a slot for every matching row. -/
structure Selection.Suffices (s : Selection) (c : Condition) (batch : Batch) : Prop where
  range : batch.rows ≤ s.maxRow + 1
  room : (c.matching batch).length ≤ s.capacity

/-- A slot for every row is enough. -/
theorem Selection.Valid.suffices {s : Selection} (h : s.Valid) {batch : Batch}
    (hrows : batch.rows ≤ s.capacity) (c : Condition) : s.Suffices c batch where
  range := by
    have := h.range
    omega
  room := by
    have hlength : (c.matching batch).length ≤ (List.range batch.rows).length :=
      List.length_filter_le _ _
    rw [List.length_range] at hlength
    exact Nat.le_trans hlength hrows

namespace Filter

/-- The selection with the rows that an evaluation finds. -/
def select (f : Filter) (batch : Batch) (s : Selection) : Except Error Selection :=
  match f.evaluate batch s with
  | (.ok _, s') => .ok s'
  | (.error e, _) => .error e

theorem exists_select_iff_evaluate {f : Filter} {batch : Batch} {s : Selection} :
    (∃ s', f.select batch s = .ok s') ↔ ∃ n, (f.evaluate batch s).1 = .ok n := by
  rw [select]
  cases f.evaluate batch s with
  | mk result s' =>
    cases result with
    | error e => simp
    | ok n => simp

/-- What is found is what a successful evaluation leaves. -/
theorem exists_evaluate_of_select {f : Filter} {batch : Batch} {s s' : Selection}
    (h : f.select batch s = .ok s') : ∃ n, f.evaluate batch s = (.ok n, s') := by
  rw [select] at h
  cases hdone : f.evaluate batch s with
  | mk result found =>
    rw [hdone] at h
    cases result with
    | error e => cases h
    | ok n => cases h; exact ⟨n, rfl⟩

theorem eq_of_select {f : Filter} {batch : Batch} {s s' : Selection}
    (h : f.select batch s = .ok s') : s' = (f.evaluate batch s).2 := by
  obtain ⟨n, hdone⟩ := exists_evaluate_of_select h
  rw [hdone]

section Bound

variable {schema : Schema} {c : Condition} {batch : Batch} {s : Selection}

/-- Just the selections that are large enough let an evaluation succeed. -/
theorem exists_select_iff (typed : c.root.WellTyped) (h : Bound.fault? schema c.root = none)
    (hbatch : Bound.fault? batch.schema c.root = none) :
    (∃ s', (bound schema c).select batch s = .ok s') ↔ s.Suffices c batch := by
  have hall : ∀ f ∈ c.fields, batch.schema.Declares f := fun f hf =>
    declares_of_mem_fields hbatch hf
  have made : make schema c = .ok (bound schema c) := make_eq_ok_iff.mpr ⟨h, rfl⟩
  rw [exists_select_iff_evaluate, evaluate_eq_outcome typed made]
  by_cases hlong : 0 < batch.rows ∧ s.maxRow < batch.rows - 1
  · rw [Condition.outcome_of_tooLong hall hlong]
    constructor
    · rintro ⟨n, hn⟩
      cases hn
    · intro hs
      have := hs.range
      omega
  · cases hroom : (c.matching batch)[s.capacity]? with
    | some row =>
      rw [Condition.outcome_of_full hall hlong hroom]
      have hless := (List.getElem?_eq_some_iff.mp hroom).1
      constructor
      · rintro ⟨n, hn⟩
        cases hn
      · intro hs
        have := hs.room
        omega
    | none =>
      rw [Condition.outcome_of_room hall hlong hroom]
      exact ⟨fun _ => ⟨by omega, List.getElem?_eq_none_iff.mp hroom⟩, fun _ => ⟨_, rfl⟩⟩

/-- A selection that is large enough gets the matching rows. -/
theorem exists_select (typed : c.root.WellTyped) (h : Bound.fault? schema c.root = none)
    (hbatch : Bound.fault? batch.schema c.root = none) (hs : s.Suffices c batch) :
    ∃ s', (bound schema c).select batch s = .ok s' ∧ s'.rows = c.matching batch := by
  obtain ⟨s', hs'⟩ := (exists_select_iff typed h hbatch).mpr hs
  have hall : ∀ f ∈ c.root.fields, batch.schema.Declares f := fun f hf =>
    declares_of_mem_fields hbatch hf
  have hfits : ¬(0 < batch.rows ∧ s.maxRow < batch.rows - 1) := by
    have := hs.range
    omega
  refine ⟨s', hs', ?_⟩
  rw [eq_of_select hs', (evaluate_bound h hall hfits fun row hrow =>
    c.decided_of_wellTyped typed h hall hrow).2]
  exact List.take_of_length_le hs.room

end Bound

end Filter

/-! ## Conditions that are calls -/

/-- The filter of a call, as a condition of its own. -/
def Builder.filter (b : Builder) (schema : Schema) (name : String) (args : List Expr) :
    Except Error Filter := do
  let root ← b.call name args .bool
  let c ← Condition.make root
  Filter.make schema c

/-- If the operands can be bound to a schema, so can a call of a few. -/
theorem Bound.fault?_call {schema : Schema} {signature : Signature} {args : List Expr}
    (hfew : args.length ≤ maxOperands) (h : ∀ a ∈ args, fault? schema a = none) :
    fault? schema (.call signature args) = none := by
  rw [fault?, if_neg (Nat.not_lt.mpr hfew)]
  exact faultList?_eq_none_iff.mpr h

/-- No kernel takes more operands than a call may have. -/
theorem Kernel.Typing.length_le {k : Kernel} {args : List DataType} {ret : DataType}
    (h : Typing k args ret) : args.length ≤ Bound.maxOperands := by
  have hlength := h.length_eq
  rw [Bound.maxOperands]
  omega

section Calls

variable {b : Builder} {name : String} {args : List Expr} {signature : Signature}

/-- A boolean function of well-typed operands makes a filter, for every schema that the operands can
be bound to. In a batch with their fields it selects the rows in which the call is true. -/
theorem Builder.exists_filter_of_resolve (registry : b.registry.Reachable)
    (hresolve : b.registry.resolve name (args.map Expr.type) = .ok signature)
    (hret : signature.ret = .bool) (typed : ∀ a ∈ args, a.WellTyped) {schema : Schema}
    (h : ∀ a ∈ args, Bound.fault? schema a = none) :
    ∃ f : Filter, b.filter schema name args = .ok f ∧ f.condition = ⟨.call signature args, hret⟩ ∧
      ∀ batch : Batch, (∀ a ∈ args, Bound.fault? batch.schema a = none) →
        ∀ s : Selection, s.Suffices f.condition batch →
          ∃ s', f.select batch s = .ok s' ∧ s'.rows = f.condition.matching batch := by
  have hcall := call_of_resolve hresolve hret
  have htyped : (Expr.call signature args).WellTyped :=
    Expr.wellTyped_of_call registry typed hcall
  have hfew : args.length ≤ Bound.maxOperands := by
    obtain ⟨hmem, -, htypes⟩ := Registry.mem_of_resolve hresolve
    have hle := (Kernel.typing_of_accepts (registry.fits signature hmem)).length_le
    rwa [htypes, List.length_map] at hle
  have hfault : Bound.fault? schema (.call signature args) = none := Bound.fault?_call hfew h
  refine ⟨Filter.bound schema ⟨.call signature args, hret⟩, ?_, rfl, fun batch hbatch s hs => ?_⟩
  · have hcondition : Condition.make (.call signature args) = .ok ⟨.call signature args, hret⟩ :=
      dif_pos hret
    rw [filter, hcall, ok_bind, hcondition, ok_bind, Filter.make_eq, hfault, unlessFault_none]
  · exact Filter.exists_select htyped hfault (Bound.fault?_call hfew hbatch) hs

end Calls

/-! ## A slot for every row -/

namespace Filter

/-- **A slot for every row is enough**: whatever was done to a selection since it was allocated with
as many slots as a batch has rows, evaluating a filter of a condition that was built fails only if
the batch does not declare an input. So no evaluation runs out of slots or of row numbers, whatever
the index type is and however many rows match. -/
theorem evaluate_sized {schema : Schema} {c : Condition} {f : Filter} (built : c.root.Built)
    (bound : make schema c = .ok f) {grants : Nat → Bool} {budget after : Budget}
    {type : IndexType} {capacity : Nat} {s : Selection}
    (made : Selection.allocate grants budget type capacity = (.ok s, after))
    (ops : List Selection.Operation) {batch : Batch} (sized : batch.rows ≤ capacity) :
    ((∃ n found, f.evaluate batch (s.run ops) = (.ok n, found)) ↔
      ∀ g ∈ f.inputs, ∃ declared ∈ batch.schema.fields,
        declared.name = g.name ∧ declared.type = g.type) ∧
    (∀ n found, f.evaluate batch (s.run ops) = (.ok n, found) →
      found.rows = c.matching batch ∧ n = (c.matching batch).length) ∧
    ∀ e, (f.evaluate batch (s.run ops)).1 = .error e →
      e.kind = .unknownField ∨ e.kind = .schemaMismatch := by
  have hinputs : f.inputs = c.fields := by
    obtain ⟨-, rfl⟩ := make_eq_ok_iff.mp bound
    rfl
  have hsuffices : (s.run ops).Suffices c batch := by
    obtain ⟨rfl, hle⟩ := Selection.of_allocate_eq_ok made
    refine ((Selection.valid_empty hle).run ops).suffices ?_ c
    rw [Selection.capacity_run]
    exact sized
  have hfits : ¬(0 < batch.rows ∧ (s.run ops).maxRow < batch.rows - 1) := by
    have := hsuffices.range
    omega
  have hcomes := comesTo_evaluate built bound batch (s.run ops)
  -- of the four clauses only the first is left
  have hcounted : (∀ g ∈ c.fields, batch.schema.Declares g) →
      (f.evaluate batch (s.run ops)).1 = .ok (c.matching batch).length := fun hall =>
    hcomes.counted hall hfits hsuffices.room
  rw [hinputs]
  simp only [← Schema.declares_iff_mem]
  refine ⟨⟨?_, ?_⟩, ?_, ?_⟩
  · intro ⟨n, found, done⟩ g hg
    apply Classical.byContradiction
    intro hnot
    obtain ⟨e, he, -⟩ := hcomes.undeclared.mpr ⟨g, hg, hnot⟩
    rw [done] at he
    cases he
  · intro hall
    exact ⟨_, _, Prod.ext (hcounted hall) rfl⟩
  · intro n found done
    obtain ⟨-, hrows, hlength⟩ := found_of_evaluate_ok bound done
    exact ⟨hrows, by rw [← hlength, ← Selection.length_rows, hrows]⟩
  · intro e he
    have hsome : ∃ g ∈ c.fields, ¬batch.schema.Declares g := by
      apply Classical.byContradiction
      intro hnone
      rw [hcounted fun g hg => Classical.byContradiction fun hnot => hnone ⟨g, hg, hnot⟩] at he
      cases he
    obtain ⟨e', he', hkind⟩ := hcomes.undeclared.mpr hsome
    rw [he] at he'
    cases he'
    exact hkind

end Filter

/-- A condition that is true in every row. -/
def Sample.always : Condition where
  root := .literal (.bool true) .bool
  isBool := rfl

/-- Rows without columns, as many as a selection of 16 bits can have slots. -/
def Sample.tall : Batch where
  schema := .empty
  rows := 65535
  columns := []
  consistent := Batch.firstFault_eq_none_iff.mp (by decide)

/-- All the rows find their slots in a selection that has just as many and was used before. -/
theorem Filter.sample_sized :
    ∃ found, (Filter.bound .empty Sample.always).evaluate Sample.tall
        ((Selection.empty .uint16 65535).run [.append 65535, .append 65536]) =
      (.ok 65535, found) := by
  have built : Sample.always.root.Built := .literal (v := .bool true) rfl
  have bound : make .empty Sample.always = .ok (.bound .empty Sample.always) := rfl
  have made : Selection.allocate Selection.addressable .unlimited .uint16 65535 =
      (.ok (.empty .uint16 65535), .counted 0 131070) := rfl
  have sized : Sample.tall.rows ≤ 65535 := Nat.le_refl _
  obtain ⟨hok, hfound, -⟩ := evaluate_sized built bound made [.append 65535, .append 65536] sized
  obtain ⟨n, found, done⟩ := hok.mpr nofun
  obtain ⟨-, hn⟩ := hfound n found done
  -- no row is left out
  have hall : Sample.always.matching Sample.tall = List.range 65535 :=
    List.filter_eq_self.mpr fun _ _ => rfl
  rw [hall, List.length_range] at hn
  subst hn
  exact ⟨found, done⟩

end RowFilter
