import RowFilter.Proofs.Filter.Selecting
import RowFilter.Proofs.Kernel.Information
import RowFilter.Proofs.View.Materialize

/-!
# One filter after another

The rows that a filter has found can be made a batch of their own, and another filter can be applied
to that. Main result: `select_twice`. This finds the same rows, in the same order, as the
conjunction of the two conditions finds in the first batch.
-/

namespace RowFilter

/-- Positions in a list that are kept for what stands there lead to what is kept of the list. -/
theorem map_getElem?_filter_range {α : Type} {l : List α} {p : Nat → Bool} {q : α → Bool}
    (h : ∀ i a, l[i]? = some a → p i = q a) :
    ((List.range l.length).filter p).map (l[·]?) = (l.filter q).map some := by
  have hall : (List.range l.length).map (l[·]?) = l.map some :=
    List.ext_getElem (by simp) fun i _ _ => by simp
  have hp : (List.range l.length).filter p =
      (List.range l.length).filter (Option.any q ∘ (l[·]?)) := by
    refine List.filter_congr fun i hi => ?_
    have hget := List.getElem?_eq_getElem (List.mem_range.mp hi)
    rw [Function.comp_apply, hget, Option.any_some]
    exact h i _ hget
  rw [hp, ← List.filter_map, hall, List.filter_map]
  rfl

namespace Condition

variable {p q : Condition} {batch : Batch} {s : Selection}

/-- The rows in which a condition is true in the batch of a selection stand for the selected rows in
which it is true. -/
theorem map_matching_gather (h : ∀ row ∈ s.rows, row < batch.rows) :
    (q.matching (batch.gather s h)).map s.get? =
      (s.rows.filter fun row => q.root.denote batch row = some (.bool true)).map some := by
  have hget : s.get? = (s.rows[·]?) := funext fun i => (s.getElem?_rows i).symm
  rw [hget, matching, Batch.rows_gather, ← s.length_rows]
  refine map_getElem?_filter_range fun i row hrow => ?_
  rw [Expr.denote_gather h q.root hrow]

/-- A condition that is true in all the selected rows is true in every row of their batch. -/
theorem matching_gather (h : ∀ row ∈ s.rows, row < batch.rows)
    (htrue : ∀ row ∈ s.rows, p.root.denote batch row = some (.bool true)) :
    p.matching (batch.gather s h) = List.range s.length := by
  refine List.filter_eq_self.mpr fun i hi => ?_
  have hi : i < s.rows.length := s.length_rows ▸ List.mem_range.mp hi
  rw [decide_eq_true_iff, Expr.denote_gather h p.root (List.getElem?_eq_getElem hi)]
  exact htrue _ (List.getElem_mem hi)

/-- The conjunction is true in the rows in which both conditions are. -/
theorem matching_call_and {signature : Signature} (hret : signature.ret = .bool)
    (hk : signature.kernel = .and) (hp : ∀ row < batch.rows, p.Decided batch row)
    (hq : ∀ row < batch.rows, q.Decided batch row) :
    matching ⟨.call signature [p.root, q.root], hret⟩ batch =
      (p.matching batch).filter fun row => q.root.denote batch row = some (.bool true) := by
  rw [matching, matching, List.filter_filter]
  refine List.filter_congr fun row hrow => ?_
  obtain ⟨v, hv, -⟩ := hp row (List.mem_range.mp hrow)
  obtain ⟨w, hw, -⟩ := hq row (List.mem_range.mp hrow)
  have hcall : (signature.kernel.call [v, w]).toOption = some (Kernel.conjunction v w) := by
    rw [hk]
    rfl
  rw [← Bool.decide_and, decide_eq_decide, Expr.denote_call_two signature hv hw, hcall, hv, hw,
    Option.some_inj, Option.some_inj, Option.some_inj, Kernel.conjunction_eq_true_iff, and_comm]

end Condition

namespace Filter

section Both

variable {p q : Condition} {batch : Batch}

/-- The conjunction of two conditions makes a filter too, which finds the rows of the first
condition in which the second is true. -/
theorem exists_filter_and (hp : p.root.WellTyped) (hq : q.root.WellTyped)
    (hpfault : Bound.fault? batch.schema p.root = none)
    (hqfault : Bound.fault? batch.schema q.root = none) :
    ∃ h : Filter, Builder.standard.filter batch.schema "and" [p.root, q.root] = .ok h ∧
      ∀ s : Selection, s.Suffices h.condition batch →
        ∃ both, h.select batch s = .ok both ∧ both.rows =
          (p.matching batch).filter fun row => q.root.denote batch row = some (.bool true) := by
  have hresolve : Builder.standard.registry.resolve "and" ([p.root, q.root].map Expr.type) =
      .ok (Registry.builtinSignature .and [.bool, .bool] .bool) := by
    rw [List.map_cons, List.map_singleton, p.isBool, q.isBool]
    rfl
  have htyped : ∀ a ∈ [p.root, q.root], a.WellTyped := by
    simpa using ⟨hp, hq⟩
  have hfaults : ∀ a ∈ [p.root, q.root], Bound.fault? batch.schema a = none := by
    simpa using ⟨hpfault, hqfault⟩
  obtain ⟨h, hh, hcondition, hselect⟩ :=
    Builder.exists_filter_of_resolve .builtin hresolve rfl htyped hfaults
  refine ⟨h, hh, fun s hs => ?_⟩
  obtain ⟨both, hboth, hrows⟩ := hselect batch hfaults s hs
  refine ⟨both, hboth, ?_⟩
  rw [hrows, hcondition]
  exact Condition.matching_call_and rfl rfl
    (fun row => p.decided_of_wellTyped hp hpfault fun g => declares_of_mem_fields hpfault)
    (fun row => q.decided_of_wellTyped hq hqfault fun g => declares_of_mem_fields hqfault)

end Both

/-- **Filtering twice is filtering by the conjunction**: the rows that a condition selects make a
batch, in which the condition selects every row. What a second condition selects there stands for
the rows that the conjunction of both selects from the first batch. -/
theorem select_twice {p q : Condition} (hp : p.root.Built) (hq : q.root.Built) {batch : Batch}
    {f g : Filter} (hf : make batch.schema p = .ok f) (hg : make batch.schema q = .ok g)
    {s : Selection} (hs : s.Suffices p batch) :
    ∃ h found narrow, Builder.standard.filter batch.schema "and" [p.root, q.root] = .ok h ∧
      f.select batch s = .ok found ∧ batch.materialize found = .ok narrow ∧
      (∀ s' : Selection, s'.Suffices p narrow →
        ∃ all, f.select narrow s' = .ok all ∧ all.rows = List.range found.length) ∧
      ∀ s' s'' : Selection, s'.Suffices q narrow → s''.Suffices h.condition batch →
        ∃ rest both, g.select narrow s' = .ok rest ∧ h.select batch s'' = .ok both ∧
          rest.rows.map found.get? = both.rows.map some := by
  obtain ⟨hpfault, rfl⟩ := make_eq_ok_iff.mp hf
  obtain ⟨hqfault, rfl⟩ := make_eq_ok_iff.mp hg
  -- the rows found by the first condition make a batch of the same schema
  obtain ⟨found, hfound, hrows⟩ := exists_select hp.wellTyped hpfault hpfault hs
  have hmem : ∀ row ∈ found.rows,
      row < batch.rows ∧ p.root.denote batch row = some (.bool true) := fun row hrow => by
    rw [hrows] at hrow
    exact Condition.mem_matching_iff.mp hrow
  have hin : ∀ row ∈ found.rows, row < batch.rows := fun row hrow => (hmem row hrow).1
  obtain ⟨h, hh, hselect⟩ := exists_filter_and hp.wellTyped hq.wellTyped hpfault hqfault
  refine ⟨h, found, batch.gather found hin, hh, hfound, Batch.materialize_eq hin, fun s' hs' => ?_,
    fun s' s'' hs' hs'' => ?_⟩
  · obtain ⟨all, hall, hallRows⟩ := exists_select hp.wellTyped hpfault
      (Batch.schema_gather hin ▸ hpfault) hs'
    refine ⟨all, hall, ?_⟩
    rw [hallRows, Condition.matching_gather hin fun row hrow => (hmem row hrow).2]
  · obtain ⟨rest, hrest, hrestRows⟩ := exists_select hq.wellTyped hqfault
      (Batch.schema_gather hin ▸ hqfault) hs'
    obtain ⟨both, hboth, hbothRows⟩ := hselect s'' hs''
    refine ⟨rest, both, hrest, hboth, ?_⟩
    rw [hrestRows, Condition.map_matching_gather hin, hbothRows, hrows]

/-- In the batch of the rows 0 and 2 of the sample, the amount is null in the second row, and row 2
is where the conjunction is true. -/
theorem sample_twice :
    ∃ h narrow,
      Builder.standard.filter Sample.batch.schema "and" [Sample.condition.root, Sample.absent] =
        .ok h ∧
      (bound Sample.batch.schema Sample.condition).select Sample.batch (.empty .uint16 5) =
        .ok ⟨.uint16 #[0, 2], 5⟩ ∧
      Sample.batch.materialize ⟨.uint16 #[0, 2], 5⟩ = .ok narrow ∧
      (bound Sample.batch.schema ⟨Sample.absent, rfl⟩).select narrow (.empty .uint16 5) =
        .ok ⟨.uint16 #[1], 5⟩ ∧
      h.select Sample.batch (.empty .uint16 5) = .ok ⟨.uint16 #[2], 5⟩ ∧
      [1].map (Selection.mk (.uint16 #[0, 2]) 5).get? = [2].map some := by
  have hf : make Sample.batch.schema Sample.condition =
      .ok (bound Sample.batch.schema Sample.condition) := rfl
  have hg : make Sample.batch.schema ⟨Sample.absent, rfl⟩ =
      .ok (bound Sample.batch.schema ⟨Sample.absent, rfl⟩) := rfl
  obtain ⟨h, found, narrow, hh, hfound, hnarrow, -, hrest⟩ :=
    select_twice Sample.built Sample.built_absent hf hg (s := .empty .uint16 5)
      ⟨by decide, by decide⟩
  cases hh
  cases hfound
  cases hnarrow
  obtain ⟨rest, both, hrest, hboth, hrows⟩ :=
    hrest (.empty .uint16 5) (.empty .uint16 5) ⟨by decide, by decide⟩ ⟨by decide, by decide⟩
  cases hrest
  cases hboth
  exact ⟨_, _, rfl, rfl, rfl, rfl, rfl, hrows⟩

end Filter

end RowFilter
