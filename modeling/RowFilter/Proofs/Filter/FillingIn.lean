import RowFilter.Proofs.Expr.Locality
import RowFilter.Proofs.Filter.Selecting
import RowFilter.Proofs.Filter.Soundness
import RowFilter.Proofs.Kernel.Information

/-!
# Filling in nulls

A batch is filled in when some of its nulls are replaced by values. An expression that nowhere tests
for null may come to a value where it was null before, but no value of it changes. Main result:
`select_of_filledIn`. So a condition still selects the rows it selected, and so does its negation.
-/

namespace RowFilter

/-- The second batch has the cells that the first has in the fields, except that it may have any
where the first has nulls. -/
structure Batch.FilledIn (batch filled : Batch) (fields : List Field) : Prop where
  rows : filled.rows = batch.rows
  cells : ∀ f ∈ fields, ∀ row < batch.rows,
    batch.cell? f row = some .null ∨ filled.cell? f row = batch.cell? f row

namespace Expr

mutual

/-- The kernels of the calls, from left to right, each as often as it is called. -/
def kernels : Expr → List Kernel
  | field _ => []
  | literal _ _ => []
  | call signature args => signature.kernel :: kernelsList args

def kernelsList : List Expr → List Kernel
  | [] => []
  | e :: es => e.kernels ++ kernelsList es

end

theorem mem_kernelsList {a : Expr} {args : List Expr} {k : Kernel} (ha : a ∈ args)
    (hk : k ∈ a.kernels) : k ∈ kernelsList args := by
  induction args with
  | nil => cases ha
  | cons e es ih =>
    rw [kernelsList, List.mem_append]
    rcases List.mem_cons.mp ha with rfl | hrest
    · exact Or.inl hk
    · exact Or.inr (ih hrest)

/-- No call tests for null. -/
def Untested (e : Expr) : Prop := .isNull ∉ e.kernels ∧ .isNotNull ∉ e.kernels

theorem Untested.kernel {signature : Signature} {args : List Expr}
    (h : (Expr.call signature args).Untested) :
    signature.kernel ≠ .isNull ∧ signature.kernel ≠ .isNotNull := by
  rw [Untested, kernels, List.mem_cons, List.mem_cons, not_or, not_or] at h
  exact ⟨Ne.symm h.1.1, Ne.symm h.2.1⟩

theorem Untested.operand {signature : Signature} {args : List Expr}
    (h : (Expr.call signature args).Untested) {a : Expr} (ha : a ∈ args) : a.Untested := by
  rw [Untested, kernels] at h
  exact ⟨fun hk => h.1 (List.mem_cons_of_mem _ (mem_kernelsList ha hk)),
    fun hk => h.2 (List.mem_cons_of_mem _ (mem_kernelsList ha hk))⟩

theorem Untested.call_one {signature : Signature} {e : Expr} (h : e.Untested)
    (hk : signature.kernel ≠ .isNull ∧ signature.kernel ≠ .isNotNull) :
    (Expr.call signature [e]).Untested := by
  rw [Untested, kernels, kernelsList, kernelsList, List.append_nil, List.mem_cons, List.mem_cons,
    not_or, not_or]
  exact ⟨⟨Ne.symm hk.1, h.1⟩, Ne.symm hk.2, h.2⟩

section Refined

variable {b filled : Batch} {row : Nat}

theorem exists_denoteList_refinedBy {args : List Expr}
    (h : ∀ a ∈ args, ∀ v, a.denote b row = some v →
      ∃ w, a.denote filled row = some w ∧ v.RefinedBy w)
    {vs : List Value} (hvs : denoteList b row args = some vs) :
    ∃ ws, denoteList filled row args = some ws ∧ List.Forall₂ Value.RefinedBy vs ws := by
  induction args generalizing vs with
  | nil =>
    cases hvs
    exact ⟨[], rfl, .nil⟩
  | cons a args ih =>
    rw [denoteList, Option.bind_eq_some_iff] at hvs
    obtain ⟨v, hv, hrest⟩ := hvs
    obtain ⟨vs', hvs', rfl⟩ := Option.map_eq_some_iff.mp hrest
    obtain ⟨w, hw, hrefined⟩ := h a (List.mem_cons_self ..) v hv
    obtain ⟨ws, hws, hall⟩ := ih (fun a ha => h a (List.mem_cons_of_mem _ ha)) hvs'
    refine ⟨w :: ws, ?_, .cons hrefined hall⟩
    rw [denoteList, hw, hws]
    rfl

/-- **Values stay**: what an expression denotes in a row is refined by what it denotes when nulls
among its cells are filled in. -/
theorem WellTyped.exists_denote_refinedBy {e : Expr} (typed : e.WellTyped) (untested : e.Untested)
    (hrow : row < filled.rows) (declared : ∀ f ∈ e.leaves, filled.schema.Declares f)
    (cells : ∀ f ∈ e.leaves, b.cell? f row = some .null ∨ filled.cell? f row = b.cell? f row)
    {v : Value} (hv : e.denote b row = some v) :
    ∃ w, e.denote filled row = some w ∧ v.RefinedBy w := by
  induction typed generalizing v with
  | field f =>
    have hf := List.mem_singleton_self f
    rw [denote_field] at hv ⊢
    rcases cells f hf with hnull | hsame
    · obtain ⟨w, hw, -⟩ := Batch.exists_cell? (declared f hf) hrow
      rw [hnull, Option.some_inj] at hv
      exact ⟨w, hw, Or.inl hv.symm⟩
    · exact ⟨v, hsame.trans hv, .refl v⟩
  | literal =>
    exact ⟨v, hv, .refl v⟩
  | @call signature args fits types operands ih =>
    rw [denote_call, Option.bind_eq_some_iff] at hv
    obtain ⟨vs, hvs, hcall⟩ := hv
    obtain ⟨ws, hws, hrefined⟩ := exists_denoteList_refinedBy (fun a ha v hv =>
      ih a ha (untested.operand ha) (fun f hf => declared f (mem_leavesList ha hf))
        (fun f hf => cells f (mem_leavesList ha hf)) hv) hvs
    by_cases hnull : v = .null
    · -- there is some value, and nothing more to say about it
      obtain ⟨w, hw, -⟩ := (WellTyped.call fits types operands).exists_denote hrow declared
      exact ⟨w, hw, Or.inl hnull⟩
    · refine ⟨v, ?_, .refl v⟩
      rw [denote_call, hws]
      rw [toOption_eq_some_iff] at hcall
      exact toOption_eq_some_iff.mpr
        (Kernel.call_eq_of_refinedBy untested.kernel hrefined hcall hnull)

/-- The same, with the fields in the place of the leaves. -/
theorem WellTyped.denote_filledIn {e : Expr} (typed : e.WellTyped) (untested : e.Untested)
    {schema : Schema} (hfault : Bound.fault? schema e = none)
    (declared : ∀ f ∈ e.fields, filled.schema.Declares f) (h : b.FilledIn filled e.fields)
    (hrow : row < b.rows) {v : Value} (hv : e.denote b row = some v) (hsome : v ≠ .null) :
    e.denote filled row = some v := by
  have hleaves : ∀ f ∈ e.leaves, filled.schema.Declares f :=
    Bound.declares_of_fault?_eq_none (Bound.fault?_eq_none_of_fields hfault declared)
  have hcells : ∀ f ∈ e.leaves,
      b.cell? f row = some .null ∨ filled.cell? f row = b.cell? f row := fun f hf => by
    obtain ⟨g, hg, hname⟩ := exists_mem_fields hf
    rw [← Batch.cell?_congr hname, ← Batch.cell?_congr hname]
    exact h.cells g hg row hrow
  obtain ⟨w, hw, hnull | rfl⟩ :=
    typed.exists_denote_refinedBy untested (h.rows ▸ hrow) hleaves hcells hv
  · exact absurd hnull hsome
  · exact hw

end Refined

theorem fields_call_one (signature : Signature) (e : Expr) :
    (Expr.call signature [e]).fields = e.fields := by
  rw [fields, leaves, leavesList, leavesList, List.append_nil, fields]

/-- The negation has one overload. -/
theorem exists_of_call_not {e root : Expr} (h : Builder.standard.call "not" [e] .bool = .ok root) :
    ∃ signature : Signature, root = .call signature [e] ∧ signature.kernel = .not := by
  obtain ⟨signature, hresolve, -, rfl⟩ := exists_of_call h
  refine ⟨signature, rfl, ?_⟩
  rw [List.map_singleton] at hresolve
  cases htype : e.type with
  | bool =>
    rw [htype] at hresolve
    cases hresolve
    rfl
  | null | int64 | float64 =>
    rw [htype] at hresolve
    cases hresolve

end Expr

namespace Filter

section Conditions

variable {c : Condition} {schema : Schema} {batch filled : Batch}

/-- A condition that can be bound selects no fewer rows from a batch that was filled in. -/
theorem subset_of_filledIn (typed : c.root.WellTyped) (untested : c.root.Untested)
    (hfault : Bound.fault? schema c.root = none)
    (declared : ∀ f ∈ c.fields, batch.schema.Declares f)
    (declared' : ∀ f ∈ c.fields, filled.schema.Declares f)
    (h : batch.FilledIn filled c.fields) :
    ∃ f, make schema c = .ok f ∧ ∀ s s' : Selection, s.Suffices c batch → s'.Suffices c filled →
      ∃ found found', f.select batch s = .ok found ∧ f.select filled s' = .ok found' ∧
        found.rows ⊆ found'.rows := by
  refine ⟨bound schema c, make_eq_ok_iff.mpr ⟨hfault, rfl⟩, fun s s' hs hs' => ?_⟩
  obtain ⟨found, hfound, hrows⟩ :=
    exists_select typed hfault (Bound.fault?_eq_none_of_fields hfault declared) hs
  obtain ⟨found', hfound', hrows'⟩ :=
    exists_select typed hfault (Bound.fault?_eq_none_of_fields hfault declared') hs'
  refine ⟨found, found', hfound, hfound', fun row hmem => ?_⟩
  rw [hrows, Condition.mem_matching_iff] at hmem
  rw [hrows', Condition.mem_matching_iff, h.rows]
  exact ⟨hmem.1, typed.denote_filledIn untested hfault declared' h hmem.1 hmem.2 nofun⟩

end Conditions

/-- **Filling in nulls overturns nothing**: wherever an expression that was built and nowhere tests
for null yields a value, it yields the same when nulls among the cells that it reads are replaced.
If it is a condition, it selects no fewer rows then, and neither does its negation. -/
theorem select_of_filledIn {e : Expr} (built : e.Built)
    (untested : .isNull ∉ e.kernels ∧ .isNotNull ∉ e.kernels) {schema : Schema} {bound : Bound}
    {inputs : List Field} (hbind : Bound.bind schema e [] = .ok (bound, inputs))
    {batch filled : Batch} {columns columns' : List Column}
    (resolved : Bound.Resolved schema inputs batch columns)
    (resolved' : Bound.Resolved schema inputs filled columns')
    (h : batch.FilledIn filled inputs) :
    (∀ row < batch.rows, ∀ v, v ≠ .null → bound.evaluate columns.toArray row = .ok v →
      bound.evaluate columns'.toArray row = .ok v) ∧
    ∀ c : Condition, (c.root = e ∨ Builder.standard.call "not" [e] .bool = .ok c.root) →
      ∃ f, make schema c = .ok f ∧
        ∀ s s' : Selection, s.Suffices c batch → s'.Suffices c filled →
          ∃ found found', f.select batch s = .ok found ∧ f.select filled s' = .ok found' ∧
            found.rows ⊆ found'.rows := by
  obtain ⟨hfault, rfl⟩ := Bound.of_bind_eq_ok hbind
  have declared := resolved.declares hbind
  have declared' := resolved'.declares hbind
  constructor
  · intro row hrow v hsome hv
    rw [← toOption_eq_some_iff, resolved.toOption_evaluate hbind] at hv
    rw [← toOption_eq_some_iff, resolved'.toOption_evaluate hbind]
    exact built.wellTyped.denote_filledIn untested hfault declared' h hrow hv hsome
  · intro c hc
    rcases hc with rfl | hnot
    · exact subset_of_filledIn built.wellTyped untested hfault declared declared' h
    · -- the negation reads the same cells and is not a test for null either
      have typed := Expr.wellTyped_of_call .builtin (by simpa using built.wellTyped) hnot
      obtain ⟨signature, hroot, hk⟩ := Expr.exists_of_call_not hnot
      have hfields : c.fields = e.fields := by
        rw [Condition.fields, hroot, Expr.fields_call_one]
      refine subset_of_filledIn typed ?_ ?_ (hfields ▸ declared) (hfields ▸ declared')
        (hfields ▸ h)
      · rw [hroot]
        exact Expr.Untested.call_one untested (by rw [hk]; decide)
      · rw [hroot]
        exact Bound.fault?_call (Nat.le_succ 1) (by simpa using hfault)

end Filter

/-- The sample with values for the nulls in row 2, where the amount is unknown, and in row 3. The
column that is not read keeps its nulls. -/
def Sample.filled : Batch where
  schema := Sample.batch.schema
  rows := 5
  columns := [.bool #[some true, some false, some true, some true, some true],
    .bool #[none, none, none, none, none], .int64 #[some 1, some 2, some 9, some 1, some 7]]
  consistent := Batch.firstFault_eq_none_iff.mp (by decide)

/-- In the sample `and(less_than(amount, 3), active)` becomes false in row 2 and true in row 3, and
its value in the other rows stays. So row 0 is still selected. -/
theorem Filter.sample_filledIn :
    (∀ row < 5, ∀ v, v ≠ .null →
      (Bound.place Sample.both []).1.evaluate
        (Sample.both.fields.map Sample.batch.columnOf).toArray row = .ok v →
      (Bound.place Sample.both []).1.evaluate
        (Sample.both.fields.map Sample.filled.columnOf).toArray row = .ok v) ∧
    ∃ f, make Sample.schema ⟨Sample.both, rfl⟩ = .ok f ∧
      f.select Sample.batch (.empty .uint16 5) = .ok ⟨.uint16 #[0], 5⟩ ∧
      f.select Sample.filled (.empty .uint16 5) = .ok ⟨.uint16 #[0, 3], 5⟩ ∧ [0] ⊆ [0, 3] := by
  have hbind : Bound.bind Sample.schema Sample.both [] =
      .ok ((Bound.place Sample.both []).1, Sample.both.fields) := rfl
  have h : Sample.batch.FilledIn Sample.filled Sample.both.fields := ⟨rfl, by decide⟩
  have resolved : Bound.Resolved Sample.schema Sample.both.fields Sample.batch
      (Sample.both.fields.map Sample.batch.columnOf) := .byName rfl
  have resolved' : Bound.Resolved Sample.schema Sample.both.fields Sample.filled
      (Sample.both.fields.map Sample.filled.columnOf) := .byName rfl
  obtain ⟨hvalues, hselect⟩ :=
    select_of_filledIn Sample.built_both (by decide) hbind resolved resolved' h
  obtain ⟨f, hf, hselect⟩ := hselect ⟨Sample.both, rfl⟩ (Or.inl rfl)
  obtain ⟨found, found', hfound, hfound', hsubset⟩ :=
    hselect (.empty .uint16 5) (.empty .uint16 5) ⟨by decide, by decide⟩ ⟨by decide, by decide⟩
  cases hf
  cases hfound
  cases hfound'
  exact ⟨hvalues, _, rfl, rfl, rfl, hsubset⟩

end RowFilter
