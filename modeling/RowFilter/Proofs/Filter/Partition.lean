import RowFilter.Proofs.Filter.Selecting

/-!
# True, false and null

A condition is true, false or null in a row, and a filter keeps the rows where it is true. The two
other parts are found by filters as well: by the negation, and by the test for null. Main result:
`select_partition`. The three together find every row, and no row twice, and the test for what is
not null finds the first two parts.
-/

namespace RowFilter

namespace Condition

variable {p : Condition} {batch : Batch}

/-- The rows in which a function of a condition is true, if for truth values and null it is true
just where `P` holds of the operand. -/
theorem mem_matching_call_iff {signature : Signature} (hret : signature.ret = .bool)
    {P : Value → Prop} (decided : ∀ row < batch.rows, p.Decided batch row)
    (hkernel : ∀ v, (v = .null ∨ ∃ t, v = .bool t) →
      ((signature.kernel.call [v]).toOption = some (.bool true) ↔ P v)) {row : Nat} :
    row ∈ matching ⟨.call signature [p.root], hret⟩ batch ↔
      row < batch.rows ∧ ∃ v, p.root.denote batch row = some v ∧ P v := by
  rw [mem_matching_iff]
  constructor
  · rintro ⟨hrow, htrue⟩
    obtain ⟨v, hv, hdecided⟩ := decided row hrow
    rw [Expr.denote_call_one signature hv, hkernel v hdecided] at htrue
    exact ⟨hrow, v, hv, htrue⟩
  · rintro ⟨hrow, v, hv, hP⟩
    obtain ⟨w, hw, hdecided⟩ := decided row hrow
    rw [hv, Option.some_inj] at hw
    subst hw
    refine ⟨hrow, ?_⟩
    rw [Expr.denote_call_one signature hv, hkernel v hdecided]
    exact hP

/-- The negation is true where the condition is false. -/
theorem call_not_iff {v : Value} (h : v = .null ∨ ∃ t, v = .bool t) :
    (Kernel.not.call [v]).toOption = some (.bool true) ↔ v = .bool false := by
  rcases h with rfl | ⟨t, rfl⟩
  · decide
  · cases t with
    | false => decide
    | true => decide

/-- The test for null is true where the condition is null. -/
theorem call_isNull_iff {v : Value} (h : v = .null ∨ ∃ t, v = .bool t) :
    (Kernel.isNull.call [v]).toOption = some (.bool true) ↔ v = .null := by
  rcases h with rfl | ⟨t, rfl⟩
  · decide
  · cases t with
    | false => decide
    | true => decide

/-- The test for what is not null is true where the condition is true or false. -/
theorem call_isNotNull_iff {v : Value} (h : v = .null ∨ ∃ t, v = .bool t) :
    (Kernel.isNotNull.call [v]).toOption = some (.bool true) ↔ ∃ t, v = .bool t := by
  rcases h with rfl | ⟨t, rfl⟩
  · simp [Kernel.call, Kernel.apply, Kernel.nullHandling, Except.toOption, Value.isNull]
  · simp [Kernel.call, Kernel.apply, Kernel.nullHandling, Except.toOption, Value.isNull]

end Condition

namespace Filter

section Parts

variable {p : Condition} {schema : Schema} {batch : Batch}

/-- A function of a condition makes a filter too. If for truth values and null the function is true
just where `P` holds of the operand, the filter finds the rows in which `P` holds of the condition's
value. -/
theorem exists_filter_of_kernel (name : String) (k : Kernel) {P : Value → Prop}
    (hresolve : Registry.builtin.resolve name [.bool] =
      .ok (Registry.builtinSignature k [.bool] .bool))
    (hkernel : ∀ v, (v = .null ∨ ∃ t, v = .bool t) →
      ((k.call [v]).toOption = some (.bool true) ↔ P v))
    (typed : p.root.WellTyped) (h : Bound.fault? schema p.root = none)
    (declared : ∀ g ∈ p.fields, batch.schema.Declares g) :
    ∃ g : Filter, Builder.standard.filter schema name [p.root] = .ok g ∧
      ∀ s : Selection, s.Reachable → batch.rows ≤ s.capacity →
        ∃ found, g.select batch s = .ok found ∧ ∀ row, row ∈ found.rows ↔
          row < batch.rows ∧ ∃ v, p.root.denote batch row = some v ∧ P v := by
  have hbatch : Bound.fault? batch.schema p.root = none :=
    Bound.fault?_eq_none_of_fields h declared
  have hresolve' : Builder.standard.registry.resolve name ([p.root].map Expr.type) =
      .ok (Registry.builtinSignature k [.bool] .bool) := by
    rw [List.map_singleton, p.isBool]
    exact hresolve
  obtain ⟨g, hg, hcondition, hselect⟩ :=
    Builder.exists_filter_of_resolve .builtin hresolve' rfl (by simpa using typed)
      (by simpa using h)
  refine ⟨g, hg, fun s hs hlarge => ?_⟩
  obtain ⟨found, hfound, hrows⟩ :=
    hselect batch (by simpa using hbatch) s (hs.valid.suffices hlarge _)
  refine ⟨found, hfound, fun row => ?_⟩
  rw [hrows, hcondition]
  exact Condition.mem_matching_call_iff rfl
    (fun row hrow => p.decided_of_wellTyped typed h declared hrow) hkernel

/-- Rows found for two values have none in common. -/
theorem disjoint_of_mem {found found' : Selection} {v w : Value}
    (h : ∀ row, row ∈ found.rows ↔ row < batch.rows ∧ p.root.denote batch row = some v)
    (h' : ∀ row, row ∈ found'.rows ↔ row < batch.rows ∧ p.root.denote batch row = some w)
    (hne : v ≠ w) : found.rows.Disjoint found'.rows := by
  intro row hrow hrow'
  rw [h] at hrow
  rw [h'] at hrow'
  exact hne (Option.some_inj.mp (hrow.2.symm.trans hrow'.2))

end Parts

/-- **Three parts**: of the rows of a batch, a condition that was built, its negation and its test
for null select three parts that have no row in common and leave none out. The test for what is not
null selects the first two parts together. The batch may have another schema than the filters, as
long as it declares the fields, as their own schema does. -/
theorem select_partition {p : Condition} (built : p.root.Built) {schema : Schema} {f : Filter}
    (made : make schema p = .ok f) {batch : Batch}
    (declared : ∀ g ∈ p.fields, batch.schema.Declares g) {s₁ s₂ s₃ s₄ : Selection}
    (large : ∀ s ∈ [s₁, s₂, s₃, s₄], s.Reachable ∧ batch.rows ≤ s.capacity) :
    ∃ fNot fNull fKnown : Filter,
      Builder.standard.filter schema "not" [p.root] = .ok fNot ∧
      Builder.standard.filter schema "isnull" [p.root] = .ok fNull ∧
      Builder.standard.filter schema "isnotnull" [p.root] = .ok fKnown ∧
      ∃ yes no null known : Selection,
        f.select batch s₁ = .ok yes ∧ fNot.select batch s₂ = .ok no ∧
        fNull.select batch s₃ = .ok null ∧ fKnown.select batch s₄ = .ok known ∧
        yes.rows.Disjoint no.rows ∧ yes.rows.Disjoint null.rows ∧ no.rows.Disjoint null.rows ∧
        (∀ row, row ∈ yes.rows ∨ row ∈ no.rows ∨ row ∈ null.rows ↔ row < batch.rows) ∧
        ∀ row, row ∈ known.rows ↔ row ∈ yes.rows ∨ row ∈ no.rows := by
  obtain ⟨hfault, rfl⟩ := make_eq_ok_iff.mp made
  have typed := built.wellTyped
  obtain ⟨⟨hs₁, hl₁⟩, ⟨hs₂, hl₂⟩, ⟨hs₃, hl₃⟩, hs₄, hl₄⟩ := by simpa using large
  -- each of the four finds the rows of certain values
  obtain ⟨yes, hyes, hyesRows⟩ := exists_select typed hfault
    (Bound.fault?_eq_none_of_fields hfault declared) (hs₁.valid.suffices hl₁ p)
  have mem_yes : ∀ row, row ∈ yes.rows ↔
      row < batch.rows ∧ p.root.denote batch row = some (.bool true) := fun row => by
    rw [hyesRows, Condition.mem_matching_iff]
  obtain ⟨fNot, hfNot, hselect⟩ := exists_filter_of_kernel "not" .not rfl
    (fun _ => Condition.call_not_iff) typed hfault declared
  obtain ⟨no, hno, mem_no⟩ := hselect s₂ hs₂ hl₂
  obtain ⟨fNull, hfNull, hselect⟩ := exists_filter_of_kernel "isnull" .isNull rfl
    (fun _ => Condition.call_isNull_iff) typed hfault declared
  obtain ⟨null, hnull, mem_null⟩ := hselect s₃ hs₃ hl₃
  obtain ⟨fKnown, hfKnown, hselect⟩ :=
    exists_filter_of_kernel "isnotnull" .isNotNull rfl (fun _ => Condition.call_isNotNull_iff)
      typed hfault declared
  obtain ⟨known, hknown, mem_known⟩ := hselect s₄ hs₄ hl₄
  simp only [exists_eq_right] at mem_no mem_null
  refine ⟨fNot, fNull, fKnown, hfNot, hfNull, hfKnown, yes, no, null, known, hyes, hno, hnull,
    hknown, ?_, ?_, ?_, fun row => ?_, fun row => ?_⟩
  · exact disjoint_of_mem mem_yes mem_no nofun
  · exact disjoint_of_mem mem_yes mem_null nofun
  · exact disjoint_of_mem mem_no mem_null nofun
  · rw [mem_yes, mem_no, mem_null]
    constructor
    · rintro (h | h | h)
      · exact h.1
      · exact h.1
      · exact h.1
    · intro hrow
      obtain ⟨v, hv, rfl | ⟨t, rfl⟩⟩ := p.decided_of_wellTyped typed hfault declared hrow
      · exact Or.inr (Or.inr ⟨hrow, hv⟩)
      · cases t with
        | true => exact Or.inl ⟨hrow, hv⟩
        | false => exact Or.inr (Or.inl ⟨hrow, hv⟩)
  · rw [mem_yes, mem_no, mem_known]
    constructor
    · rintro ⟨hrow, v, hv, t, rfl⟩
      cases t with
      | true => exact Or.inl ⟨hrow, hv⟩
      | false => exact Or.inr ⟨hrow, hv⟩
    · rintro (⟨hrow, hv⟩ | ⟨hrow, hv⟩)
      · exact ⟨hrow, _, hv, true, rfl⟩
      · exact ⟨hrow, _, hv, false, rfl⟩

/-- In the sample the condition is true in two rows, false in two others and null in one. -/
theorem sample_partition :
    Sample.filter.select Sample.batch (.empty .uint16 5) = .ok ⟨.uint16 #[0, 2], 5⟩ ∧
    (∃ f : Filter, Builder.standard.filter Sample.schema "not" [Sample.condition.root] = .ok f ∧
      f.select Sample.batch (.empty .uint16 5) = .ok ⟨.uint16 #[1, 4], 5⟩) ∧
    (∃ f : Filter, Builder.standard.filter Sample.schema "isnull" [Sample.condition.root] = .ok f ∧
      f.select Sample.batch (.empty .uint32 5) = .ok ⟨.uint32 #[3], 5⟩) ∧
    (∃ f : Filter,
      Builder.standard.filter Sample.schema "isnotnull" [Sample.condition.root] = .ok f ∧
        f.select Sample.batch (.empty .uint16 5) = .ok ⟨.uint16 #[0, 1, 2, 4], 5⟩) ∧
    ∀ row, row ∈ [0, 2] ∨ row ∈ [1, 4] ∨ row ∈ [3] ↔ row < 5 := by
  have made : make Sample.schema Sample.condition = .ok Sample.filter := rfl
  have declared : ∀ g ∈ Sample.condition.fields, Sample.batch.schema.Declares g := fun g hg =>
    declares_of_mem_fields rfl hg
  have allocated : ∀ type : IndexType, Selection.allocate Selection.addressable .uncounted type 5 =
      (.ok (.empty type 5), .uncounted) := fun type => by
    cases type with
    | uint16 => rfl
    | uint32 => rfl
    | uint64 => rfl
  have reachable : ∀ type : IndexType, (Selection.empty type 5).Reachable := fun type =>
    Selection.reachable_of_allocate (allocated type)
  have large : ∀ s ∈ [Selection.empty .uint16 5, .empty .uint16 5, .empty .uint32 5,
      .empty .uint16 5], s.Reachable ∧ Sample.batch.rows ≤ s.capacity := by
    simp only [List.forall_mem_cons]
    exact ⟨⟨reachable _, Nat.le_refl 5⟩, ⟨reachable _, Nat.le_refl 5⟩,
      ⟨reachable _, Nat.le_refl 5⟩, ⟨reachable _, Nat.le_refl 5⟩, nofun⟩
  obtain ⟨fNot, fNull, fKnown, hfNot, hfNull, hfKnown, yes, no, null, known, hyes, hno, hnull,
    hknown, -, -, -, hall, -⟩ := select_partition Sample.built made declared large
  cases hfNot
  cases hfNull
  cases hfKnown
  cases hyes
  cases hno
  cases hnull
  cases hknown
  exact ⟨rfl, ⟨_, rfl, rfl⟩, ⟨_, rfl, rfl⟩, ⟨_, rfl, rfl⟩, hall⟩

end Filter

end RowFilter
