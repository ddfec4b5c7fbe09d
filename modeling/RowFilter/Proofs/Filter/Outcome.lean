import RowFilter.Proofs.Expr.Typing
import RowFilter.Proofs.Filter.Exactness

/-!
# What evaluating a filter comes to

`Condition.outcome` says without a loop what the evaluation of a condition comes to: a field that
the batch does not declare comes first, then a last row that the index type cannot hold, then a
matching row for which there is no slot. `evaluate_eq_outcome` says that filters of conditions that
were built do just that. Main result: `comesTo_evaluate`. Every kind of error has its exact
condition, and there are no other kinds.
-/

namespace RowFilter

namespace Condition

/-- What evaluating the condition comes to, in the order in which errors are reported. -/
def outcome (c : Condition) (batch : Batch) (s : Selection) : Except Error Nat :=
  match c.fields.findSome? (batch.schema.fault? .batch) with
  | some e => .error e
  | none =>
    if 0 < batch.rows ∧ s.maxRow < batch.rows - 1 then .error (.batchTooLong batch.rows s.type)
    else
      match (c.matching batch)[s.capacity]? with
      | some row => .error (.noRoomForMatch row s.capacity)
      | none => .ok (c.matching batch).length

variable {c : Condition} {batch : Batch} {s : Selection}

theorem outcome_of_findSome? {e : Error}
    (h : c.fields.findSome? (batch.schema.fault? .batch) = some e) :
    c.outcome batch s = .error e := by
  rw [outcome, h]

theorem outcome_of_tooLong (hall : ∀ f ∈ c.fields, batch.schema.Declares f)
    (hlong : 0 < batch.rows ∧ s.maxRow < batch.rows - 1) :
    c.outcome batch s = .error (.batchTooLong batch.rows s.type) := by
  rw [outcome, Schema.findSome?_fault?_eq_none_iff.mpr hall]
  simp only [hlong, and_self, if_true]

theorem outcome_of_full (hall : ∀ f ∈ c.fields, batch.schema.Declares f)
    (hfits : ¬(0 < batch.rows ∧ s.maxRow < batch.rows - 1)) {row : Nat}
    (hfull : (c.matching batch)[s.capacity]? = some row) :
    c.outcome batch s = .error (.noRoomForMatch row s.capacity) := by
  rw [outcome, Schema.findSome?_fault?_eq_none_iff.mpr hall, hfull]
  simp only [hfits, if_false]

theorem outcome_of_room (hall : ∀ f ∈ c.fields, batch.schema.Declares f)
    (hfits : ¬(0 < batch.rows ∧ s.maxRow < batch.rows - 1))
    (hroom : (c.matching batch)[s.capacity]? = none) :
    c.outcome batch s = .ok (c.matching batch).length := by
  rw [outcome, Schema.findSome?_fault?_eq_none_iff.mpr hall, hroom]
  simp only [hfits, if_false]

/-- Every error has its cause among the four, in this order. -/
theorem cause_of_outcome {e : Error} (h : c.outcome batch s = .error e) :
    c.fields.findSome? (batch.schema.fault? .batch) = some e ∨
      ((0 < batch.rows ∧ s.maxRow < batch.rows - 1) ∧ e = .batchTooLong batch.rows s.type) ∨
      ∃ row, (c.matching batch)[s.capacity]? = some row ∧ e = .noRoomForMatch row s.capacity := by
  rw [outcome] at h
  split at h
  next e' hfault =>
    cases h
    exact Or.inl hfault
  next =>
    split at h
    next hlong =>
      cases h
      exact Or.inr (Or.inl ⟨hlong, rfl⟩)
    next =>
      split at h
      next row hfull =>
        cases h
        exact Or.inr (Or.inr ⟨row, hfull, rfl⟩)
      next => cases h

/-- A well-typed condition is true, false or null in every row of a batch that declares its
fields. -/
theorem decided_of_wellTyped {schema : Schema} (typed : c.root.WellTyped)
    (h : Bound.fault? schema c.root = none) (hall : ∀ f ∈ c.fields, batch.schema.Declares f)
    {row : Nat} (hrow : row < batch.rows) : c.Decided batch row := by
  have hleaves := Bound.declares_of_fault?_eq_none (Bound.fault?_eq_none_of_fields h hall)
  obtain ⟨v, hv, htype⟩ := typed.exists_denote hrow hleaves
  rw [c.isBool] at htype
  refine ⟨v, hv, ?_⟩
  by_cases hnull : v = .null
  · exact Or.inl hnull
  · exact Or.inr (htype.truth hnull)

/-- What the evaluation of a condition comes to, clause by clause. The matching rows are counted and
indexed in ascending order. -/
structure ComesTo (c : Condition) (batch : Batch) (s : Selection) (result : Except Error Nat) :
    Prop where
  /-- A field is missing from the batch, or has another type there. -/
  undeclared : (∃ e, result = .error e ∧ (e.kind = .unknownField ∨ e.kind = .schemaMismatch)) ↔
    ∃ f ∈ c.fields, ¬batch.schema.Declares f
  /-- The first such field decides which of the two it is. -/
  firstUndeclared : ∀ earlier f later, c.fields = earlier ++ f :: later →
    (∀ g ∈ earlier, batch.schema.Declares g) → ¬batch.schema.Declares f →
      ∃ e, result = .error e ∧
        e.kind = if batch.schema.find? f.name = none then .unknownField else .schemaMismatch
  /-- The last row does not fit the index type. -/
  tooLong : (∀ f ∈ c.fields, batch.schema.Declares f) →
    ((∃ e, result = .error e ∧ e.kind = .capacityTooLarge) ↔
      0 < batch.rows ∧ s.maxRow < batch.rows - 1)
  /-- More rows match than there are slots. -/
  full : (∀ f ∈ c.fields, batch.schema.Declares f) → ¬(0 < batch.rows ∧ s.maxRow < batch.rows - 1) →
    ((∃ e, result = .error e ∧ e.kind = .capacityExceeded) ↔
      s.capacity < (c.matching batch).length)
  /-- The first match without a slot is named. -/
  firstRefused : (∀ f ∈ c.fields, batch.schema.Declares f) →
    ¬(0 < batch.rows ∧ s.maxRow < batch.rows - 1) →
      ∀ row, (c.matching batch)[s.capacity]? = some row →
        result = .error (.noRoomForMatch row s.capacity)
  /-- In all other cases the matches are counted. -/
  counted : (∀ f ∈ c.fields, batch.schema.Declares f) →
    ¬(0 < batch.rows ∧ s.maxRow < batch.rows - 1) → (c.matching batch).length ≤ s.capacity →
      result = .ok (c.matching batch).length
  /-- Nothing else is reported. -/
  kinds : ∀ e, result = .error e →
    e.kind ∈ [ErrorKind.unknownField, .schemaMismatch, .capacityTooLarge, .capacityExceeded]

theorem kind_of_outcome {e : Error} (h : c.outcome batch s = .error e) :
    e.kind ∈ [ErrorKind.unknownField, .schemaMismatch, .capacityTooLarge, .capacityExceeded] := by
  rcases cause_of_outcome h with hfault | ⟨-, rfl⟩ | ⟨row, -, rfl⟩
  · rcases Schema.kind_of_findSome?_fault? hfault with hkind | hkind
    · simp [hkind]
    · simp [hkind]
  · simp [Error.kind]
  · simp [Error.kind]

/-- The first of the undeclared fields is the one that is found. -/
theorem findSome?_of_first {earlier later : List Field} {f : Field}
    (hfields : c.fields = earlier ++ f :: later) (hearlier : ∀ g ∈ earlier, batch.schema.Declares g)
    (hf : ¬batch.schema.Declares f) :
    ∃ e, c.fields.findSome? (batch.schema.fault? .batch) = some e ∧
      batch.schema.fault? .batch f = some e := by
  rw [hfields, List.findSome?_append, Schema.findSome?_fault?_eq_none_iff.mpr hearlier,
    Option.none_or, List.findSome?_cons]
  cases hfault : batch.schema.fault? .batch f with
  | none => exact absurd (Schema.fault?_eq_none_iff.mp hfault) hf
  | some e => exact ⟨e, rfl, rfl⟩

/-- The outcome obeys every clause. -/
theorem comesTo_outcome (c : Condition) (batch : Batch) (s : Selection) :
    c.ComesTo batch s (c.outcome batch s) where
  undeclared := by
    constructor
    · -- of the three causes only the first has one of these kinds
      rintro ⟨e, he, hkind⟩
      rcases cause_of_outcome he with hfault | ⟨-, rfl⟩ | ⟨row, -, rfl⟩
      · obtain ⟨f, hf, hfault⟩ := List.exists_of_findSome?_eq_some hfault
        refine ⟨f, hf, fun hdecl => ?_⟩
        rw [Schema.fault?_eq_none_iff.mpr hdecl] at hfault
        cases hfault
      · simp [Error.kind] at hkind
      · simp [Error.kind] at hkind
    · rintro ⟨f, hf, hnot⟩
      cases hfault : c.fields.findSome? (batch.schema.fault? .batch) with
      | none =>
        exact absurd (Schema.findSome?_fault?_eq_none_iff.mp hfault f hf) hnot
      | some e =>
        exact ⟨e, outcome_of_findSome? hfault, Schema.kind_of_findSome?_fault? hfault⟩
  firstUndeclared earlier f later hfields hearlier hf := by
    obtain ⟨e, he, hfault⟩ := findSome?_of_first hfields hearlier hf
    exact ⟨e, outcome_of_findSome? he, Schema.kind_of_fault?_eq_some hfault⟩
  tooLong hall := by
    constructor
    · rintro ⟨e, he, hkind⟩
      rcases cause_of_outcome he with hfault | ⟨hlong, -⟩ | ⟨row, -, rfl⟩
      · rw [Schema.findSome?_fault?_eq_none_iff.mpr hall] at hfault
        cases hfault
      · exact hlong
      · cases hkind
    · intro hlong
      exact ⟨_, outcome_of_tooLong hall hlong, rfl⟩
  full hall hfits := by
    constructor
    · rintro ⟨e, he, hkind⟩
      rcases cause_of_outcome he with hfault | ⟨-, rfl⟩ | ⟨row, hfull, -⟩
      · rw [Schema.findSome?_fault?_eq_none_iff.mpr hall] at hfault
        cases hfault
      · cases hkind
      · exact (List.getElem?_eq_some_iff.mp hfull).1
    · intro hless
      exact ⟨_, outcome_of_full hall hfits (List.getElem?_eq_getElem hless), rfl⟩
  firstRefused hall hfits row hfull := outcome_of_full hall hfits hfull
  counted hall hfits hroom :=
    outcome_of_room hall hfits (List.getElem?_eq_none_iff.mpr hroom)
  kinds e he := kind_of_outcome he

end Condition

namespace Filter

variable {schema : Schema} {c : Condition} {f : Filter}

/-- Evaluating the filter of a well-typed condition comes to the outcome. -/
theorem evaluate_eq_outcome (typed : c.root.WellTyped) (made : make schema c = .ok f)
    (batch : Batch) (s : Selection) : (f.evaluate batch s).1 = c.outcome batch s := by
  obtain ⟨hfault, rfl⟩ := make_eq_ok_iff.mp made
  cases hfound : c.fields.findSome? (batch.schema.fault? .batch) with
  | some e =>
    have hresolve : (bound schema c).resolve batch = .error e := by
      rw [resolve_eq hfault, unlessFault_eq_error_iff]
      exact hfound
    rw [Condition.outcome_of_findSome? hfound, evaluate, hresolve]
  | none =>
    have hall := Schema.findSome?_fault?_eq_none_iff.mp hfound
    by_cases hlong : 0 < batch.rows ∧ s.maxRow < batch.rows - 1
    · rw [Condition.outcome_of_tooLong hall hlong, evaluate,
        (resolve_eq_ok_iff hfault).mpr ⟨hall, rfl⟩]
      simp only [hlong, and_self, if_true]
    · -- types see to it that no row is undecided
      rw [(evaluate_bound hfault hall hlong fun row hrow =>
        c.decided_of_wellTyped typed hfault hall hrow).1]
      cases hfull : (c.matching batch)[s.capacity]? with
      | some row => exact (Condition.outcome_of_full hall hlong hfull).symm
      | none => exact (Condition.outcome_of_room hall hlong hfull).symm

/-- **The complete outcome of an evaluation**, whatever the selection held before: a filter of a
condition that was built reports an undeclared field, else a last row that the index type cannot
hold, else the first match without a slot, and otherwise it counts the matches. -/
theorem comesTo_evaluate (built : c.root.Built) (made : make schema c = .ok f) (batch : Batch)
    (s : Selection) : c.ComesTo batch s (f.evaluate batch s).1 := by
  rw [evaluate_eq_outcome built.wellTyped made]
  exact c.comesTo_outcome batch s

end Filter

namespace Sample

theorem built_small : small.Built :=
  .call_two .standard "less_than" .bool .builtin (.field amount) (.literal (v := .int64 3) rfl) rfl

theorem built_both : both.Built :=
  .call_two .standard "and" .bool .builtin built_small (.field active) rfl

theorem built_absent : absent.Built := by
  refine @Expr.Built.call .standard "isnull" [.field amount] .bool _ .builtin ?_ rfl
  intro a ha
  rw [List.mem_singleton.mp ha]
  exact .field amount

theorem built : condition.root.Built :=
  .call_two .standard "or" .bool .builtin built_both built_absent rfl

end Sample

namespace Filter

/-- With a single slot the second match of the sample, row 2, has no room. -/
theorem sample_outcome :
    (Sample.filter.evaluate Sample.batch ⟨.uint16 #[7], 1⟩).1 = .error (.noRoomForMatch 2 1) := by
  have made : make Sample.schema Sample.condition = .ok Sample.filter := rfl
  have hnone : Sample.condition.fields.findSome? (Sample.batch.schema.fault? .batch) = none := rfl
  have hall := Schema.findSome?_fault?_eq_none_iff.mp hnone
  exact (comesTo_evaluate Sample.built made Sample.batch ⟨.uint16 #[7], 1⟩).firstRefused hall
    (by decide) 2 rfl

end Filter

end RowFilter
