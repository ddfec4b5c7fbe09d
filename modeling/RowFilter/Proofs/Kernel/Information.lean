import RowFilter.Proofs.Kernel.Typing

/-!
# Kernels and what is known

A null stands for a value that is not known. `Value.RefinedBy` compares two values by what they
tell. The connectives need not know both operands: the lemmas on truth values say what decides them.
Main result: `Kernel.call_eq_of_refinedBy`. All kernels but the two tests for null keep a result
that is not null when nulls among the operands become known.
-/

namespace RowFilter

namespace Value

/-- The first value is not known, or is the second. -/
def RefinedBy (v w : Value) : Prop := v = .null ∨ v = w

theorem RefinedBy.refl (v : Value) : v.RefinedBy v := Or.inr rfl

/-- What is known stays as it is. -/
theorem RefinedBy.eq_bool {v w : Value} {t : Bool} (h : v.RefinedBy w) (hv : v = .bool t) :
    w = .bool t := by
  rcases h with hnull | heq
  · rw [hnull] at hv
    cases hv
  · rw [← heq, hv]

/-- Where no value is null, nothing can become known. -/
theorem eq_of_forall₂_refinedBy {vs ws : List Value} (h : List.Forall₂ RefinedBy vs ws)
    (hsome : .null ∉ vs) : ws = vs := by
  induction h with
  | nil => rfl
  | @cons v w vs ws hv _ ih =>
    rw [List.mem_cons, not_or] at hsome
    rw [ih hsome.2, hv.resolve_left (Ne.symm hsome.1)]

/-- Two operands are refined one by one. -/
theorem exists_of_forall₂_refinedBy {a b : Value} {ws : List Value}
    (h : List.Forall₂ RefinedBy [a, b] ws) :
    ∃ a' b', ws = [a', b'] ∧ a.RefinedBy a' ∧ b.RefinedBy b' := by
  obtain ⟨a', rest, ha, hrest, rfl⟩ := List.forall₂_cons_left_iff.mp h
  obtain ⟨b', none, hb, hnone, rfl⟩ := List.forall₂_cons_left_iff.mp hrest
  rw [List.forall₂_nil_left_iff] at hnone
  exact ⟨a', b', by rw [hnone], ha, hb⟩

theorem asBool?_eq_some_iff {v : Value} {t : Bool} : v.asBool? = some t ↔ v = .bool t := by
  cases v with
  | bool b => simp [asBool?]
  | null | int64 | float64 => simp [asBool?]

end Value

namespace Kernel

open Value

/-! ## What decides the connectives -/

section Connectives

variable {a a' b b' : Value}

/-- A conjunction is true if both operands are. -/
theorem conjunction_eq_true_iff :
    conjunction a b = .bool true ↔ a = .bool true ∧ b = .bool true := by
  rw [← asBool?_eq_some_iff (v := a), ← asBool?_eq_some_iff (v := b), conjunction]
  rcases a.asBool? with _ | _ | _ <;> rcases b.asBool? with _ | _ | _ <;> simp

/-- A conjunction is false if one operand is, whatever the other. -/
theorem conjunction_eq_false_iff :
    conjunction a b = .bool false ↔ a = .bool false ∨ b = .bool false := by
  rw [← asBool?_eq_some_iff (v := a), ← asBool?_eq_some_iff (v := b), conjunction]
  rcases a.asBool? with _ | _ | _ <;> rcases b.asBool? with _ | _ | _ <;> simp

/-- A disjunction is true if one operand is, whatever the other. -/
theorem disjunction_eq_true_iff :
    disjunction a b = .bool true ↔ a = .bool true ∨ b = .bool true := by
  rw [← asBool?_eq_some_iff (v := a), ← asBool?_eq_some_iff (v := b), disjunction]
  rcases a.asBool? with _ | _ | _ <;> rcases b.asBool? with _ | _ | _ <;> simp

/-- A disjunction is false if both operands are. -/
theorem disjunction_eq_false_iff :
    disjunction a b = .bool false ↔ a = .bool false ∧ b = .bool false := by
  rw [← asBool?_eq_some_iff (v := a), ← asBool?_eq_some_iff (v := b), disjunction]
  rcases a.asBool? with _ | _ | _ <;> rcases b.asBool? with _ | _ | _ <;> simp

/-- A conjunction that is decided stays so: a false operand keeps it false whatever the other one
turns out to be, and it is true only if nothing was unknown. -/
theorem conjunction_eq_of_refinedBy (ha : a.RefinedBy a') (hb : b.RefinedBy b') {t : Bool}
    (h : conjunction a b = .bool t) : conjunction a' b' = .bool t := by
  cases t with
  | true =>
    obtain ⟨hat, hbt⟩ := conjunction_eq_true_iff.mp h
    exact conjunction_eq_true_iff.mpr ⟨ha.eq_bool hat, hb.eq_bool hbt⟩
  | false =>
    rw [conjunction_eq_false_iff] at h ⊢
    exact h.imp ha.eq_bool hb.eq_bool

/-- A disjunction that is known stays so when its operands become known. -/
theorem disjunction_eq_of_refinedBy (ha : a.RefinedBy a') (hb : b.RefinedBy b') {t : Bool}
    (h : disjunction a b = .bool t) : disjunction a' b' = .bool t := by
  cases t with
  | true =>
    rw [disjunction_eq_true_iff] at h ⊢
    exact h.imp ha.eq_bool hb.eq_bool
  | false =>
    obtain ⟨haf, hbf⟩ := disjunction_eq_false_iff.mp h
    exact disjunction_eq_false_iff.mpr ⟨ha.eq_bool haf, hb.eq_bool hbf⟩

end Connectives

/-! ## All kernels -/

/-- A kernel that propagates nulls is null when an operand is. -/
theorem call_of_propagate {k : Kernel} {args : List Value} (hk : k.nullHandling = .propagate)
    (hnull : .null ∈ args) : k.call args = .ok .null := by
  have hany : args.any Value.isNull = true := List.any_eq_true.mpr ⟨.null, hnull, rfl⟩
  rw [call, if_pos ⟨hk, hany⟩]

/-- A conjunction takes two operands. -/
theorem exists_of_call_and {args : List Value} {v : Value} (h : Kernel.and.call args = .ok v) :
    ∃ a b, args = [a, b] ∧ v = conjunction a b := by
  match args, h with
  | [a, b], h =>
    cases h
    exact ⟨a, b, rfl, rfl⟩
  | [], h | [_], h | _ :: _ :: _ :: _, h => cases h

/-- A call of the disjunction has two operands, which it joins. -/
theorem exists_of_call_or {args : List Value} {v : Value} (h : Kernel.or.call args = .ok v) :
    ∃ a b, args = [a, b] ∧ v = disjunction a b := by
  match args, h with
  | [a, b], h =>
    cases h
    exact ⟨a, b, rfl, rfl⟩
  | [], h | [_], h | _ :: _ :: _ :: _, h => cases h

/-- **Results stay**: unless it tests for null, a kernel that is called with operands of which more
is known yields the same, if it did not yield null before. -/
theorem call_eq_of_refinedBy {k : Kernel} (hk : k ≠ .isNull ∧ k ≠ .isNotNull) {vs ws : List Value}
    (h : List.Forall₂ RefinedBy vs ws) {v : Value} (hv : k.call vs = .ok v) (hsome : v ≠ .null) :
    k.call ws = .ok v := by
  by_cases hnull : .null ∈ vs
  · -- a kernel that propagates nulls would have yielded one
    cases k with
    | isNull => exact absurd rfl hk.1
    | isNotNull => exact absurd rfl hk.2
    | and =>
      obtain ⟨a, b, rfl, rfl⟩ := exists_of_call_and hv
      obtain ⟨a', b', rfl, ha, hb⟩ := exists_of_forall₂_refinedBy h
      obtain ⟨t, ht⟩ := (hasType_conjunction a b).truth hsome
      rw [ht, ← conjunction_eq_of_refinedBy ha hb ht]
      rfl
    | or =>
      obtain ⟨a, b, rfl, rfl⟩ := exists_of_call_or hv
      obtain ⟨a', b', rfl, ha, hb⟩ := exists_of_forall₂_refinedBy h
      obtain ⟨t, ht⟩ := (hasType_disjunction a b).truth hsome
      rw [ht, ← disjunction_eq_of_refinedBy ha hb ht]
      rfl
    | _ =>
      rw [call_of_propagate rfl hnull] at hv
      cases hv
      exact absurd rfl hsome
  · rw [eq_of_forall₂_refinedBy h hnull]
    exact hv

end Kernel

end RowFilter
