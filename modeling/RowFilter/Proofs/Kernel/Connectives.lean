import RowFilter.Proofs.Kernel.Information

/-!
# Connectives of many operands

The two connectives of three-valued logic are one rule with the truth values exchanged: one truth
value decides, else null does (`Kernel.decidedBy`). The rule is for any number of operands and only
looks at which values there are. The kernels are its case of two operands (`call_connective`). Main
result: `decidedBy_append`. The operands can be put in brackets at will.
-/

namespace RowFilter

/-- The truth values and null are all there is of boolean type. -/
theorem Value.HasType.truth_cases {v : Value} (h : v.HasType .bool) :
    v = .null ∨ v = .bool false ∨ v = .bool true := by
  by_cases hnull : v = .null
  · exact Or.inl hnull
  · obtain ⟨b, rfl⟩ := h.truth hnull
    cases b with
    | false => exact Or.inr (Or.inl rfl)
    | true => exact Or.inr (Or.inr rfl)

namespace Kernel

/-- The connective that a truth value decides. -/
def connective : Bool → Kernel
  | false => .and
  | true => .or

/-- What operands come to if the truth value `d` decides: it is `d` if some operand is, else null if
some operand is null, else the other truth value. -/
def decidedBy (d : Bool) (vs : List Value) : Value :=
  if .bool d ∈ vs then .bool d else if .null ∈ vs then .null else .bool !d

/-- Negation of three-valued logic. What is neither true nor false counts as null. -/
def negation (v : Value) : Value :=
  match v.asBool? with
  | some b => .bool !b
  | none => .null

section Rule

variable {d : Bool} {v w : Value} {vs ws : List Value}

/-- One deciding operand decides. -/
theorem decidedBy_of_mem (h : .bool d ∈ vs) : decidedBy d vs = .bool d := if_pos h

/-- Undecided operands with a null among them yield null. -/
theorem decidedBy_of_null (h : .bool d ∉ vs) (hnull : .null ∈ vs) : decidedBy d vs = .null := by
  rw [decidedBy, if_neg h, if_pos hnull]

/-- Undecided operands without a null yield the other truth. -/
theorem decidedBy_of_known (h : .bool d ∉ vs) (hnull : .null ∉ vs) :
    decidedBy d vs = .bool !d := by
  rw [decidedBy, if_neg h, if_neg hnull]

/-- There are just these three cases. -/
theorem decidedBy_cases (d : Bool) (vs : List Value) :
    (.bool d ∈ vs ∧ decidedBy d vs = .bool d) ∨
      (.bool d ∉ vs ∧ .null ∈ vs ∧ decidedBy d vs = .null) ∨
      (.bool d ∉ vs ∧ .null ∉ vs ∧ decidedBy d vs = .bool !d) := by
  by_cases h : .bool d ∈ vs
  · exact Or.inl ⟨h, decidedBy_of_mem h⟩
  · by_cases hnull : .null ∈ vs
    · exact Or.inr (Or.inl ⟨h, hnull, decidedBy_of_null h hnull⟩)
    · exact Or.inr (Or.inr ⟨h, hnull, decidedBy_of_known h hnull⟩)

/-- Only a deciding operand decides. -/
theorem decidedBy_eq_decider_iff : decidedBy d vs = .bool d ↔ .bool d ∈ vs := by
  obtain ⟨h, heq⟩ | ⟨h, -, heq⟩ | ⟨h, -, heq⟩ := decidedBy_cases d vs
  · simp [h, heq]
  · simp [h, heq]
  · simp [h, heq]

/-- Null is what undecided operands with a null among them yield, and no others. -/
theorem decidedBy_eq_null_iff : decidedBy d vs = .null ↔ .bool d ∉ vs ∧ .null ∈ vs := by
  obtain ⟨h, heq⟩ | ⟨h, hnull, heq⟩ | ⟨h, hnull, heq⟩ := decidedBy_cases d vs
  · simp [h, heq]
  · simp [h, hnull, heq]
  · simp [h, hnull, heq]

theorem hasType_decidedBy (d : Bool) (vs : List Value) : (decidedBy d vs).HasType .bool := by
  obtain ⟨-, heq⟩ | ⟨-, -, heq⟩ | ⟨-, -, heq⟩ := decidedBy_cases d vs
  · exact Or.inr (by rw [heq]; rfl)
  · exact Or.inl heq
  · exact Or.inr (by rw [heq]; rfl)

/-- Nothing but two memberships plays a part, so neither order nor repetition does. -/
theorem decidedBy_congr (h : .bool d ∈ vs ↔ .bool d ∈ ws)
    (hnull : .bool d ∉ vs → (.null ∈ vs ↔ .null ∈ ws)) : decidedBy d vs = decidedBy d ws := by
  obtain ⟨hvs, heq⟩ | ⟨hvs, hnone, heq⟩ | ⟨hvs, hnone, heq⟩ := decidedBy_cases d vs
  · rw [heq, decidedBy_of_mem (h.mp hvs)]
  · rw [heq, decidedBy_of_null (mt h.mpr hvs) ((hnull hvs).mp hnone)]
  · rw [heq, decidedBy_of_known (mt h.mpr hvs) (mt (hnull hvs).mpr hnone)]

/-- A single operand is the result. -/
theorem decidedBy_singleton (h : v.HasType .bool) : decidedBy d [v] = v := by
  by_cases hnull : v = .null
  · rw [hnull]
    exact decidedBy_of_null (by simp) (List.mem_singleton_self _)
  · obtain ⟨b, rfl⟩ := h.truth hnull
    by_cases hb : b = d
    · rw [hb]
      exact decidedBy_of_mem (List.mem_singleton_self _)
    · rw [decidedBy_of_known (by simpa using Ne.symm hb) (by simp), Bool.eq_not_of_ne hb]

/-- **Brackets do not matter**: two lists of operands together come to what their results come
to. -/
theorem decidedBy_append (d : Bool) (vs ws : List Value) :
    decidedBy d (vs ++ ws) = decidedBy d [decidedBy d vs, decidedBy d ws] := by
  have hmem : .bool d ∈ [decidedBy d vs, decidedBy d ws] ↔ .bool d ∈ vs ++ ws := by
    rw [List.mem_pair, List.mem_append, eq_comm, decidedBy_eq_decider_iff, eq_comm,
      decidedBy_eq_decider_iff]
  refine decidedBy_congr hmem.symm fun hnone => ?_
  rw [List.mem_append, not_or] at hnone
  rw [List.mem_pair, List.mem_append, eq_comm, decidedBy_eq_null_iff, eq_comm (b := decidedBy d ws),
    decidedBy_eq_null_iff, and_iff_right hnone.1, and_iff_right hnone.2]

/-- The kernels follow the rule for two operands. -/
theorem call_connective (d : Bool) (hv : v.HasType .bool) (hw : w.HasType .bool) :
    (connective d).call [v, w] = .ok (decidedBy d [v, w]) := by
  obtain rfl | rfl | rfl := hv.truth_cases <;> obtain rfl | rfl | rfl := hw.truth_cases <;>
    cases d <;> rfl

/-! ## Negation -/

/-- A negation is known just if its operand is. -/
theorem negation_eq_bool_iff {t : Bool} : negation v = .bool t ↔ v = .bool !t := by
  cases v with
  | bool b => cases b <;> cases t <;> simp [negation, Value.asBool?]
  | null | int64 | float64 => simp [negation, Value.asBool?]

/-- A negation is null just if its operand is. -/
theorem negation_eq_null_iff (h : v.HasType .bool) : negation v = .null ↔ v = .null := by
  by_cases hnull : v = .null
  · simp [hnull, negation, Value.asBool?]
  · obtain ⟨b, rfl⟩ := h.truth hnull
    simp [negation, Value.asBool?]

theorem hasType_negation (v : Value) : (negation v).HasType .bool := by
  rw [negation]
  cases v.asBool? with
  | none => exact Or.inl rfl
  | some b => exact Or.inr rfl

/-- The kernel of negation. -/
theorem call_not (h : v.HasType .bool) : Kernel.not.call [v] = .ok (negation v) := by
  by_cases hnull : v = .null
  · rw [hnull]
    rfl
  · obtain ⟨b, rfl⟩ := h.truth hnull
    rfl

/-- **De Morgan's law**: negation exchanges the truth values, and with them the connectives. -/
theorem decidedBy_map_negation (h : ∀ v ∈ vs, v.HasType .bool) :
    decidedBy (!d) (vs.map negation) = negation (decidedBy d vs) := by
  have hmem : .bool (!d) ∈ vs.map negation ↔ .bool d ∈ vs := by
    simp [List.mem_map, negation_eq_bool_iff]
  have hnull : .null ∈ vs.map negation ↔ .null ∈ vs := by
    rw [List.mem_map]
    constructor
    · rintro ⟨v, hv, hnone⟩
      rw [negation_eq_null_iff (h v hv)] at hnone
      exact hnone ▸ hv
    · intro hv
      exact ⟨.null, hv, rfl⟩
  obtain ⟨hvs, heq⟩ | ⟨hvs, hnone, heq⟩ | ⟨hvs, hnone, heq⟩ := decidedBy_cases d vs
  · rw [heq, decidedBy_of_mem (hmem.mpr hvs)]
    rfl
  · rw [heq, decidedBy_of_null (mt hmem.mp hvs) (hnull.mpr hnone)]
    rfl
  · rw [heq, decidedBy_of_known (mt hmem.mp hvs) (mt hnull.mp hnone)]
    rfl

/-! ## Truth -/

/-- A conjunction is true if all operands are. -/
theorem decidedBy_false_eq_true_iff (h : ∀ v ∈ vs, v.HasType .bool) :
    decidedBy false vs = .bool true ↔ ∀ v ∈ vs, v = .bool true := by
  obtain ⟨hvs, heq⟩ | ⟨hvs, hnull, heq⟩ | ⟨hvs, hnull, heq⟩ := decidedBy_cases false vs
  · rw [heq]
    exact ⟨nofun, fun hall => by cases hall _ hvs⟩
  · rw [heq]
    exact ⟨nofun, fun hall => by cases hall _ hnull⟩
  · rw [heq]
    refine ⟨fun _ v hv => ?_, fun _ => rfl⟩
    -- no operand is null, and none is false
    have hsome : v ≠ .null := fun hnone => hnull (hnone ▸ hv)
    obtain ⟨b, rfl⟩ := (h v hv).truth hsome
    cases b with
    | false => exact absurd hv hvs
    | true => rfl

end Rule

end Kernel

end RowFilter
