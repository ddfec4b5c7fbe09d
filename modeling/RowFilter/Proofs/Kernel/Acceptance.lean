import RowFilter.Proofs.Kernel.Connectives

/-!
# Kernels take what they accept

`Kernel.accepts` looks at the types of operands before a kernel is used, `Kernel.apply` at the
operands themselves. For each family of kernels, operands that are applied have accepted types, and
a refusal is an internal error. Main result: `applies_iff_accepts`. For operands that are not null
the two rules agree, but for the connectives, which take any two operands and count as null what is
no truth value.
-/

namespace RowFilter

/-- The truth value that a value is, or null if it is none. -/
def Value.truth (v : Value) : Value := v.asBool?.elim .null .bool

theorem Value.hasType_truth (v : Value) : v.truth.HasType .bool := by
  rw [truth]
  cases v.asBool? with
  | none => exact hasType_null .bool
  | some b => exact hasType_type (.bool b)

theorem Value.asBool?_truth (v : Value) : v.truth.asBool? = v.asBool? := by
  cases v with
  | bool b => rfl
  | null | int64 | float64 => rfl

namespace Kernel

variable {k : Kernel} {args : List Value} {v w : Value} {e : Error} {result : Except Error Value}

/-! ## What is applied is accepted -/

/-- Two numbers of one type are all that arithmetic takes. -/
theorem types_of_onNumbers {onInts : Int64 → Int64 → Value}
    {onDoubles : Binary64 → Binary64 → Value} (h : onNumbers onInts onDoubles args = some v) :
    ∃ t : DataType, t.isNumeric = true ∧ args.map Value.type = [t, t] := by
  unfold onNumbers at h
  split at h
  next a b => exact ⟨.int64, rfl, rfl⟩
  next x y => exact ⟨.float64, rfl, rfl⟩
  next => cases h

/-- What can be negated is one number. -/
theorem types_of_negate (h : negate args = some v) :
    ∃ t : DataType, t.isNumeric = true ∧ args.map Value.type = [t] := by
  unfold negate at h
  split at h
  next a => exact ⟨.int64, rfl, rfl⟩
  next x => exact ⟨.float64, rfl, rfl⟩
  next => cases h

/-- Values that can be compared for equality have one column type. -/
theorem types_of_equality {same : Bool} (h : equality v w = .ok same) :
    v.type.isColumnType = true ∧ w.type = v.type := by
  unfold equality at h
  split at h
  next a b => exact ⟨rfl, rfl⟩
  next a b => exact ⟨rfl, rfl⟩
  next x y => exact ⟨rfl, rfl⟩
  next => cases h

/-- Values that can be ordered are numbers of one type. -/
theorem types_of_ordering {o : Option Ordering} (h : ordering v w = .ok o) :
    v.type.isNumeric = true ∧ w.type = v.type := by
  unfold ordering at h
  split at h
  next a b => exact ⟨rfl, rfl⟩
  next x y => exact ⟨rfl, rfl⟩
  next => cases h

/-- What arithmetic yields is what an operation on two numbers does. -/
theorem exists_onNumbers (hk : k ∈ [add, subtract, multiply, divide, mod])
    (h : k.apply args = .ok v) : ∃ onInts onDoubles, onNumbers onInts onDoubles args = some v := by
  obtain rfl | rfl | rfl | rfl | rfl := by simpa using hk
  all_goals
    simp only [apply] at h
    split at h
    next w hw =>
      cases h
      exact ⟨_, _, hw⟩
    next => cases h

/-- The kernels that compare or connect take two operands. -/
theorem two_operands_or_misapplied (h : k.apply args = result) (hk : k ∈ [equal, notEqual,
    lessThan, lessThanOrEqual, greaterThan, greaterThanOrEqual, and, or]) :
    (∃ a b, args = [a, b]) ∨ result = .error (.kernelMisapplied k args) := by
  rw [← h]
  rcases args with _ | ⟨a, _ | ⟨b, _ | ⟨c, rest⟩⟩⟩
  case cons.cons.nil => exact Or.inl ⟨a, b, rfl⟩
  all_goals
    right
    obtain rfl | rfl | rfl | rfl | rfl | rfl | rfl | rfl := by simpa using hk
    all_goals rfl

/-- The tests for null take one operand. -/
theorem one_operand_or_misapplied (h : k.apply args = result) (hk : k ∈ [isNull, isNotNull]) :
    (∃ a, args = [a]) ∨ result = .error (.kernelMisapplied k args) := by
  rw [← h]
  rcases args with _ | ⟨a, _ | ⟨b, rest⟩⟩
  case cons.nil => exact Or.inl ⟨a, rfl⟩
  all_goals
    right
    obtain rfl | rfl := by simpa using hk
    all_goals rfl

/-- The negation takes a truth value. -/
theorem truth_or_misapplied (h : Kernel.not.apply args = result) :
    (∃ b, args = [.bool b]) ∨ result = .error (.kernelMisapplied .not args) := by
  rw [← h]
  rcases args with _ | ⟨a, _ | ⟨b, rest⟩⟩
  case nil => exact Or.inr rfl
  case cons.nil =>
    cases a with
    | bool b => exact Or.inl ⟨b, rfl⟩
    | null | int64 | float64 => exact Or.inr rfl
  case cons.cons =>
    cases a with
    | null | bool | int64 | float64 => exact Or.inr rfl

theorem exists_of_map_eq_ok {α : Type} {x : Except Error α} {f : α → Value}
    (h : x.map f = .ok v) : ∃ a, x = .ok a := by
  cases x with
  | error e => cases h
  | ok a => exact ⟨a, rfl⟩

/-- Operands that are not null have accepted types if the kernel can be applied to them, unless it
is a connective. -/
theorem typing_of_apply_eq_ok (hk : k ∉ [and, or]) (known : .null ∉ args)
    (h : k.apply args = .ok v) : ∃ ret, Typing k (args.map Value.type) ret := by
  cases k with
  | add | subtract | multiply | divide | mod =>
    obtain ⟨onInts, onDoubles, hsome⟩ := exists_onNumbers (by simp) h
    obtain ⟨t, ht, htypes⟩ := types_of_onNumbers hsome
    exact ⟨t, htypes ▸ .arithmetic (by simp) ht⟩
  | negative =>
    cases hnegate : negate args with
    | none =>
      rw [apply, hnegate] at h
      cases h
    | some w =>
      obtain ⟨t, ht, htypes⟩ := types_of_negate hnegate
      exact ⟨t, htypes ▸ .sign ht⟩
  | equal | notEqual =>
    obtain ⟨a, b, rfl⟩ | hmis := two_operands_or_misapplied h (by simp)
    · obtain ⟨same, hsame⟩ := exists_of_map_eq_ok h
      obtain ⟨ht, htype⟩ := types_of_equality hsame
      rw [List.map_cons, List.map_singleton, htype]
      exact ⟨.bool, .equality (by simp) ht⟩
    · cases hmis
  | lessThan | lessThanOrEqual | greaterThan | greaterThanOrEqual =>
    obtain ⟨a, b, rfl⟩ | hmis := two_operands_or_misapplied h (by simp)
    · obtain ⟨o, ho⟩ := exists_of_map_eq_ok h
      obtain ⟨ht, htype⟩ := types_of_ordering ho
      rw [List.map_cons, List.map_singleton, htype]
      exact ⟨.bool, .order (by simp) ht⟩
    · cases hmis
  | not =>
    obtain ⟨b, rfl⟩ | hmis := truth_or_misapplied h
    · exact ⟨.bool, .negation⟩
    · cases hmis
  | and | or => exact absurd (by simp) hk
  | isNull | isNotNull =>
    obtain ⟨a, rfl⟩ | hmis := one_operand_or_misapplied h (by simp)
    · refine ⟨.bool, .nullTest (by simp) ?_⟩
      cases a with
      | null => exact absurd (List.mem_singleton_self _) known
      | bool | int64 | float64 => rfl
    · cases hmis

/-! ## Refusals -/

/-- Values that cannot be compared are an internal error, because types were checked before. -/
theorem kind_of_equality_eq_error (h : equality v w = .error e) : e.kind = .internalError := by
  unfold equality at h
  split at h
  next => cases h
  next => cases h
  next => cases h
  next => cases h; rfl

/-- Values that cannot be ordered are an internal error, for the same reason. -/
theorem kind_of_ordering_eq_error (h : ordering v w = .error e) : e.kind = .internalError := by
  unfold ordering at h
  split at h
  next => cases h
  next => cases h
  next => cases h; rfl

theorem eq_error_of_map {α : Type} {x : Except Error α} {f : α → Value} (h : x.map f = .error e) :
    x = .error e := by
  cases x with
  | error e' =>
    cases h
    rfl
  | ok a => cases h

/-- Whatever operands a kernel refuses, it is an internal error. -/
theorem kind_of_apply_eq_error (h : k.apply args = .error e) : e.kind = .internalError := by
  cases k with
  | add | subtract | multiply | divide | mod | negative =>
    simp only [apply] at h
    split at h
    next => cases h
    next =>
      cases h
      rfl
  | equal | notEqual =>
    obtain ⟨a, b, rfl⟩ | hmis := two_operands_or_misapplied h (by simp)
    · exact kind_of_equality_eq_error (eq_error_of_map h)
    · cases hmis
      rfl
  | lessThan | lessThanOrEqual | greaterThan | greaterThanOrEqual =>
    obtain ⟨a, b, rfl⟩ | hmis := two_operands_or_misapplied h (by simp)
    · exact kind_of_ordering_eq_error (eq_error_of_map h)
    · cases hmis
      rfl
  | not =>
    obtain ⟨b, rfl⟩ | hmis := truth_or_misapplied h
    · cases h
    · cases hmis
      rfl
  | and | or =>
    obtain ⟨a, b, rfl⟩ | hmis := two_operands_or_misapplied h (by simp)
    · cases h
    · cases hmis
      rfl
  | isNull | isNotNull =>
    obtain ⟨a, rfl⟩ | hmis := one_operand_or_misapplied h (by simp)
    · cases h
    · cases hmis
      rfl

/-! ## Connectives -/

/-- A connective takes any two operands, of which it sees only whether they are true or false. -/
theorem apply_connective (d : Bool) (v w : Value) :
    (connective d).apply [v, w] = .ok (decidedBy d [v.truth, w.truth]) := by
  have hcall := call_connective d v.hasType_truth w.hasType_truth
  cases d with
  | false =>
    have hsame : conjunction v.truth w.truth = conjunction v w := by
      rw [conjunction, v.asBool?_truth, w.asBool?_truth, conjunction]
    rw [← hcall]
    exact congrArg Except.ok hsame.symm
  | true =>
    have hsame : disjunction v.truth w.truth = disjunction v w := by
      rw [disjunction, v.asBool?_truth, w.asBool?_truth, disjunction]
    rw [← hcall]
    exact congrArg Except.ok hsame.symm

/-- **Kernels take what they accept**: a kernel can be applied to operands that are not null just if
it accepts their types with some type of results, and then it yields a value of that type, or null.
It refuses all other operands with an internal error, unless it is a connective: that can be applied
to any two operands, and counts as null what is neither true nor false. -/
theorem applies_iff_accepts (k : Kernel) {args : List Value} (known : .null ∉ args) :
    ((∃ v, k.apply args = .ok v) ↔
      (∃ ret, k.accepts (args.map Value.type) ret = true) ∨
        ∃ d v w, k = connective d ∧ args = [v, w]) ∧
    (∀ ret, k.accepts (args.map Value.type) ret = true →
      ∃ v, k.apply args = .ok v ∧ (v = .null ∨ v.type = ret)) ∧
    (∀ e, k.apply args = .error e → e.kind = .internalError) ∧
    ∀ d v w, k = connective d → args = [v, w] →
      k.apply args = .ok (decidedBy d [v.truth, w.truth]) := by
  have accepted : ∀ ret, k.accepts (args.map Value.type) ret = true →
      ∃ v, k.apply args = .ok v ∧ v.HasType ret := by
    intro ret haccepts
    have htypes : List.Forall₂ Value.HasType args (args.map Value.type) := by
      rw [List.forall₂_map_right_iff, List.forall₂_same]
      exact fun v _ => v.hasType_type
    exact apply_of_typing (typing_of_accepts haccepts) htypes fun _ v hv hnull =>
      known (hnull ▸ hv)
  refine ⟨⟨?_, ?_⟩, accepted, fun e => kind_of_apply_eq_error, ?_⟩
  · rintro ⟨v, hv⟩
    by_cases hk : k ∈ [and, or]
    · have hconnective : ∃ d, k = connective d := by
        obtain rfl | rfl := by simpa using hk
        · exact ⟨false, rfl⟩
        · exact ⟨true, rfl⟩
      obtain ⟨d, hd⟩ := hconnective
      have htwo := two_operands_or_misapplied hv
        (List.mem_append_right [equal, notEqual, lessThan, lessThanOrEqual, greaterThan,
          greaterThanOrEqual] hk)
      obtain ⟨a, b, hargs⟩ | hmis := htwo
      · exact Or.inr ⟨d, a, b, hd, hargs⟩
      · cases hmis
    · obtain ⟨ret, htyping⟩ := typing_of_apply_eq_ok hk known hv
      exact Or.inl ⟨ret, accepts_of_typing htyping⟩
  · rintro (⟨ret, haccepts⟩ | ⟨d, v, w, rfl, rfl⟩)
    · obtain ⟨v, hv, -⟩ := accepted ret haccepts
      exact ⟨v, hv⟩
    · exact ⟨_, apply_connective d v w⟩
  · rintro d v w rfl rfl
    exact apply_connective d v w

/-- Division takes integers and yields null for zero, truth values cannot be ordered, and a
disjunction passes over an integer. -/
theorem sample_applies :
    (∃ v, divide.apply [.int64 7, .int64 0] = .ok v ∧ (v = .null ∨ v.type = .int64)) ∧
    (¬∃ v, lessThan.apply [.bool false, .bool true] = .ok v) ∧
    or.apply [.int64 5, .bool true] = .ok (.bool true) := by
  have known : .null ∉ [Value.int64 7, .int64 0] := by decide
  have known' : .null ∉ [Value.bool false, .bool true] := by decide
  have known'' : .null ∉ [Value.int64 5, .bool true] := by decide
  obtain ⟨-, hdivide, -⟩ := applies_iff_accepts divide known
  obtain ⟨hless, -⟩ := applies_iff_accepts lessThan known'
  obtain ⟨-, -, -, hor⟩ := applies_iff_accepts or known''
  refine ⟨hdivide .int64 rfl, ?_, hor true _ _ rfl rfl⟩
  rw [hless]
  rintro (⟨ret, haccepts⟩ | ⟨d, v, w, hk, -⟩)
  · cases haccepts
  · cases d with
    | false => cases hk
    | true => cases hk

/-- A conjunction can be applied to an integer, whose type it does not accept. -/
theorem conjunction_unchecked :
    .null ∉ [Value.int64 5, .bool true] ∧ and.apply [.int64 5, .bool true] = .ok .null ∧
      ¬∃ ret, and.accepts ([Value.int64 5, .bool true].map Value.type) ret = true := by
  refine ⟨by decide, rfl, ?_⟩
  rintro ⟨ret, haccepts⟩
  cases haccepts

end Kernel

end RowFilter
