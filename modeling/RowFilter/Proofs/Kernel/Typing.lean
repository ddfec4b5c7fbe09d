import RowFilter.Kernel.Apply
import Mathlib.Data.List.Forall2

/-!
# Kernels respect types

`Kernel.Typing` lists the operand and result types that kernels can run with, one constructor for
each family of kernels. They are those that `Kernel.accepts` accepts (`typing_of_accepts`,
`accepts_of_typing`). Main result: `call_of_typing`. A kernel that is called with operands of types
it accepts, any of them possibly null, yields a value of the result type, or null.
-/

namespace RowFilter

namespace Value

/-- The value may stand where one of the type is expected: it is null, or of the type. -/
def HasType (v : Value) (t : DataType) : Prop := v = .null ∨ v.type = t

/-- Null may stand anywhere. -/
theorem hasType_null (t : DataType) : HasType .null t := Or.inl rfl

theorem hasType_type (v : Value) : v.HasType v.type := Or.inr rfl

theorem hasType_ite_null {p : Prop} [Decidable p] {v : Value} {t : DataType} (h : v.HasType t) :
    (if p then .null else v).HasType t := by
  split
  next => exact hasType_null t
  next => exact h

/-- Only the numbers of the two sorts have a numeric type, except for null. -/
theorem HasType.number {v : Value} {t : DataType} (h : v.HasType t) (ht : t.isNumeric = true)
    (hv : v ≠ .null) :
    (t = .int64 ∧ ∃ n, v = .int64 n) ∨ (t = .float64 ∧ ∃ x, v = .float64 x) := by
  obtain rfl | rfl := h
  · exact absurd rfl hv
  · cases v with
    | null => exact absurd rfl hv
    | bool b => cases ht
    | int64 n => exact Or.inl ⟨rfl, n, rfl⟩
    | float64 x => exact Or.inr ⟨rfl, x, rfl⟩

/-- Only truths have the type of truths, except for null. -/
theorem HasType.truth {v : Value} (h : v.HasType .bool) (hv : v ≠ .null) : ∃ b, v = .bool b := by
  obtain rfl | htype := h
  · exact absurd rfl hv
  · cases v with
    | null => cases htype
    | bool b => exact ⟨b, rfl⟩
    | int64 n => cases htype
    | float64 x => cases htype

end Value

namespace Kernel

/-- The operand and result types that a kernel can run with. -/
inductive Typing : Kernel → List DataType → DataType → Prop
  | arithmetic {k : Kernel} {t : DataType} (hk : k ∈ [add, subtract, multiply, divide, mod])
      (ht : t.isNumeric = true) : Typing k [t, t] t
  | sign {t : DataType} (ht : t.isNumeric = true) : Typing negative [t] t
  | equality {k : Kernel} {t : DataType} (hk : k ∈ [equal, notEqual])
      (ht : t.isColumnType = true) : Typing k [t, t] .bool
  | order {k : Kernel} {t : DataType}
      (hk : k ∈ [lessThan, lessThanOrEqual, greaterThan, greaterThanOrEqual])
      (ht : t.isNumeric = true) : Typing k [t, t] .bool
  | negation : Typing not [.bool] .bool
  | connective {k : Kernel} (hk : k ∈ [and, or]) : Typing k [.bool, .bool] .bool
  | nullTest {k : Kernel} {t : DataType} (hk : k ∈ [isNull, isNotNull])
      (ht : t.isColumnType = true) : Typing k [t] .bool

/-- What a kernel accepts is one of these types. -/
theorem typing_of_accepts {k : Kernel} {args : List DataType} {ret : DataType}
    (h : k.accepts args ret = true) : Typing k args ret := by
  unfold accepts at h
  -- one case for each line of `accepts`; the last line accepts nothing
  split at h
  all_goals simp only [Bool.and_eq_true, beq_iff_eq, Bool.false_eq_true] at h
  case h_1 | h_2 | h_3 | h_4 | h_5 =>
    obtain ⟨⟨rfl, ht⟩, rfl⟩ := h
    exact .arithmetic (by simp) ht
  case h_6 =>
    obtain ⟨ht, rfl⟩ := h
    exact .sign ht
  case h_7 | h_8 =>
    obtain ⟨⟨rfl, ht⟩, rfl⟩ := h
    exact .equality (by simp) ht
  case h_9 | h_10 | h_11 | h_12 =>
    obtain ⟨⟨rfl, ht⟩, rfl⟩ := h
    exact .order (by simp) ht
  case h_13 =>
    obtain rfl := h
    exact .negation
  case h_14 | h_15 =>
    obtain rfl := h
    exact .connective (by simp)
  case h_16 | h_17 =>
    obtain ⟨ht, rfl⟩ := h
    exact .nullTest (by simp) ht

/-- All of these types are accepted. -/
theorem accepts_of_typing {k : Kernel} {args : List DataType} {ret : DataType}
    (h : Typing k args ret) : k.accepts args ret = true := by
  cases h with
  | arithmetic hk ht =>
    obtain rfl | rfl | rfl | rfl | rfl := by simpa using hk
    all_goals simp [accepts, ht]
  | sign ht => simp [accepts, ht]
  | equality hk ht =>
    obtain rfl | rfl := by simpa using hk
    all_goals simp [accepts, ht]
  | order hk ht =>
    obtain rfl | rfl | rfl | rfl := by simpa using hk
    all_goals simp [accepts, ht]
  | negation => rfl
  | connective hk =>
    obtain rfl | rfl := by simpa using hk
    all_goals rfl
  | nullTest hk ht =>
    obtain rfl | rfl := by simpa using hk
    all_goals simp [accepts, ht]

/-- Kernels take one operand or two. -/
theorem Typing.length_eq {k : Kernel} {args : List DataType} {ret : DataType}
    (h : Typing k args ret) : args.length = 1 ∨ args.length = 2 := by
  cases h with
  | arithmetic => exact Or.inr rfl
  | sign => exact Or.inl rfl
  | equality => exact Or.inr rfl
  | order => exact Or.inr rfl
  | negation => exact Or.inl rfl
  | connective => exact Or.inr rfl
  | nullTest => exact Or.inl rfl

/-- Two operands have one type. -/
theorem Typing.eq_of_pair {k : Kernel} {s t ret : DataType} (h : Typing k [s, t] ret) : t = s := by
  cases h with
  | arithmetic => rfl
  | equality => rfl
  | order => rfl
  | connective => rfl

/-! ## Applying a kernel to operands of accepted types -/

/-- Arithmetic on integers. A zero divisor gives null. -/
theorem apply_int64s {k : Kernel} (hk : k ∈ [add, subtract, multiply, divide, mod]) (a b : Int64) :
    ∃ v, k.apply [.int64 a, .int64 b] = .ok v ∧ v.HasType .int64 := by
  obtain rfl | rfl | rfl | rfl | rfl := by simpa using hk
  · exact ⟨_, rfl, Value.hasType_type _⟩
  · exact ⟨_, rfl, Value.hasType_type _⟩
  · exact ⟨_, rfl, Value.hasType_type _⟩
  · exact ⟨_, rfl, Value.hasType_ite_null (Value.hasType_type (.int64 _))⟩
  · exact ⟨_, rfl, Value.hasType_ite_null (Value.hasType_type (.int64 _))⟩

/-- Arithmetic on doubles. A zero divisor gives null. -/
theorem apply_float64s {k : Kernel} (hk : k ∈ [add, subtract, multiply, divide, mod])
    (x y : Binary64) : ∃ v, k.apply [.float64 x, .float64 y] = .ok v ∧ v.HasType .float64 := by
  obtain rfl | rfl | rfl | rfl | rfl := by simpa using hk
  · exact ⟨_, rfl, Value.hasType_type _⟩
  · exact ⟨_, rfl, Value.hasType_type _⟩
  · exact ⟨_, rfl, Value.hasType_type _⟩
  · exact ⟨_, rfl, Value.hasType_ite_null (Value.hasType_type (.float64 _))⟩
  · exact ⟨_, rfl, Value.hasType_ite_null (Value.hasType_type (.float64 _))⟩

/-- Two values of one column type can be compared. -/
theorem exists_equality {v w : Value} {t : DataType} (hv : v.HasType t) (hw : w.HasType t)
    (hvnull : v ≠ .null) (hwnull : w ≠ .null) : ∃ same, equality v w = .ok same := by
  have htype : w.type = v.type := by
    rw [hv.resolve_left hvnull]
    exact hw.resolve_left hwnull
  cases v with
  | null => exact absurd rfl hvnull
  | bool a =>
    cases w with
    | bool b => exact ⟨_, rfl⟩
    | null | int64 | float64 => cases htype
  | int64 a =>
    cases w with
    | int64 b => exact ⟨_, rfl⟩
    | null | bool | float64 => cases htype
  | float64 x =>
    cases w with
    | float64 y => exact ⟨_, rfl⟩
    | null | bool | int64 => cases htype

/-- Two numbers of one type can be ordered, though there may be no order between doubles. -/
theorem exists_ordering {v w : Value} {t : DataType} (ht : t.isNumeric = true) (hv : v.HasType t)
    (hw : w.HasType t) (hvnull : v ≠ .null) (hwnull : w ≠ .null) :
    ∃ o, ordering v w = .ok o := by
  obtain ⟨rfl, a, rfl⟩ | ⟨rfl, x, rfl⟩ := hv.number ht hvnull
  · obtain ⟨-, b, rfl⟩ | ⟨h, -⟩ := hw.number ht hwnull
    · exact ⟨_, rfl⟩
    · cases h
  · obtain ⟨h, -⟩ | ⟨-, y, rfl⟩ := hw.number ht hwnull
    · cases h
    · exact ⟨_, rfl⟩

/-- A connective always comes to a truth value or null. -/
theorem hasType_conjunction (a b : Value) : (conjunction a b).HasType .bool := by
  rw [conjunction]
  split
  next => exact Or.inr rfl
  next => exact Or.inr rfl
  next => exact Or.inr rfl
  next => exact Or.inl rfl

theorem hasType_disjunction (a b : Value) : (disjunction a b).HasType .bool := by
  rw [disjunction]
  split
  next => exact Or.inr rfl
  next => exact Or.inr rfl
  next => exact Or.inr rfl
  next => exact Or.inl rfl

/-- One operand. -/
theorem exists_of_forall₂_one {args : List Value} {t : DataType}
    (h : List.Forall₂ Value.HasType args [t]) : ∃ v, args = [v] ∧ v.HasType t := by
  obtain ⟨v, rest, hv, hrest, rfl⟩ := List.forall₂_cons_right_iff.mp h
  rw [List.forall₂_nil_right_iff] at hrest
  exact ⟨v, by rw [hrest], hv⟩

/-- Two operands. -/
theorem exists_of_forall₂_two {args : List Value} {s t : DataType}
    (h : List.Forall₂ Value.HasType args [s, t]) :
    ∃ v w, args = [v, w] ∧ v.HasType s ∧ w.HasType t := by
  obtain ⟨v, rest, hv, hrest, rfl⟩ := List.forall₂_cons_right_iff.mp h
  obtain ⟨w, rfl, hw⟩ := exists_of_forall₂_one hrest
  exact ⟨v, w, rfl, hv, hw⟩

/-- The kernels of these three families see no null. -/
theorem propagates_arithmetic :
    ∀ k ∈ [add, subtract, multiply, divide, mod], k.nullHandling = .propagate := by
  decide

theorem propagates_equality : ∀ k ∈ [equal, notEqual], k.nullHandling = .propagate := by
  decide

theorem propagates_order :
    ∀ k ∈ [lessThan, lessThanOrEqual, greaterThan, greaterThanOrEqual],
      k.nullHandling = .propagate := by
  decide

/-- A kernel that is given operands of types it accepts yields a value of the result type. Only
kernels that decide on nulls may be given null. -/
theorem apply_of_typing {k : Kernel} {types : List DataType} {ret : DataType}
    (h : Typing k types ret) {args : List Value} (hargs : List.Forall₂ Value.HasType args types)
    (hnull : k.nullHandling = .propagate → ∀ v ∈ args, v ≠ .null) :
    ∃ v, k.apply args = .ok v ∧ v.HasType ret := by
  cases h with
  | arithmetic hk ht =>
    obtain ⟨v, w, rfl, hv, hw⟩ := exists_of_forall₂_two hargs
    have hsome := hnull (propagates_arithmetic k hk)
    -- both are numbers of the one type, so both are of one sort
    obtain ⟨rfl, a, rfl⟩ | ⟨rfl, x, rfl⟩ := hv.number ht (hsome v (by simp))
    · obtain ⟨-, b, rfl⟩ | ⟨h, -⟩ := hw.number ht (hsome w (by simp))
      · exact apply_int64s hk a b
      · cases h
    · obtain ⟨h, -⟩ | ⟨-, y, rfl⟩ := hw.number ht (hsome w (by simp))
      · cases h
      · exact apply_float64s hk x y
  | sign ht =>
    obtain ⟨v, rfl, hv⟩ := exists_of_forall₂_one hargs
    obtain ⟨rfl, a, rfl⟩ | ⟨rfl, x, rfl⟩ := hv.number ht (hnull rfl v (by simp))
    · exact ⟨_, rfl, Value.hasType_type _⟩
    · exact ⟨_, rfl, Value.hasType_type _⟩
  | equality hk ht =>
    obtain ⟨v, w, rfl, hv, hw⟩ := exists_of_forall₂_two hargs
    have hsome := hnull (propagates_equality k hk)
    obtain ⟨same, hsame⟩ := exists_equality hv hw (hsome v (by simp)) (hsome w (by simp))
    obtain rfl | rfl := by simpa using hk
    · exact ⟨.bool same, by rw [apply, hsame]; rfl, Or.inr rfl⟩
    · exact ⟨.bool !same, by rw [apply, hsame]; rfl, Or.inr rfl⟩
  | order hk ht =>
    obtain ⟨v, w, rfl, hv, hw⟩ := exists_of_forall₂_two hargs
    have hsome := hnull (propagates_order k hk)
    obtain ⟨o, ho⟩ := exists_ordering ht hv hw (hsome v (by simp)) (hsome w (by simp))
    obtain rfl | rfl | rfl | rfl := by simpa using hk
    · exact ⟨.bool (o.any (·.isLT)), by rw [apply, ordered, ho]; rfl, Or.inr rfl⟩
    · exact ⟨.bool (o.any (·.isLE)), by rw [apply, ordered, ho]; rfl, Or.inr rfl⟩
    · exact ⟨.bool (o.any (·.isGT)), by rw [apply, ordered, ho]; rfl, Or.inr rfl⟩
    · exact ⟨.bool (o.any (·.isGE)), by rw [apply, ordered, ho]; rfl, Or.inr rfl⟩
  | negation =>
    obtain ⟨v, rfl, hv⟩ := exists_of_forall₂_one hargs
    obtain ⟨b, rfl⟩ := hv.truth (hnull rfl v (by simp))
    exact ⟨.bool !b, rfl, Or.inr rfl⟩
  | connective hk =>
    obtain ⟨v, w, rfl, hv, hw⟩ := exists_of_forall₂_two hargs
    obtain rfl | rfl := by simpa using hk
    · exact ⟨conjunction v w, rfl, hasType_conjunction v w⟩
    · exact ⟨disjunction v w, rfl, hasType_disjunction v w⟩
  | nullTest hk ht =>
    obtain ⟨v, rfl, -⟩ := exists_of_forall₂_one hargs
    obtain rfl | rfl := by simpa using hk
    · exact ⟨.bool v.isNull, rfl, Or.inr rfl⟩
    · exact ⟨.bool !v.isNull, rfl, Or.inr rfl⟩

/-- **Kernels respect types**: a kernel that is called with operands of types it accepts, any of
them possibly null, yields a value of the result type, or null. -/
theorem call_of_typing {k : Kernel} {types : List DataType} {ret : DataType}
    (h : Typing k types ret) {args : List Value} (hargs : List.Forall₂ Value.HasType args types) :
    ∃ v, k.call args = .ok v ∧ v.HasType ret := by
  rw [call]
  split
  next => exact ⟨.null, rfl, Value.hasType_null ret⟩
  next hsome =>
    -- past this test there is no null left for a kernel that propagates them
    refine apply_of_typing h hargs fun hpropagate v hv hnull => hsome ⟨hpropagate, ?_⟩
    rw [List.any_eq_true]
    exact ⟨v, hv, by rw [hnull]; rfl⟩

end Kernel

end RowFilter
