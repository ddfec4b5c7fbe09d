import RowFilter.Proofs.Kernel.Information
import RowFilter.Proofs.Value.Amount

/-!
# The comparisons agree with each other

Equality and order are computed apart, on integers and on doubles in different ways. What a
comparison says of two numbers still depends on nothing but the order of their amounts
(`call_comparison`), so all of them together are consistent. Main result: `consistent_holds`. Of
less, equal and greater just one holds, or none of them with a NaN, and the other comparisons are
made of these.
-/

namespace RowFilter.Kernel

/-- The kernels that compare two operands. -/
def comparisons : List Kernel :=
  [equal, notEqual, lessThan, lessThanOrEqual, greaterThan, greaterThanOrEqual]

/-- Whether a comparison holds of two numbers of which this is the order. Without an order, they are
not equal and nothing else. -/
def holds : Kernel → Option Ordering → Bool
  | equal, o => o == some .eq
  | notEqual, o => o != some .eq
  | lessThan, o => o.any (·.isLT)
  | lessThanOrEqual, o => o.any (·.isLE)
  | greaterThan, o => o.any (·.isGT)
  | greaterThanOrEqual, o => o.any (·.isGE)
  | _, _ => false

/-- Truth values for the comparisons of one pair of numbers that agree with each other. -/
structure Consistent (truth : Kernel → Bool) (hasNaN : Bool) : Prop where
  notEqual_eq : truth notEqual = !truth equal
  lessThanOrEqual_eq : truth lessThanOrEqual = (truth lessThan || truth equal)
  greaterThanOrEqual_eq : truth greaterThanOrEqual = (truth greaterThan || truth equal)
  /-- At most one of the three is true, and one is but for a NaN. -/
  countP_eq : [lessThan, equal, greaterThan].countP truth = if hasNaN then 0 else 1
  /-- A NaN is not equal to any number, and that is all. -/
  unordered : hasNaN = true → ∀ k ∈ comparisons, truth k = true ↔ k = notEqual

variable {k : Kernel} {v w : Value}

/-- All six comparisons take two numbers of one type. -/
theorem typing_comparison {t : DataType} (hk : k ∈ comparisons) (ht : t.isNumeric = true) :
    Typing k [t, t] .bool := by
  have hcolumn : t.isColumnType = true := by
    cases t with
    | null => cases ht
    | bool | int64 | float64 => rfl
  obtain rfl | rfl | rfl | rfl | rfl | rfl := by simpa [comparisons] using hk
  · exact .equality (by simp) hcolumn
  · exact .equality (by simp) hcolumn
  · exact .order (by simp) ht
  · exact .order (by simp) ht
  · exact .order (by simp) ht
  · exact .order (by simp) ht

/-- A null operand makes every comparison null. -/
theorem propagates_comparison : ∀ k ∈ comparisons, k.nullHandling = .propagate := by
  decide

/-- A comparison is decided by the order of the amounts. -/
theorem call_comparison (hk : k ∈ comparisons) (hv : v.type.isNumeric = true)
    (hw : w.type = v.type) : k.call [v, w] = .ok (.bool (k.holds (v.order? w))) := by
  have hnull : ¬(k.nullHandling = .propagate ∧ [v, w].any Value.isNull = true) := by
    rintro ⟨-, hnull⟩
    cases v with
    | null | bool => cases hv
    | int64 | float64 =>
      cases w with
      | null => cases hw
      | bool | int64 | float64 => cases hnull
  rw [call, if_neg hnull]
  obtain rfl | rfl | rfl | rfl | rfl | rfl := by simpa [comparisons] using hk
  · rw [apply, equality_eq hv hw]
    rfl
  · rw [apply, equality_eq hv hw]
    rfl
  all_goals
    rw [apply, ordered, ordering_eq hv hw]
    rfl

/-- Exchanging the operands exchanges less and greater. -/
theorem greaterThan_holds_swap (o : Option Ordering) :
    greaterThan.holds (o.map Ordering.swap) = lessThan.holds o := by
  cases o with
  | none => rfl
  | some order => cases order <;> rfl

/-- **The comparisons are consistent**, whatever the order is. -/
theorem consistent_holds (o : Option Ordering) : Consistent (fun k => k.holds o) o.isNone := by
  constructor
  case notEqual_eq => rfl
  case lessThanOrEqual_eq =>
    cases o with
    | none => rfl
    | some order => cases order <;> rfl
  case greaterThanOrEqual_eq =>
    cases o with
    | none => rfl
    | some order => cases order <;> rfl
  case countP_eq =>
    cases o with
    | none => rfl
    | some order => cases order <;> rfl
  case unordered =>
    intro hnone
    rw [Option.isNone_iff_eq_none.mp hnone]
    decide

end RowFilter.Kernel
