import Mathlib.Algebra.Group.Nat.Defs
import Mathlib.Data.Int.Order.Basic
import Mathlib.Order.Compare
import RowFilter.Kernel.Apply

/-!
# Numbers are compared by their amounts

The order key of a double is made of its bits. `Binary64.amount` is the number that the double
stands for, counted in the smallest positive double; by the same formula an infinity stands for a
number beyond all finite ones. Amounts grow with the key (`orderKey_lt_iff`), so equality and order
are those of the amounts (`compare?_eq`). Main result: `Kernel.ordering_eq`. Two numbers of one type
are ordered as their amounts are, and a NaN has none.
-/

namespace RowFilter

namespace Binary64

/-- The exact value in multiples of the smallest positive double. -/
def amount (x : Binary64) : Int := if x.isNegative then -(x.units : Int) else x.units

variable {x y : Binary64}

/-! ## Units grow with the magnitude -/

theorem units_of_lt (h : x.magnitude < leadingBit) : x.units = x.magnitude := by
  have hplace : x.lastPlace = 0 := by
    rw [lastPlace, Nat.div_eq_of_lt h]
  rw [units, significand, if_pos h, hplace, Nat.shiftLeft_zero]

theorem units_of_le (h : leadingBit ≤ x.magnitude) :
    x.units = (x.magnitude % leadingBit + leadingBit) * 2 ^ (x.magnitude / leadingBit - 1) := by
  rw [units, significand, if_neg (Nat.not_lt.mpr h), lastPlace, Nat.shiftLeft_eq]

/-- A significand has a leading bit and no further one, so units are bounded by powers of two. -/
theorem units_bounds (h : leadingBit ≤ x.magnitude) :
    leadingBit * 2 ^ (x.magnitude / leadingBit - 1) ≤ x.units ∧
      x.units < leadingBit * 2 ^ (x.magnitude / leadingBit) := by
  have hquotient : x.magnitude / leadingBit = x.magnitude / leadingBit - 1 + 1 := by
    have : 0 < x.magnitude / leadingBit := Nat.div_pos h (by decide)
    omega
  have hremainder : x.magnitude % leadingBit < leadingBit := Nat.mod_lt _ (by decide)
  rw [units_of_le h]
  constructor
  · exact Nat.mul_le_mul_right _ (Nat.le_add_left _ _)
  · rw [hquotient, Nat.pow_succ', ← Nat.mul_assoc]
    exact Nat.mul_lt_mul_of_pos_right (by omega) (Nat.two_pow_pos _)

theorem units_lt (h : x.magnitude < y.magnitude) : x.units < y.units := by
  by_cases hy : y.magnitude < leadingBit
  · rw [units_of_lt hy, units_of_lt (Nat.lt_trans h hy)]
    exact h
  · have hy : leadingBit ≤ y.magnitude := Nat.not_lt.mp hy
    by_cases hx : x.magnitude < leadingBit
    · -- below the leading bit are all doubles without one
      have hpow : leadingBit * 1 ≤ leadingBit * 2 ^ (y.magnitude / leadingBit - 1) :=
        Nat.mul_le_mul_left _ (Nat.one_le_two_pow)
      have := (units_bounds hy).1
      rw [units_of_lt hx]
      omega
    · have hx : leadingBit ≤ x.magnitude := Nat.not_lt.mp hx
      by_cases hexponent : x.magnitude / leadingBit = y.magnitude / leadingBit
      · -- with the same exponent the rest of the bits decides
        have hrest : x.magnitude % leadingBit < y.magnitude % leadingBit := by
          have := Nat.div_add_mod x.magnitude leadingBit
          have := Nat.div_add_mod y.magnitude leadingBit
          rw [hexponent] at *
          omega
        rw [units_of_le hx, units_of_le hy, hexponent]
        exact Nat.mul_lt_mul_of_pos_right (by omega) (Nat.two_pow_pos _)
      · have hless : x.magnitude / leadingBit ≤ y.magnitude / leadingBit - 1 := by
          have := Nat.div_le_div_right (c := leadingBit) (Nat.le_of_lt h)
          omega
        calc x.units < leadingBit * 2 ^ (x.magnitude / leadingBit) := (units_bounds hx).2
          _ ≤ leadingBit * 2 ^ (y.magnitude / leadingBit - 1) :=
            Nat.mul_le_mul_left _ (Nat.pow_le_pow_right (by decide) hless)
          _ ≤ y.units := (units_bounds hy).1

theorem units_eq_zero_iff : x.units = 0 ↔ x.magnitude = 0 := by
  by_cases h : x.magnitude < leadingBit
  · rw [units_of_lt h]
  · have h : leadingBit ≤ x.magnitude := Nat.not_lt.mp h
    have hbit : 0 < leadingBit := by decide
    have hpow := Nat.mul_pos hbit (Nat.two_pow_pos (x.magnitude / leadingBit - 1))
    have := (units_bounds h).1
    omega

theorem units_lt_iff : x.units < y.units ↔ x.magnitude < y.magnitude := by
  refine ⟨fun h => ?_, units_lt⟩
  apply Classical.byContradiction
  intro hle
  rcases Nat.lt_or_eq_of_le (Nat.not_lt.mp hle) with hlt | heq
  · exact Nat.lt_asymm h (units_lt hlt)
  · have : x.units = y.units := by
      rw [units, units, significand, significand, lastPlace, lastPlace, heq]
    omega

/-- Keys are ordered as what they stand for. -/
theorem orderKey_lt_iff : x.orderKey < y.orderKey ↔ x.amount < y.amount := by
  have hzero := @units_eq_zero_iff x
  have hzero' := @units_eq_zero_iff y
  have hlt := @units_lt_iff x y
  have hgt := @units_lt_iff y x
  rw [orderKey, orderKey, amount, amount]
  cases x.isNegative <;> cases y.isNegative <;> simp <;> omega

/-- The order of the standard is that of the amounts, and there is none with a NaN. -/
theorem compare?_eq (hx : x.isNaN = false) (hy : y.isNaN = false) :
    x.compare? y = some (compare x.amount y.amount) := by
  rw [compare?, hx, hy, Bool.or_self, if_neg Bool.false_ne_true, Option.some_inj]
  rcases lt_trichotomy x.amount y.amount with hlt | heq | hgt
  · rw [compare_lt_iff_lt.mpr hlt, compare_lt_iff_lt, orderKey_lt_iff]
    exact hlt
  · rw [compare_eq_iff_eq.mpr heq, compare_eq_iff_eq]
    have hlt := @orderKey_lt_iff x y
    have hgt := @orderKey_lt_iff y x
    omega
  · rw [compare_gt_iff_gt.mpr hgt, compare_gt_iff_gt, orderKey_lt_iff]
    exact hgt

theorem compare?_eq_none (h : (x.isNaN || y.isNaN) = true) : x.compare? y = none := by
  rw [compare?, if_pos h]

/-- What is equal is what is ordered as equal. -/
theorem equals_eq (x y : Binary64) : x.equals y = (x.compare? y == some .eq) := by
  rw [equals, compare?]
  cases x.isNaN with
  | true => rfl
  | false =>
    cases y.isNaN with
    | true => rfl
    | false =>
      have hsame : (x.orderKey == y.orderKey) = (compare x.orderKey y.orderKey == .eq) := by
        rw [Bool.eq_iff_iff, beq_iff_eq, beq_iff_eq, compare_eq_iff_eq]
      exact hsame

end Binary64

namespace Value

/-- A double that is no number. -/
def isNaN : Value → Bool
  | float64 x => x.isNaN
  | _ => false

/-- Where a number stands among those of its type. A NaN stands nowhere. -/
def amount? : Value → Option Int
  | int64 n => some n.toInt
  | float64 x => if x.isNaN then none else some x.amount
  | _ => none

/-- How two values are ordered, if both have an amount. -/
def order? (v w : Value) : Option Ordering := v.amount?.bind fun m => w.amount?.map (compare m)

variable {v w : Value}

/-- Only NaNs are unordered among numbers. -/
theorem order?_eq_none_iff (hv : v.type.isNumeric = true) (hw : w.type = v.type) :
    v.order? w = none ↔ (v.isNaN || w.isNaN) = true := by
  cases v with
  | null | bool => cases hv
  | int64 m =>
    cases w with
    | null | bool | float64 => cases hw
    | int64 n => exact ⟨nofun, nofun⟩
  | float64 x =>
    cases w with
    | null | bool | int64 => cases hw
    | float64 y =>
      simp only [order?, amount?, isNaN]
      cases x.isNaN <;> cases y.isNaN <;> simp

/-- The other way round, the order is the other one. -/
theorem order?_swap (v w : Value) : w.order? v = (v.order? w).map Ordering.swap := by
  rw [order?, order?]
  cases v.amount? with
  | none => cases w.amount? <;> rfl
  | some m =>
    cases w.amount? with
    | none => rfl
    | some n =>
      have hswap : compare n m = (compare m n).swap := Std.OrientedCmp.eq_swap
      exact congrArg some hswap

end Value

namespace Kernel

variable {v w : Value}

/-- **Numbers of one type are ordered by their amounts.** -/
theorem ordering_eq (hv : v.type.isNumeric = true) (hw : w.type = v.type) :
    ordering v w = .ok (v.order? w) := by
  cases v with
  | null | bool => cases hv
  | int64 m =>
    cases w with
    | null | bool | float64 => cases hw
    | int64 n => rfl
  | float64 x =>
    cases w with
    | null | bool | int64 => cases hw
    | float64 y =>
      rw [ordering, Value.order?, Value.amount?, Value.amount?]
      cases hx : x.isNaN with
      | true =>
        rw [Binary64.compare?_eq_none (by rw [hx, Bool.true_or])]
        rfl
      | false =>
        cases hy : y.isNaN with
        | true =>
          rw [Binary64.compare?_eq_none (by rw [hy, Bool.or_true])]
          rfl
        | false =>
          rw [Binary64.compare?_eq hx hy]
          rfl

/-- They are equal if the order says so. -/
theorem equality_eq (hv : v.type.isNumeric = true) (hw : w.type = v.type) :
    equality v w = .ok (v.order? w == some .eq) := by
  have hordering := ordering_eq hv hw
  cases v with
  | null | bool => cases hv
  | int64 m =>
    cases w with
    | null | bool | float64 => cases hw
    | int64 n =>
      have hsame : (m == n) = (compare m.toInt n.toInt == .eq) := by
        rw [Bool.eq_iff_iff, beq_iff_eq, beq_iff_eq, compare_eq_iff_eq, Int64.toInt_inj]
      exact congrArg Except.ok hsame
  | float64 x =>
    cases w with
    | null | bool | int64 => cases hw
    | float64 y =>
      rw [equality, Binary64.equals_eq, Except.ok.inj hordering]

end Kernel

end RowFilter
