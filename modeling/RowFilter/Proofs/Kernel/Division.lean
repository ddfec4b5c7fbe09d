import RowFilter.Kernel.Apply

/-!
# Quotient and remainder of integers

In 64 bits the quotient and the remainder are what is left of the exact truncated ones. Only the
least integer divided by `-1` does not fit, and the rest are exact (`quotient_eq`). Product and sum
wrap around in the same way, so they undo the division without exception. Main result:
`apply_division`. Quotient and remainder of two integers are null together or give back the
dividend.
-/

namespace RowFilter

/-- How the quotient `q` and the remainder `r` relate to the dividend `a` and the divisor `b`. -/
structure Divides (a b q r : Int64) : Prop where
  /-- The remainder is the exact one. It is less than the divisor and has the dividend's sign. -/
  remainder_eq : r.toInt = a.toInt.tmod b.toInt
  natAbs_lt : r.toInt.natAbs < b.toInt.natAbs
  sign_eq : r = 0 ∨ r.toInt.sign = a.toInt.sign
  /-- The quotient is the exact one, unless this is too large. -/
  quotient_eq : if a = .minValue ∧ b = -1 then q = .minValue else q.toInt = a.toInt.tdiv b.toInt

namespace Divides

variable {a b : Int64}

theorem toInt_ne_zero (hb : b ≠ 0) : b.toInt ≠ 0 := by
  intro hzero
  exact hb (Int64.toInt_inj.mp hzero)

/-- The quotient is exact if it is not the one that is too large. -/
theorem toInt_div (h : ¬(a = .minValue ∧ b = -1)) : (a / b).toInt = a.toInt.tdiv b.toInt := by
  rcases Classical.not_and_iff_not_or_not.mp h with ha | hb
  · exact Int64.toInt_div_of_ne_left a b ha
  · exact Int64.toInt_div_of_ne_right a b hb

/-- Division in 64 bits. -/
theorem div_mod (hb : b ≠ 0) : Divides a b (a / b) (a % b) := by
  have hdivisor : 0 < b.toInt.natAbs := Int.natAbs_pos.mpr (toInt_ne_zero hb)
  have hremainder : (a % b).toInt = a.toInt.tmod b.toInt := Int64.toInt_mod a b
  constructor
  case remainder_eq => exact hremainder
  case natAbs_lt =>
    rw [hremainder, Int.natAbs_tmod]
    exact Nat.mod_lt _ hdivisor
  case sign_eq =>
    rw [← Int64.toInt_inj, hremainder, Int.sign_tmod]
    by_cases hdvd : b.toInt ∣ a.toInt
    · exact Or.inl (Int.tmod_eq_zero_of_dvd hdvd)
    · rw [if_neg hdvd]
      exact Or.inr rfl
  case quotient_eq =>
    split
    next h =>
      rw [h.1, h.2]
      exact Int64.minValue_div_neg_one
    next h => exact toInt_div h

/-- Quotient and remainder give back the dividend, because both are what is left of the exact ones
in 64 bits. -/
theorem div_mul_add_mod (a b : Int64) : a / b * b + a % b = a := by
  have hquotient : a / b = .ofInt (a.toInt.tdiv b.toInt) := by
    rw [eq_comm, Int64.ofInt_eq_iff_bmod_eq_toInt, Int64.toInt_div]
  have hremainder : a % b = .ofInt (a.toInt.tmod b.toInt) := by
    rw [← Int64.toInt_mod, Int64.ofInt_toInt]
  calc a / b * b + a % b
      = .ofInt (a.toInt.tdiv b.toInt) * .ofInt b.toInt + .ofInt (a.toInt.tmod b.toInt) := by
        rw [hquotient, hremainder, Int64.ofInt_toInt]
    _ = .ofInt (a.toInt.tdiv b.toInt * b.toInt + a.toInt.tmod b.toInt) := by
        rw [Int64.ofInt_add, Int64.ofInt_mul]
    _ = a := by
        rw [Int.tdiv_mul_add_tmod, Int64.ofInt_toInt]

end Divides

namespace Kernel

/-- **Division with remainder**: for a zero divisor both kernels yield null. Otherwise they yield a
quotient and a remainder, and the quotient times the divisor plus the remainder is the dividend. -/
theorem apply_division (a b : Int64) :
    (b = 0 → divide.apply [.int64 a, .int64 b] = .ok .null ∧
      mod.apply [.int64 a, .int64 b] = .ok .null) ∧
    (b ≠ 0 → ∃ q r p, divide.apply [.int64 a, .int64 b] = .ok (.int64 q) ∧
      mod.apply [.int64 a, .int64 b] = .ok (.int64 r) ∧ Divides a b q r ∧
      multiply.apply [.int64 q, .int64 b] = .ok (.int64 p) ∧
      add.apply [.int64 p, .int64 r] = .ok (.int64 a)) := by
  have hdivide : divide.apply [.int64 a, .int64 b] =
      .ok (if b = 0 then .null else .int64 (a / b)) := rfl
  have hmod : mod.apply [.int64 a, .int64 b] =
      .ok (if b = 0 then .null else .int64 (a % b)) := rfl
  constructor
  · intro hb
    rw [hdivide, hmod, if_pos hb, if_pos hb]
    exact ⟨rfl, rfl⟩
  · intro hb
    rw [hdivide, hmod, if_neg hb, if_neg hb]
    refine ⟨a / b, a % b, a / b * b, rfl, rfl, .div_mod hb, rfl, ?_⟩
    have hsum : add.apply [.int64 (a / b * b), .int64 (a % b)] =
        .ok (.int64 (a / b * b + a % b)) := rfl
    rw [hsum, Divides.div_mul_add_mod]

end Kernel

end RowFilter
