import RowFilter.Proofs.Selection.Operations

/-!
# Allocating selections

An allocation asks the budget for the bytes of all slots and then asks for a buffer of that size.
`allocate_eq` is the whole of it for slots that the index type can number and whose bytes can be
counted. All others are refused before the budget is asked (`exists_allocate_eq_error`).
-/

namespace RowFilter

namespace Selection

/-- The bytes of an empty selection are those of its slots. -/
theorem bytes_empty (type : IndexType) (capacity : Nat) :
    (empty type capacity).bytes = capacity * type.byteWidth := by
  rw [bytes, type_empty]
  rfl

variable {grants : Nat → Bool} {budget : Budget} {type : IndexType} {capacity : Nat}

/-- What is granted is given back if there is no buffer. -/
theorem allocate_eq (hrange : capacity ≤ type.maxValue)
    (hbytes : capacity * type.byteWidth ≤ maxBytes) :
    allocate grants budget type capacity =
      match budget.reserve (capacity * type.byteWidth) with
      | .error e => (.error e, budget)
      | .ok after =>
        if grants (capacity * type.byteWidth) then (.ok (empty type capacity), after)
        else (.error (.memoryRefused (.slots capacity)),
          after.release (capacity * type.byteWidth)) := by
  rw [allocate]
  simp only [Nat.not_lt.mpr hrange, bytes_empty, Nat.not_lt.mpr hbytes, if_false, Reservation.make]
  cases budget.reserve (capacity * type.byteWidth) with
  | error e => rfl
  | ok after => rfl

/-- An allocation of too many slots does not get as far as the budget. -/
theorem exists_allocate_eq_error
    (h : ¬(capacity ≤ type.maxValue ∧ capacity * type.byteWidth ≤ maxBytes)) :
    ∃ e, allocate grants budget type capacity = (.error e, budget) ∧
      e.kind = .capacityTooLarge := by
  rw [allocate]
  by_cases hrange : type.maxValue < capacity
  · exact ⟨_, if_pos hrange, rfl⟩
  · have hbytes : maxBytes < (empty type capacity).bytes := by
      rw [bytes_empty]
      omega
    refine ⟨.byteSizeOverflow capacity, ?_, rfl⟩
    simp only [hrange, hbytes, if_true, if_false]

end Selection

end RowFilter
