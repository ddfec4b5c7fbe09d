import RowFilter.Config
import RowFilter.Proofs.Selection.Allocation

/-!
# Allocation is atomic

The allocation of a selection can fail in four places, and in the last of them its bytes have been
reserved already. `Selection.Allocation` lists the places and `Selection.Atomic` is what holds in
all of them. Main result: `allocate_atomic`. Each kind of failure has exactly its reasons and leaves
the budget as it was, and a selection holds the bytes of its slots until it is dropped.
-/

namespace RowFilter

namespace Budget

variable {budget after : Budget} {bytes : Nat}

/-- Bytes are refused for lack of memory only. -/
theorem kind_of_reserve_eq_error {e : Error} (refused : budget.reserve bytes = .error e) :
    e.kind = .resourceExhausted := by
  cases budget with
  | uncounted => cases refused
  | counted limit used =>
    rw [reserve] at refused
    split at refused
    next => cases refused; rfl
    next => cases refused

/-- What is granted is counted exactly if the sum can be. -/
theorem eq_of_reserve_counted {limit used : Nat} (room : used + bytes ≤ maxBytes)
    (granted : (counted limit used).reserve bytes = .ok after) :
    after = counted limit (used + bytes) := by
  rw [reserve, Nat.min_eq_left room] at granted
  split at granted
  next => cases granted
  next => cases granted; rfl

/-- In that case the budget is as before when all is given back. -/
theorem release_of_reserve (room : budget.used + bytes ≤ maxBytes)
    (granted : budget.reserve bytes = .ok after) : after.release bytes = budget := by
  cases budget with
  | uncounted => cases granted; rfl
  | counted limit before =>
    rw [eq_of_reserve_counted room granted, release, used, Nat.add_sub_cancel]

end Budget

/-! ## The narrowest type -/

namespace IndexType

/-- Of the index types with room for a capacity, none is narrower. -/
structure Narrowest (capacity : Nat) (type : IndexType) : Prop where
  fits : capacity ≤ type.maxValue
  least : ∀ other : IndexType, capacity ≤ other.maxValue → type.byteWidth ≤ other.byteWidth

/-- The type chosen for a capacity is the narrowest one that has room for it. -/
theorem narrowest_narrowestFor {capacity : Nat} (h : capacity ≤ maxBytes) :
    Narrowest capacity (narrowestFor capacity) := by
  rw [narrowestFor]
  by_cases h16 : capacity ≤ uint16.maxValue
  · rw [if_pos h16]
    refine ⟨h16, fun other _ => ?_⟩
    cases other with
    | uint16 | uint32 | uint64 => decide
  · by_cases h32 : capacity ≤ uint32.maxValue
    · rw [if_neg h16, if_pos h32]
      refine ⟨h32, fun other hother => ?_⟩
      cases other with
      | uint16 => exact absurd hother h16
      | uint32 | uint64 => decide
    · rw [if_neg h16, if_neg h32]
      refine ⟨h, fun other hother => ?_⟩
      cases other with
      | uint16 => exact absurd hother h16
      | uint32 => exact absurd hother h32
      | uint64 => decide

end IndexType

namespace Selection

/-! ## What an allocation comes to -/

/-- The slots cannot be numbered in the index type, or their bytes cannot be counted. -/
def TooLarge (type : IndexType) (capacity : Nat) : Prop :=
  type.maxValue < capacity ∨ maxBytes < capacity * type.byteWidth

/-- What can come of an allocation: what it reports, and the budget after it. -/
inductive Allocation (grants : Nat → Bool) (budget : Budget) (type : IndexType) (capacity : Nat) :
    Except Error Selection × Budget → Prop
  | beyond (range : type.maxValue < capacity) :
      Allocation grants budget type capacity (.error (.capacityBeyond capacity type), budget)
  | overflow (bytes : maxBytes < capacity * type.byteWidth) :
      Allocation grants budget type capacity (.error (.byteSizeOverflow capacity), budget)
  | refused {e : Error} (fits : ¬TooLarge type capacity)
      (refused : budget.reserve (capacity * type.byteWidth) = .error e) :
      Allocation grants budget type capacity (.error e, budget)
  /-- There was no buffer for the bytes, which were given back. -/
  | undone {after : Budget} (fits : ¬TooLarge type capacity)
      (granted : budget.reserve (capacity * type.byteWidth) = .ok after)
      (without : grants (capacity * type.byteWidth) = false) :
      Allocation grants budget type capacity
        (.error (.memoryRefused (.slots capacity)), after.release (capacity * type.byteWidth))
  | made {after : Budget} (fits : ¬TooLarge type capacity)
      (granted : budget.reserve (capacity * type.byteWidth) = .ok after)
      (buffer : grants (capacity * type.byteWidth) = true) :
      Allocation grants budget type capacity (.ok (empty type capacity), after)

variable {grants : Nat → Bool} {budget after : Budget} {type : IndexType} {capacity : Nat}
  {result : Except Error Selection × Budget}

/-- Every allocation is one of these. -/
theorem allocation_allocate (grants : Nat → Bool) (budget : Budget) (type : IndexType)
    (capacity : Nat) :
    Allocation grants budget type capacity (allocate grants budget type capacity) := by
  by_cases range : type.maxValue < capacity
  · rw [allocate, if_pos range]
    exact .beyond range
  · by_cases bytes : maxBytes < capacity * type.byteWidth
    · rw [allocate, if_neg range, bytes_empty, if_pos bytes]
      exact .overflow bytes
    · have fits : ¬TooLarge type capacity := not_or.mpr ⟨range, bytes⟩
      rw [allocate_eq (Nat.le_of_not_lt range) (Nat.le_of_not_lt bytes)]
      cases granted : budget.reserve (capacity * type.byteWidth) with
      | error e => exact .refused fits granted
      | ok after =>
        cases buffer : grants (capacity * type.byteWidth) with
        | false => exact .undone fits granted buffer
        | true => exact .made fits granted buffer

/-- A type with range for the slots is not at fault. -/
theorem Allocation.ne_capacityBeyond (h : Allocation grants budget type capacity result)
    (range : capacity ≤ type.maxValue) (n : Nat) (t : IndexType) :
    result.1 ≠ .error (.capacityBeyond n t) := by
  cases h with
  | beyond hbeyond => exact absurd range (Nat.not_le.mpr hbeyond)
  | overflow => nofun
  | refused fits refused =>
    rintro ⟨⟩
    cases Budget.kind_of_reserve_eq_error refused
  | undone => nofun
  | made => nofun

/-- After an operation or several, a selection still holds the bytes that were reserved for it. -/
theorem reservation_run_empty (type : IndexType) (capacity : Nat) (ops : List Operation) :
    ((empty type capacity).run ops).reservation = ⟨capacity * type.byteWidth⟩ := by
  rw [reservation, bytes, type_run, capacity_run, ← bytes, bytes_empty]

/-! ## Atomicity -/

/-- What an allocation reports and what it does to the budget. There is room if the sum of the bytes
in use and those of the slots can be counted. -/
structure Atomic (grants : Nat → Bool) (budget : Budget) (type : IndexType) (capacity : Nat)
    (result : Except Error Selection × Budget) : Prop where
  tooLarge_iff : (∃ e, result.1 = .error e ∧ e.kind = .capacityTooLarge) ↔ TooLarge type capacity
  /-- Memory is exhausted if the budget refuses the bytes or there is no buffer for them. -/
  exhausted_iff : (∃ e, result.1 = .error e ∧ e.kind = .resourceExhausted) ↔
    ¬TooLarge type capacity ∧ ((∃ e, budget.reserve (capacity * type.byteWidth) = .error e) ∨
      grants (capacity * type.byteWidth) = false)
  /-- There are no other failures. -/
  failed : ∀ e, result.1 = .error e → e.kind = .capacityTooLarge ∨ e.kind = .resourceExhausted
  /-- Nothing was reserved if the budget was not asked or has refused. -/
  unreserved : TooLarge type capacity ∨
    (∃ e, budget.reserve (capacity * type.byteWidth) = .error e) → result.2 = budget
  /-- After any other failure nothing is reserved any more. -/
  undone : budget.used + capacity * type.byteWidth ≤ maxBytes →
    ∀ e, result.1 = .error e → result.2 = budget
  /-- A selection takes the bytes of its slots. -/
  counted : budget.used + capacity * type.byteWidth ≤ maxBytes → ∀ s, result.1 = .ok s →
    ∀ limit used, budget = .counted limit used →
      result.2 = .counted limit (used + capacity * type.byteWidth)
  /-- It gives them back when it is dropped, whatever was done to it. -/
  dropped : budget.used + capacity * type.byteWidth ≤ maxBytes → ∀ s, result.1 = .ok s →
    ∀ ops, (s.run ops).reservation.drop result.2 = budget

/-- A capacity that is too large leaves the budget alone. -/
theorem atomic_of_tooLarge (large : TooLarge type capacity) {e : Error}
    (kind : e.kind = .capacityTooLarge) :
    Atomic grants budget type capacity (.error e, budget) where
  tooLarge_iff := ⟨fun _ => large, fun _ => ⟨e, rfl, kind⟩⟩
  exhausted_iff := by simp [large, kind]
  failed := by rintro _ ⟨⟩; exact .inl kind
  unreserved _ := rfl
  undone _ _ _ := rfl
  counted _ := nofun
  dropped _ := nofun

/-- So does a refusal of the bytes. -/
theorem atomic_of_refused (fits : ¬TooLarge type capacity) {e : Error}
    (refused : budget.reserve (capacity * type.byteWidth) = .error e) :
    Atomic grants budget type capacity (.error e, budget) where
  tooLarge_iff := by simp [fits, Budget.kind_of_reserve_eq_error refused]
  exhausted_iff :=
    ⟨fun _ => ⟨fits, .inl ⟨e, refused⟩⟩,
      fun _ => ⟨e, rfl, Budget.kind_of_reserve_eq_error refused⟩⟩
  failed := by rintro _ ⟨⟩; exact .inr (Budget.kind_of_reserve_eq_error refused)
  unreserved _ := rfl
  undone _ _ _ := rfl
  counted _ := nofun
  dropped _ := nofun

/-- If there is no buffer, the bytes go back, and the budget is as before. -/
theorem atomic_of_undone (fits : ¬TooLarge type capacity)
    (granted : budget.reserve (capacity * type.byteWidth) = .ok after)
    (without : grants (capacity * type.byteWidth) = false) :
    Atomic grants budget type capacity
      (.error (.memoryRefused (.slots capacity)), after.release (capacity * type.byteWidth)) where
  tooLarge_iff := by simp [fits, Error.kind]
  exhausted_iff := ⟨fun _ => ⟨fits, .inr without⟩, fun _ => ⟨_, rfl, rfl⟩⟩
  failed := by rintro _ ⟨⟩; exact .inr rfl
  unreserved h := by simp [fits, granted] at h
  undone room _ _ := Budget.release_of_reserve room granted
  counted _ := nofun
  dropped _ := nofun

/-- If there is one, the bytes are held. -/
theorem atomic_of_made (fits : ¬TooLarge type capacity)
    (granted : budget.reserve (capacity * type.byteWidth) = .ok after)
    (buffer : grants (capacity * type.byteWidth) = true) :
    Atomic grants budget type capacity (.ok (empty type capacity), after) where
  tooLarge_iff := by simp [fits]
  exhausted_iff := by simp [granted, buffer]
  failed := nofun
  unreserved h := by simp [fits, granted] at h
  undone _ := nofun
  counted room s _ limit used hbudget := by
    subst hbudget
    exact Budget.eq_of_reserve_counted room granted
  dropped room s hs ops := by
    cases hs
    rw [reservation_run_empty]
    exact Budget.release_of_reserve room granted

/-- All ways that an allocation can go are atomic. -/
theorem Allocation.atomic (h : Allocation grants budget type capacity result) :
    Atomic grants budget type capacity result := by
  cases h with
  | beyond range => exact atomic_of_tooLarge (.inl range) rfl
  | overflow bytes => exact atomic_of_tooLarge (.inr bytes) rfl
  | refused fits refused => exact atomic_of_refused fits refused
  | undone fits granted without => exact atomic_of_undone fits granted without
  | made fits granted buffer => exact atomic_of_made fits granted buffer

/-- **Allocation is atomic**: with any budget, any index type and any number of slots, and whether
or not there is a buffer, an allocation fails for exactly the reasons of its error, and the bytes
that it leaves reserved are those of the selection that it has made. The index type that is chosen
for a capacity is the narrowest, and has range for it. -/
theorem allocate_atomic (grants : Nat → Bool) (budget : Budget) (capacity : Nat) :
    (∀ type, Atomic grants budget type capacity (allocate grants budget type capacity)) ∧
      (capacity ≤ maxBytes →
        IndexType.Narrowest capacity (IndexWidth.auto.indexType capacity) ∧
          ∀ n t, (allocate grants budget (IndexWidth.auto.indexType capacity) capacity).1 ≠
            .error (.capacityBeyond n t)) := by
  refine ⟨fun type => (allocation_allocate ..).atomic, fun h => ?_⟩
  have narrowest := IndexType.narrowest_narrowestFor h
  exact ⟨narrowest, (allocation_allocate ..).ne_capacityBeyond narrowest.fits⟩

/-- Three slots take the last six of ten bytes, until the selection is dropped. Without a buffer the
six bytes are not taken. -/
theorem sample_atomic :
    (allocate addressable (.counted 10 4) .uint16 3).2 = .counted 10 10 ∧
      ((empty .uint16 3).run
        [.append 5, .evaluate Sample.filter Sample.batch, .reset]).reservation.drop
          (.counted 10 10) = .counted 10 4 ∧
      (allocate (fun _ => false) (.counted 10 4) .uint16 3).2 = .counted 10 4 ∧
      IndexType.Narrowest 3 .uint16 := by
  have room : (Budget.counted 10 4).used + 3 * IndexType.uint16.byteWidth ≤ maxBytes := by decide
  obtain ⟨hatomic, hnarrowest⟩ := allocate_atomic addressable (.counted 10 4) 3
  have hnone := (allocate_atomic (fun _ => false) (.counted 10 4) 3).1 .uint16
  refine ⟨?_, ?_, ?_, (hnarrowest (by decide)).1⟩
  · exact (hatomic .uint16).counted room _ rfl 10 4 rfl
  · exact (hatomic .uint16).dropped room _ rfl _
  · exact hnone.undone room _ rfl

end Selection

end RowFilter
