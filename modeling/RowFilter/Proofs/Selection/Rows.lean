import RowFilter.Proofs.Cursor
import RowFilter.Selection

/-!
# A selection as its list of rows

`Selection.rows` is the view that the theory speaks of, and the list that `Selection.indices` hands
out. A row that fits the index type is stored as it is (`rows_push`), resetting leaves no row, and
`refusal?` reads only the count of the rows, the last of them and the index type.
-/

namespace RowFilter

namespace IndexBuffer

/-- The list has an element for each stored position. -/
theorem length_toList (b : IndexBuffer) : b.toList.length = b.length := by
  cases b with
  | uint16 slots => simp [toList, length]
  | uint32 slots => simp [toList, length]
  | uint64 slots => simp [toList, length]

/-- Reading a position reads the list. -/
theorem getElem?_toList (b : IndexBuffer) (i : Nat) : b.toList[i]? = b.get? i := by
  cases b with
  | uint16 slots => simp [toList, get?]
  | uint32 slots => simp [toList, get?]
  | uint64 slots => simp [toList, get?]

/-- Storing a row does not change the width of the slots. -/
@[simp] theorem type_push (b : IndexBuffer) (row : Nat) : (b.push row).type = b.type := by
  cases b with
  | uint16 slots => rfl
  | uint32 slots => rfl
  | uint64 slots => rfl

/-- A row that fits the slots is stored without loss. -/
theorem toList_push {b : IndexBuffer} {row : Nat} (h : row ≤ b.type.maxValue) :
    (b.push row).toList = b.toList ++ [row] := by
  cases b with
  | uint16 slots =>
    have hrow : row < 2 ^ 16 := Nat.lt_succ_of_le h
    rw [push, toList, toList, Array.toList_push, List.map_append, List.map_singleton,
      UInt16.toNat_ofNat_of_lt' hrow]
  | uint32 slots =>
    have hrow : row < 2 ^ 32 := Nat.lt_succ_of_le h
    rw [push, toList, toList, Array.toList_push, List.map_append, List.map_singleton,
      UInt32.toNat_ofNat_of_lt' hrow]
  | uint64 slots =>
    have hrow : row < 2 ^ 64 := Nat.lt_succ_of_le h
    rw [push, toList, toList, Array.toList_push, List.map_append, List.map_singleton,
      UInt64.toNat_ofNat_of_lt' hrow]

end IndexBuffer

namespace Selection

/-- The length counts the rows. -/
theorem length_rows (s : Selection) : s.rows.length = s.length := s.buffer.length_toList

/-- What is read at a position is the row there. -/
theorem getElem?_rows (s : Selection) (i : Nat) : s.rows[i]? = s.get? i :=
  s.buffer.getElem?_toList i

/-- One row after another is read, from the first to the last. -/
theorem handsOut_indices (s : Selection) : s.indices.HandsOut s.rows :=
  s.indices.handsOut_drop fun i => (s.getElem?_rows i).symm

/-- The index type stays what it was allocated with. -/
@[simp] theorem type_push (s : Selection) (row : Nat) : (s.push row).type = s.type :=
  s.buffer.type_push row

@[simp] theorem maxRow_push (s : Selection) (row : Nat) : (s.push row).maxRow = s.maxRow := by
  rw [maxRow, type_push, maxRow]

@[simp] theorem capacity_push (s : Selection) (row : Nat) :
    (s.push row).capacity = s.capacity :=
  rfl

/-- A row that fits the index type is added at the end as it is. -/
theorem rows_push {s : Selection} {row : Nat} (h : row ≤ s.maxRow) :
    (s.push row).rows = s.rows ++ [row] :=
  IndexBuffer.toList_push h

/-- Nothing is left after a reset. -/
@[simp] theorem rows_reset (s : Selection) : s.reset.rows = [] := by
  rw [reset, empty]
  cases s.type with
  | uint16 => rfl
  | uint32 => rfl
  | uint64 => rfl

/-- A reset keeps the index type, and with it the slots. -/
@[simp] theorem type_reset (s : Selection) : s.reset.type = s.type := by
  rw [reset, empty, type]
  cases s.type with
  | uint16 => rfl
  | uint32 => rfl
  | uint64 => rfl

@[simp] theorem maxRow_reset (s : Selection) : s.reset.maxRow = s.maxRow := by
  rw [maxRow, type_reset, maxRow]

@[simp] theorem capacity_reset (s : Selection) : s.reset.capacity = s.capacity := rfl

/-- The last row is the last of the list; there is none in an empty selection. -/
theorem last?_eq (s : Selection) : s.last? = s.rows.getLast? := by
  rw [last?, ← length_rows, ← getElem?_rows, List.getLast?_eq_getElem?]
  split
  next h => rw [List.length_eq_zero_iff.mp h]; rfl
  next => rfl

/-- A row that fits the index type and comes after all others is refused by a full selection
only. -/
theorem refusal?_of_lt {s : Selection} {row : Nat} (hfits : row ≤ s.maxRow)
    (hafter : ∀ r ∈ s.rows, r < row) :
    s.refusal? row =
      if s.rows.length = s.capacity then some (.selectionFull s.capacity) else none := by
  have hlast : s.last?.filter (row ≤ ·) = none := by
    rw [last?_eq, Option.filter_eq_none_iff]
    intro r hr
    have := hafter r (List.mem_of_getLast? hr)
    simpa using this
  rw [refusal?, length_rows, if_neg (by omega : ¬ s.maxRow < row), hlast]
  rfl

end Selection

end RowFilter
