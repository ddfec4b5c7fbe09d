import RowFilter.Cursor
import RowFilter.Interchange.ArrayData
import RowFilter.Memory

/-!
# Selections

A `Selection` is a strictly increasing list of row numbers, stored in a fixed number of slots of
one index type. `Selection.append` refuses whatever would break the order, the capacity or the
range of the index type, in the order capacity, range, order. As a list it is `Selection.rows`,
which a run of the cursor `Selection.indices` hands out.
-/

namespace RowFilter

/-- Stored row numbers. -/
inductive IndexBuffer
  | uint16 (slots : Array UInt16)
  | uint32 (slots : Array UInt32)
  | uint64 (slots : Array UInt64)
  deriving DecidableEq

namespace IndexBuffer

def empty : IndexType → IndexBuffer
  | .uint16 => uint16 #[]
  | .uint32 => uint32 #[]
  | .uint64 => uint64 #[]

def type : IndexBuffer → IndexType
  | uint16 _ => .uint16
  | uint32 _ => .uint32
  | uint64 _ => .uint64

def length : IndexBuffer → Nat
  | uint16 slots => slots.size
  | uint32 slots => slots.size
  | uint64 slots => slots.size

def get? (b : IndexBuffer) (i : Nat) : Option Nat :=
  match b with
  | uint16 slots => slots[i]?.map UInt16.toNat
  | uint32 slots => slots[i]?.map UInt32.toNat
  | uint64 slots => slots[i]?.map UInt64.toNat

/-- Just the stored positions can be read. -/
theorem get?_eq_none_iff (b : IndexBuffer) (i : Nat) : b.get? i = none ↔ b.length ≤ i := by
  cases b with
  | uint16 slots => simp [get?, length]
  | uint32 slots => simp [get?, length]
  | uint64 slots => simp [get?, length]

/-- The row numbers in order. -/
def toList : IndexBuffer → List Nat
  | uint16 slots => slots.toList.map UInt16.toNat
  | uint32 slots => slots.toList.map UInt32.toNat
  | uint64 slots => slots.toList.map UInt64.toNat

/-- Stores a row number in the next slot, with as many of its low bits as the slot holds. -/
def push (b : IndexBuffer) (row : Nat) : IndexBuffer :=
  match b with
  | uint16 slots => uint16 (slots.push (UInt16.ofNat row))
  | uint32 slots => uint32 (slots.push (UInt32.ofNat row))
  | uint64 slots => uint64 (slots.push (UInt64.ofNat row))

end IndexBuffer

structure Selection where
  buffer : IndexBuffer
  capacity : Nat
  deriving DecidableEq

namespace Selection

/-- A selection without rows. -/
def empty (type : IndexType) (capacity : Nat) : Selection := ⟨.empty type, capacity⟩

def type (s : Selection) : IndexType := s.buffer.type

/-- The greatest row that the index type can hold. -/
def maxRow (s : Selection) : Nat := s.type.maxValue

def length (s : Selection) : Nat := s.buffer.length

def isEmpty (s : Selection) : Bool := s.length == 0

def get? (s : Selection) (i : Nat) : Option Nat := s.buffer.get? i

/-- The last row, which is the greatest. -/
def last? (s : Selection) : Option Nat := if s.length = 0 then none else s.get? (s.length - 1)

/-- The rows in order. -/
def rows (s : Selection) : List Nat := s.buffer.toList

/-- A cursor before the first row. -/
def indices (s : Selection) : Cursor Nat where
  read? := s.get?
  length := s.length
  read?_eq_none_iff := s.buffer.get?_eq_none_iff
  position := 0

/-- Why a row cannot be added at the end: there is no room, the row does not fit the index type, or
it does not come after the last one. -/
def refusal? (s : Selection) (row : Nat) : Option Error :=
  if s.length = s.capacity then some (.selectionFull s.capacity)
  else if s.maxRow < row then some (.rowTooLarge row s.type)
  else (s.last?.filter (row ≤ ·)).map (.notIncreasing row)

/-- Stores a row that is not refused at the end. -/
def push (s : Selection) (row : Nat) : Selection := { s with buffer := s.buffer.push row }

/-- Adds a row at the end. -/
def append (s : Selection) (row : Nat) : Except Error Selection :=
  match s.refusal? row with
  | some e => .error e
  | none => .ok (s.push row)

/-- The selection without its rows. -/
def reset (s : Selection) : Selection := empty s.type s.capacity

/-- The rows as an array of the index type. -/
def toArray (s : Selection) : Interchange.ArrayData :=
  match s.buffer with
  | .uint16 slots => .uint16 (slots.map some)
  | .uint32 slots => .uint32 (slots.map some)
  | .uint64 slots => .uint64 (slots.map some)

/-! ## Allocation -/

/-- The bytes of all slots. -/
def bytes (s : Selection) : Nat := s.capacity * s.type.byteWidth

/-- What the selection holds from the budget it was allocated from, until it is dropped. -/
def reservation (s : Selection) : Reservation := ⟨s.bytes⟩

/-- Whether a buffer of so many bytes can exist. Addresses are signed. -/
def addressable (bytes : Nat) : Bool := decide (bytes < 0x8000000000000000)

/-- Allocates a selection, reserving the bytes of all its slots from a budget; `grants` says which
sizes of buffer can be had. The budget that is returned is the one after the attempt: if there is no
buffer, the bytes have been given back. -/
def allocate (grants : Nat → Bool) (budget : Budget) (type : IndexType) (capacity : Nat) :
    Except Error Selection × Budget :=
  let s := empty type capacity
  if type.maxValue < capacity then (.error (.capacityBeyond capacity type), budget)
  else if maxBytes < s.bytes then (.error (.byteSizeOverflow capacity), budget)
  else match Reservation.make budget s.bytes with
    | .error e => (.error e, budget)
    | .ok (reservation, after) =>
      if grants s.bytes then (.ok s, after)
      else (.error (.memoryRefused (.slots capacity)), reservation.drop after)

end Selection

end RowFilter
