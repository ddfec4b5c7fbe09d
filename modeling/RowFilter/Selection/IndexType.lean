/-!
# Index types

The row numbers of a selection are stored in 16, 32 or 64 bits.
-/

namespace RowFilter

inductive IndexType
  | uint16
  | uint32
  | uint64
  deriving DecidableEq, Inhabited

namespace IndexType

def name : IndexType → String
  | uint16 => "UInt16"
  | uint32 => "UInt32"
  | uint64 => "UInt64"

def ofName? : String → Option IndexType
  | "UInt16" => some uint16
  | "UInt32" => some uint32
  | "UInt64" => some uint64
  | _ => none

/-- The greatest row that can be stored, which is also the greatest capacity. -/
def maxValue : IndexType → Nat
  | uint16 => 0xFFFF
  | uint32 => 0xFFFFFFFF
  | uint64 => 0xFFFFFFFFFFFFFFFF

/-- Bytes of one stored row. -/
def byteWidth : IndexType → Nat
  | uint16 => 2
  | uint32 => 4
  | uint64 => 8

/-- The narrowest type for a capacity. -/
def narrowestFor (capacity : Nat) : IndexType :=
  if capacity ≤ uint16.maxValue then uint16
  else if capacity ≤ uint32.maxValue then uint32
  else uint64

end IndexType

end RowFilter
