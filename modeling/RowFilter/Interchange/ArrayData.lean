import RowFilter.Column

/-!
# Arrays of the interchange format

An `ArrayData` is a column as other programs hand it over or take it, in the format arrow. Three of
its types are those of a `Column`; `Column.ofArray` and `Column.toArray` keep every cell.

`ArrayData.gather` stands for `take` of the arrow library, where all the rows are in the array: the
array that it makes has the same type, and the cells of the named rows in the order of their naming,
with their nulls. What `take` does with other rows is left open, because nothing asks for them
(`Selection.checkBounds`).
-/

namespace RowFilter

namespace Interchange

/-- The cells of an array. Only the types that are exchanged in fact have a constructor. -/
inductive ArrayData
  /-- Nulls only. -/
  | null (length : Nat)
  | boolean (cells : Array (Option Bool))
  | int32 (cells : Array (Option Int32))
  | int64 (cells : Array (Option Int64))
  | uint16 (cells : Array (Option UInt16))
  | uint32 (cells : Array (Option UInt32))
  | uint64 (cells : Array (Option UInt64))
  | float64 (cells : Array (Option Binary64))
  | utf8 (cells : Array (Option String))
  deriving DecidableEq, Inhabited

namespace ArrayData

def type : ArrayData → ArrayType
  | null _ => .null
  | boolean _ => .boolean
  | int32 _ => .int32
  | int64 _ => .int64
  | uint16 _ => .uint16
  | uint32 _ => .uint32
  | uint64 _ => .uint64
  | float64 _ => .float64
  | utf8 _ => .utf8

def length : ArrayData → Nat
  | null length => length
  | boolean cells => cells.size
  | int32 cells => cells.size
  | int64 cells => cells.size
  | uint16 cells => cells.size
  | uint32 cells => cells.size
  | uint64 cells => cells.size
  | float64 cells => cells.size
  | utf8 cells => cells.size

/-- The count of cells marked as null. Cells that are null by their type carry no mark. -/
def nullCount : ArrayData → Nat
  | null _ => 0
  | boolean cells => cells.countP Option.isNone
  | int32 cells => cells.countP Option.isNone
  | int64 cells => cells.countP Option.isNone
  | uint16 cells => cells.countP Option.isNone
  | uint32 cells => cells.countP Option.isNone
  | uint64 cells => cells.countP Option.isNone
  | float64 cells => cells.countP Option.isNone
  | utf8 cells => cells.countP Option.isNone

/-- The cells of the given rows. A row beyond the end gives a null, but is never asked for. -/
def gatherCells {α : Type} (cells : Array (Option α)) (rows : List Nat) : Array (Option α) :=
  (rows.map fun row => cells.getD row none).toArray

/-- The array of the given rows, in the order given. -/
def gather (a : ArrayData) (rows : List Nat) : ArrayData :=
  match a with
  | null _ => null rows.length
  | boolean cells => boolean (gatherCells cells rows)
  | int32 cells => int32 (gatherCells cells rows)
  | int64 cells => int64 (gatherCells cells rows)
  | uint16 cells => uint16 (gatherCells cells rows)
  | uint32 cells => uint32 (gatherCells cells rows)
  | uint64 cells => uint64 (gatherCells cells rows)
  | float64 cells => float64 (gatherCells cells rows)
  | utf8 cells => utf8 (gatherCells cells rows)

end ArrayData

end Interchange

namespace Column

open Interchange

/-- The column of an array, if it is of a column type. -/
def ofArray : ArrayData → Except Error Column
  | .boolean cells => .ok (bool cells)
  | .int64 cells => .ok (int64 cells)
  | .float64 cells => .ok (float64 cells)
  | a => .error (.foreignArray a.type)

/-- The array of a column. -/
def toArray : Column → ArrayData
  | bool cells => .boolean cells
  | int64 cells => .int64 cells
  | float64 cells => .float64 cells

/-- The array of a column is read as that column. -/
@[simp] theorem ofArray_toArray (c : Column) : ofArray c.toArray = .ok c := by cases c <;> rfl

end Column

end RowFilter
