import RowFilter.Error

/-!
# Columns

A `Column` holds cells of one type, any of which may be null. As a function of the row it is
`Column.get`, as a list it is `Column.values`. Two columns are equal when their types and cells
are; double cells count as equal when their bits are.
-/

namespace RowFilter

inductive Column
  | bool (cells : Array (Option Bool))
  | int64 (cells : Array (Option Int64))
  | float64 (cells : Array (Option Binary64))
  deriving DecidableEq, Inhabited

namespace Column

def type : Column → DataType
  | bool _ => .bool
  | int64 _ => .int64
  | float64 _ => .float64

def length : Column → Nat
  | bool cells => cells.size
  | int64 cells => cells.size
  | float64 cells => cells.size

/-- The count of null rows. -/
def nullCount : Column → Nat
  | bool cells => cells.countP Option.isNone
  | int64 cells => cells.countP Option.isNone
  | float64 cells => cells.countP Option.isNone

/-- The value of a cell. -/
def cellValue {α : Type} (tag : α → Value) (cell : Option α) : Value := cell.elim .null tag

/-- The value in a row. -/
def get? (c : Column) (row : Nat) : Option Value :=
  match c with
  | bool cells => cells[row]?.map (cellValue .bool)
  | int64 cells => cells[row]?.map (cellValue .int64)
  | float64 cells => cells[row]?.map (cellValue .float64)

/-- The value in a row; a row beyond the end is an error. -/
def get (c : Column) (row : Nat) : Except Error Value :=
  match c.get? row with
  | some v => .ok v
  | none => .error (.outOfBounds .column row c.length)

/-- The values of all rows, in order. -/
def values : Column → List Value
  | bool cells => cells.toList.map (cellValue .bool)
  | int64 cells => cells.toList.map (cellValue .int64)
  | float64 cells => cells.toList.map (cellValue .float64)

end Column

end RowFilter
