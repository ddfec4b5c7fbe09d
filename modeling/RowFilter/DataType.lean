/-!
# Types of values and columns
-/

namespace RowFilter

/-- The type of a column, a literal or the result of an expression. `null` is the type of a null
that carries no other; no column has it. -/
inductive DataType
  | null
  | bool
  | int64
  | float64
  deriving DecidableEq, Inhabited

namespace DataType

def name : DataType → String
  | null => "Null"
  | bool => "Bool"
  | int64 => "Int64"
  | float64 => "Float64"

def ofName? : String → Option DataType
  | "Null" => some null
  | "Bool" => some bool
  | "Int64" => some int64
  | "Float64" => some float64
  | _ => none

/-- The types that arithmetic and order are defined on. -/
def isNumeric : DataType → Bool
  | int64 | float64 => true
  | null | bool => false

/-- The types that a column may have. -/
def isColumnType : DataType → Bool
  | null => false
  | bool | int64 | float64 => true

/-- Bytes that one value takes in a column. -/
def byteWidth : DataType → Nat
  | null => 0
  | bool => 1
  | int64 | float64 => 8

/-- The names of several types, as in an operand list. -/
def listText (types : List DataType) : String := ", ".intercalate (types.map name)

end DataType

end RowFilter
