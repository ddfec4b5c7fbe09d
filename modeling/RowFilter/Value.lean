import RowFilter.DataType
import RowFilter.Decimal.Layout

/-!
# Values

A `Value` is a literal, a cell of a column, or what an expression yields for one row. Equality of
values in Lean tells every two data apart; `Value.equals` is the equality of the program, in which
doubles compare as the standard says, so that a NaN equals nothing.
-/

namespace RowFilter

inductive Value
  | null
  | bool (b : Bool)
  | int64 (n : Int64)
  | float64 (x : Binary64)
  deriving DecidableEq, Inhabited

namespace Value

def isNull : Value → Bool
  | null => true
  | _ => false

def asBool? : Value → Option Bool
  | bool b => some b
  | _ => none

def asInt64? : Value → Option Int64
  | int64 n => some n
  | _ => none

/-- Integers are not widened. -/
def asFloat64? : Value → Option Binary64
  | float64 x => some x
  | _ => none

def type : Value → DataType
  | null => .null
  | bool _ => .bool
  | int64 _ => .int64
  | float64 _ => .float64

/-- Equal values of one type; values of different types are never equal. -/
def equals : Value → Value → Bool
  | null, null => true
  | bool a, bool b => a == b
  | int64 a, int64 b => a == b
  | float64 a, float64 b => a.equals b
  | _, _ => false

/-- Doubles in the text of values are positional from `0.0001` up to below `1e16`, a half goes up,
and the point is always written unless there is an exponent. -/
def floatLayout : Layout where
  leastPlain := -4
  greatestPlain := 15
  plusSign := false
  tie := .up
  nan := "NaN"
  infinity := "inf"
  negativeInfinity := "-inf"

/-- The text of a value in an expression. -/
def text : Value → String
  | null => "null"
  | bool b => if b then "true" else "false"
  | int64 n => toString n.toInt
  | float64 x => floatLayout.text x

/-- The text of a value together with its type. -/
def taggedText : Value → String
  | null => "Null"
  | v => v.type.name ++ "(" ++ v.text ++ ")"

/-- Several values with their types, in brackets. -/
def taggedListText (values : List Value) : String :=
  "[" ++ ", ".intercalate (values.map taggedText) ++ "]"

end Value

end RowFilter
