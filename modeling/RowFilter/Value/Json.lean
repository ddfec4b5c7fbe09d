import RowFilter.Json
import RowFilter.Json.TypedReader

/-!
# Values as JSON

A value is written as the name of its type, with the datum in an object unless it is null.
-/

namespace RowFilter.Value

open Json Reader

def toJson : Value → Json
  | null => .string "Null"
  | bool b => .object [("Bool", .bool b)]
  | int64 n => .object [("Int64", .integer n.toInt)]
  | float64 x => .object [("Float64", .double x)]

def reader : Reader Value :=
  oneOf
    [.plain "Null" null, .carrying "Bool" bool Reader.bool, .carrying "Int64" int64 Reader.int64,
      .carrying "Float64" float64 double]

end RowFilter.Value
