import RowFilter.DataType

/-!
# Array types of the interchange format

Columns are exchanged with other programs as arrays of the columnar format arrow, which has many
more types than there are column types here.
-/

namespace RowFilter.Interchange

inductive ArrayType
  | null
  | boolean
  | int8
  | int16
  | int32
  | int64
  | uint8
  | uint16
  | uint32
  | uint64
  | float16
  | float32
  | float64
  | utf8
  | largeUtf8
  | binary
  | date32
  | date64
  deriving DecidableEq, Inhabited

namespace ArrayType

def name : ArrayType → String
  | null => "Null"
  | boolean => "Boolean"
  | int8 => "Int8"
  | int16 => "Int16"
  | int32 => "Int32"
  | int64 => "Int64"
  | uint8 => "UInt8"
  | uint16 => "UInt16"
  | uint32 => "UInt32"
  | uint64 => "UInt64"
  | float16 => "Float16"
  | float32 => "Float32"
  | float64 => "Float64"
  | utf8 => "Utf8"
  | largeUtf8 => "LargeUtf8"
  | binary => "Binary"
  | date32 => "Date32"
  | date64 => "Date64"

/-- Every array type. -/
def all : List ArrayType :=
  [null, boolean, int8, int16, int32, int64, uint8, uint16, uint32, uint64, float16, float32,
    float64, utf8, largeUtf8, binary, date32, date64]

def ofName? (name : String) : Option ArrayType := all.find? (·.name == name)

/-- The type with the same layout, for the four that have one. Nothing is widened. -/
def toDataType? : ArrayType → Option DataType
  | null => some .null
  | boolean => some .bool
  | int64 => some .int64
  | float64 => some .float64
  | _ => none

/-- The array type with the same layout. -/
def ofDataType : DataType → ArrayType
  | .null => null
  | .bool => boolean
  | .int64 => int64
  | .float64 => float64

end ArrayType

end RowFilter.Interchange
