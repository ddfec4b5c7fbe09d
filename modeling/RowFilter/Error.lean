import RowFilter.Expr
import RowFilter.Interchange.ArrayType
import RowFilter.Selection.IndexType

/-!
# Errors

An `Error` is a cause with the data that explain it. `Error.kind` sorts the causes and
`Error.detail` words them; the text of an error is both.
-/

namespace RowFilter

/-- The kinds of errors. -/
inductive ErrorKind
  /-- No function of that name. -/
  | unknownFunction
  /-- Operand or result types that do not go together. -/
  | typeMismatch
  /-- A condition that is not boolean. -/
  | notBoolean
  /-- No field of that name. -/
  | unknownField
  /-- Schema, batch and condition disagree. -/
  | schemaMismatch
  /-- More rows than a selection has room for. -/
  | capacityExceeded
  /-- A capacity or a row that the index type cannot hold. -/
  | capacityTooLarge
  /-- A position beyond the end. -/
  | indexOutOfBounds
  | invalidParameter
  /-- Memory was refused. -/
  | resourceExhausted
  /-- What checks made earlier should have ruled out. -/
  | internalError
  deriving DecidableEq

namespace ErrorKind

def name : ErrorKind → String
  | unknownFunction => "UnknownFunction"
  | typeMismatch => "TypeMismatch"
  | notBoolean => "NotBoolean"
  | unknownField => "UnknownField"
  | schemaMismatch => "SchemaMismatch"
  | capacityExceeded => "CapacityExceeded"
  | capacityTooLarge => "CapacityTooLarge"
  | indexOutOfBounds => "IndexOutOfBounds"
  | invalidParameter => "InvalidParameter"
  | resourceExhausted => "ResourceExhausted"
  | internalError => "InternalError"

/-- Every kind. -/
def all : List ErrorKind :=
  [unknownFunction, typeMismatch, notBoolean, unknownField, schemaMismatch, capacityExceeded,
    capacityTooLarge, indexOutOfBounds, invalidParameter, resourceExhausted, internalError]

def ofName? (name : String) : Option ErrorKind := all.find? (·.name == name)

/-- The text of an error of this kind. -/
def text (k : ErrorKind) (detail : String) : String := k.name ++ ": " ++ detail

end ErrorKind

/-- What a field was looked up in. -/
inductive FieldScope
  /-- The schema that a filter is bound to. -/
  | filter
  /-- The schema of a batch. -/
  | batch
  deriving DecidableEq

/-- Where a row or position was out of range. -/
inductive Bounds
  | column
  | view
  deriving DecidableEq

/-- Why memory was refused. -/
inductive MemoryRefusal
  /-- The limit of the budget. -/
  | limit (used bytes limit : Nat)
  /-- No buffer of so many slots can exist. -/
  | slots (capacity : Nat)
  deriving DecidableEq

inductive Error
  | unknownFunction (name : String)
  | noSignature (name : String) (args : List DataType) (candidates : List Signature)
  | wrongResult (name : String) (args : List DataType) (actual declared : DataType)
  | unfitKernel (signature : Signature)
  | signatureTaken (signature : Signature)
  | untypedNull
  | nullWithoutType (type : DataType)
  | tooFewOperands (name : String) (count : Nat)
  | notBoolean (root : Expr)
  | foreignType (type : Interchange.ArrayType)
  | foreignArray (type : Interchange.ArrayType)
  | duplicateField (name : String)
  | untypedField (f : Field)
  | unknownField (name : String) (scope : FieldScope) (fields : List Field)
  | fieldTypeDiffers (f : Field) (declared : DataType)
  | columnCountDiffers (fields columns : Nat)
  | columnTypeDiffers (f : Field) (actual : DataType)
  | rowCountDiffers (name : String) (actual declared : Nat)
  | unexpectedNulls (name : String) (nulls : Nat)
  | selectionFull (capacity : Nat)
  | noRoomForMatch (row capacity : Nat)
  | capacityBeyond (capacity : Nat) (type : IndexType)
  | byteSizeOverflow (capacity : Nat)
  | rowTooLarge (row : Nat) (type : IndexType)
  | batchTooLong (rows : Nat) (type : IndexType)
  | notIncreasing (row last : Nat)
  | outOfBounds (what : Bounds) (position length : Nat)
  | selectionOutOfBounds (position row length : Nat)
  | memoryRefused (why : MemoryRefusal)
  | untypedView
  /-- What a caller's own source of values reports. -/
  | reported (kind : ErrorKind) (detail : String)
  | kernelMisapplied (k : Kernel) (args : List Value)
  | incomparable (a b : DataType)
  | unordered (a b : DataType)
  | tooManyOperands (name : String) (count most : Nat)
  | operandsLost (name : String)
  | fieldVanished (name : String)
  | inputUnresolved (position : Nat)
  | fieldMissing (slot : Nat)
  | columnMissing (slot : Nat)
  | resultNotBoolean (type : DataType) (row : Nat)

namespace Error

def kind : Error → ErrorKind
  | .unknownFunction _ => .unknownFunction
  | .noSignature .. | .wrongResult .. | .unfitKernel _ | .untypedNull | .nullWithoutType _
  | .foreignType _ | .foreignArray _ | .untypedField _ | .untypedView => .typeMismatch
  | .notBoolean _ => .notBoolean
  | .unknownField .. => .unknownField
  | .duplicateField _ | .fieldTypeDiffers .. | .columnCountDiffers .. | .columnTypeDiffers ..
  | .rowCountDiffers .. | .unexpectedNulls .. => .schemaMismatch
  | .selectionFull _ | .noRoomForMatch .. => .capacityExceeded
  | .capacityBeyond .. | .byteSizeOverflow _ | .rowTooLarge .. | .batchTooLong .. =>
    .capacityTooLarge
  | .outOfBounds .. | .selectionOutOfBounds .. => .indexOutOfBounds
  | .signatureTaken _ | .tooFewOperands .. | .notIncreasing .. => .invalidParameter
  | .memoryRefused _ => .resourceExhausted
  | .reported kind _ => kind
  | .kernelMisapplied .. | .incomparable .. | .unordered .. | .tooManyOperands ..
  | .operandsLost _ | .fieldVanished _ | .inputUnresolved _ | .fieldMissing _ | .columnMissing _
  | .resultNotBoolean .. => .internalError

/-- The wording of a cause. -/
def detail : Error → String
  | unknownFunction name => s!"no function named '{name}'"
  | noSignature name args candidates =>
    Signature.callText name args ++ " matches no signature, candidates: "
      ++ "; ".intercalate (candidates.map Signature.text)
  | wrongResult name args actual declared =>
    Signature.callText name args ++ s!" returns {actual.name}, not {declared.name}"
  | unfitKernel signature => s!"kernel {signature.kernel.name} does not accept {signature.text}"
  | signatureTaken signature => s!"function {signature.text} is already registered"
  | untypedNull => "untyped null literal, use make_null with a data type"
  | nullWithoutType type => s!"null literal needs a concrete type, got {type.name}"
  | tooFewOperands name count => s!"{name} needs at least two operands, got {count}"
  | notBoolean root => s!"condition root {root.text} has type {root.type.name}"
  | foreignType type => s!"arrow type {type.name} has no sift equivalent"
  | foreignArray type => s!"cannot build a column from arrow type {type.name}"
  | duplicateField name => s!"duplicate field name '{name}'"
  | untypedField f => s!"field '{f.name}' cannot be declared with type {f.type.name}"
  | unknownField name scope fields =>
    let owner := match scope with
      | .filter => "schema"
      | .batch => "batch schema"
    s!"field '{name}' not found in {owner} " ++ Field.listText fields
  | fieldTypeDiffers f declared =>
    s!"field '{f.name}' referenced as {f.type.name} but schema declares {declared.name}"
  | columnCountDiffers fields columns =>
    s!"schema declares {fields} fields but {columns} columns were supplied"
  | columnTypeDiffers f actual =>
    s!"column '{f.name}' declared {f.type.name} but array holds {actual.name}"
  | rowCountDiffers name actual declared =>
    s!"column '{name}' has {actual} rows, batch declares {declared}"
  | unexpectedNulls name nulls => s!"non-nullable column '{name}' contains {nulls} nulls"
  | selectionFull capacity => s!"selection vector full at capacity {capacity}"
  | noRoomForMatch row capacity =>
    s!"row {row} matched but selection capacity {capacity} is exhausted"
  | capacityBeyond capacity type =>
    s!"capacity {capacity} exceeds {type.name} maximum {type.maxValue}"
  | byteSizeOverflow capacity => s!"capacity {capacity} overflows byte size"
  | rowTooLarge row type => s!"row {row} does not fit a {type.name} index"
  | batchTooLong rows type =>
    s!"batch of {rows} rows cannot be addressed by a {type.name} selection vector"
  | notIncreasing row last => s!"row {row} appended after {last}, indices must increase"
  | outOfBounds .column position length =>
    s!"row {position} out of bounds for column of length {length}"
  | outOfBounds .view position length =>
    s!"position {position} out of bounds for view of length {length}"
  | selectionOutOfBounds position row length =>
    s!"selection[{position}] = {row} is out of bounds for source of length {length}"
  | memoryRefused (.limit used bytes limit) =>
    s!"memory limit exceeded: {used} + {bytes} > {limit} bytes"
  | memoryRefused (.slots capacity) =>
    s!"cannot allocate selection vector of {capacity} slots: memory allocation failed because "
      ++ "the computed capacity exceeded the collection's maximum"
  | untypedView => "cannot materialize a view of a Null-typed column"
  | reported _ detail => detail
  | kernelMisapplied k args =>
    s!"kernel {k.name} cannot be applied to " ++ Value.taggedListText args
  | incomparable a b => s!"cannot compare {a.name} with {b.name}"
  | unordered a b => s!"cannot order {a.name} against {b.name}"
  | tooManyOperands name count most =>
    s!"{name} has {count} operands, kernels take at most {most}"
  | operandsLost name => s!"{name} reduction lost its operands"
  | fieldVanished name => s!"bound field '{name}' vanished"
  | inputUnresolved position => s!"input {position} was not resolved"
  | fieldMissing slot => s!"schema has no field {slot}"
  | columnMissing slot => s!"batch is missing column {slot}"
  | resultNotBoolean type row => s!"condition produced non-boolean {type.name} at row {row}"

/-- Kind and wording. -/
def text (e : Error) : String := e.kind.text e.detail

end Error

end RowFilter
