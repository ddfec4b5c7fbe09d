import RowFilter.Error

/-!
# The registry of functions

A `Registry` is the list of the signatures that calls may use, in the order of their registration.
A name has several overloads if several signatures carry it; no two of them have the same operand
types, because `register` refuses a second one. So a name with operand types resolves to at most
one signature.
-/

namespace RowFilter

/-- A signature whose kernel can run with its types. -/
def Signature.make (name : String) (args : List DataType) (ret : DataType) (kernel : Kernel) :
    Except Error Signature :=
  let signature : Signature := ⟨name, args, ret, kernel⟩
  if signature.fits then .ok signature else .error (.unfitKernel signature)

structure Registry where
  signatures : List Signature
  deriving DecidableEq

namespace Registry

def empty : Registry := ⟨[]⟩

/-- The function name a kernel is registered under from the start. -/
def builtinName : Kernel → String
  | .add => "add"
  | .subtract => "subtract"
  | .multiply => "multiply"
  | .divide => "divide"
  | .mod => "mod"
  | .negative => "negative"
  | .equal => "equal"
  | .notEqual => "not_equal"
  | .lessThan => "less_than"
  | .lessThanOrEqual => "less_than_or_equal_to"
  | .greaterThan => "greater_than"
  | .greaterThanOrEqual => "greater_than_or_equal_to"
  | .not => "not"
  | .and => "and"
  | .or => "or"
  | .isNull => "isnull"
  | .isNotNull => "isnotnull"

/-- A kernel under its own name. -/
def builtinSignature (k : Kernel) (args : List DataType) (ret : DataType) : Signature :=
  ⟨builtinName k, args, ret, k⟩

/-- The overloads for one numeric type. -/
def numericSignatures (t : DataType) : List Signature :=
  [.add, .subtract, .multiply, .divide, .mod].map (builtinSignature · [t, t] t)
    ++ [builtinSignature .negative [t] t]
    ++ [.lessThan, .lessThanOrEqual, .greaterThan, .greaterThanOrEqual].map
        (builtinSignature · [t, t] .bool)

/-- The overloads for one column type. -/
def columnSignatures (t : DataType) : List Signature :=
  [.equal, .notEqual].map (builtinSignature · [t, t] .bool)
    ++ [.isNull, .isNotNull].map (builtinSignature · [t] .bool)

/-- Every kernel under its own name, for all the types it can run with. -/
def builtin : Registry :=
  ⟨[.int64, .float64].flatMap numericSignatures
    ++ [.bool, .int64, .float64].flatMap columnSignatures
    ++ [builtinSignature .not [.bool] .bool, builtinSignature .and [.bool, .bool] .bool,
      builtinSignature .or [.bool, .bool] .bool]⟩

/-- The signatures of a name, in the order of registration. -/
def overloads (r : Registry) (name : String) : List Signature :=
  r.signatures.filter (·.name == name)

def contains (r : Registry) (name : String) : Bool := r.signatures.any (·.name == name)

/-- The registered names in ascending order. -/
def names (r : Registry) : List String :=
  (r.signatures.map (·.name)).eraseDups.mergeSort (fun a b => decide (a ≤ b))

/-- Adds an overload, unless its name already has one with the same operand types. -/
def register (r : Registry) (s : Signature) : Except Error Registry :=
  if (r.overloads s.name).any (·.args == s.args) then .error (.signatureTaken s)
  else .ok ⟨r.signatures ++ [s]⟩

/-- The overload of a name that has exactly these operand types. -/
def resolve (r : Registry) (name : String) (args : List DataType) : Except Error Signature :=
  match (r.overloads name).find? (·.args == args) with
  | some s => .ok s
  | none =>
    if r.contains name then .error (.noSignature name args (r.overloads name))
    else .error (.unknownFunction name)

end Registry

end RowFilter
