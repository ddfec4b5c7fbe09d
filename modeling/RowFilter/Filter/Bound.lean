import RowFilter.Kernel.Apply
import RowFilter.Batch

/-!
# Bound expressions

Binding an expression to a schema resolves its field names once, so that evaluating it for a row
needs no look-up: each field becomes a position in the list of inputs, which holds every field name
that occurs, once, in the order of first occurrence. `Bound.evaluate` is then given one column for
each input.
-/

namespace RowFilter

/-- An expression whose fields are positions in a list of inputs. -/
inductive Bound
  | input (position : Nat)
  | literal (v : Value)
  | call (signature : Signature) (args : List Bound)

namespace Bound

instance : Inhabited Bound := ⟨.literal .null⟩

/-- No kernel takes more operands. -/
def maxOperands : Nat := 2

/-- A field must have the type that the schema declares. -/
def checkType (f : Field) (declared : DataType) : Except Error Unit :=
  if f.type = declared then .ok () else .error (.fieldTypeDiffers f declared)

/-- The position of the field's name among the inputs, which it joins if it is new. -/
def inputOf (f : Field) (inputs : List Field) : Nat × List Field :=
  match inputs.findIdx? (·.name == f.name) with
  | some position => (position, inputs)
  | none => (inputs.length, inputs ++ [f])

mutual

/-- Binds an expression, given the inputs that came before it, and returns the inputs after it. -/
def bind (schema : Schema) : Expr → List Field → Except Error (Bound × List Field)
  | .field f, inputs =>
    match schema.find? f.name with
    | none => .error (.unknownField f.name .filter schema.fields)
    | some declared => do
      checkType f declared.type
      let (position, inputs) := inputOf f inputs
      return (.input position, inputs)
  | .literal v _, inputs => .ok (.literal v, inputs)
  | .call signature args, inputs =>
    if maxOperands < args.length then
      .error (.tooManyOperands signature.name args.length maxOperands)
    else do
      let (args, inputs) ← bindList schema args inputs
      return (.call signature args, inputs)

/-- Binds expressions from left to right. -/
def bindList (schema : Schema) : List Expr → List Field → Except Error (List Bound × List Field)
  | [], inputs => .ok ([], inputs)
  | e :: es, inputs => do
    let (bound, inputs) ← bind schema e inputs
    let (rest, inputs) ← bindList schema es inputs
    return (bound :: rest, inputs)

end

mutual

/-- The value for a row, given the columns of the inputs. -/
def evaluate (columns : Array Column) (row : Nat) : Bound → Except Error Value
  | input position =>
    match columns[position]? with
    | some c => c.get row
    | none => .error (.inputUnresolved position)
  | literal v => .ok v
  | call signature args => do
    let operands ← evaluateList columns row args
    signature.kernel.call operands

/-- The values for a row, from left to right. -/
def evaluateList (columns : Array Column) (row : Nat) : List Bound → Except Error (List Value)
  | [] => .ok []
  | e :: es => do
    let v ← evaluate columns row e
    let vs ← evaluateList columns row es
    return v :: vs

end

end Bound

end RowFilter
