import RowFilter.Error

/-!
# Applying a kernel

`Kernel.apply` computes a kernel on the operands of one row. It is given operands that fit a
signature of the kernel, so operands of another shape are an internal error. It does not treat
nulls in any special way: for a kernel that propagates nulls the caller has done so.
-/

namespace RowFilter

namespace Kernel

/-- An operation on two numbers of one type; `none` for anything else. -/
def onNumbers (onInts : Int64 → Int64 → Value) (onDoubles : Binary64 → Binary64 → Value) :
    List Value → Option Value
  | [.int64 a, .int64 b] => some (onInts a b)
  | [.float64 a, .float64 b] => some (onDoubles a b)
  | _ => none

/-- An operation that is null for a zero divisor, of either sign. -/
def onDivisor (onInts : Int64 → Int64 → Int64) (onDoubles : Binary64 → Binary64 → Binary64) :
    List Value → Option Value :=
  onNumbers (fun a b => if b = 0 then .null else .int64 (onInts a b))
    (fun a b => if b.isZero then .null else .float64 (onDoubles a b))

/-- Change of sign. -/
def negate : List Value → Option Value
  | [.int64 a] => some (.int64 (-a))
  | [.float64 a] => some (.float64 a.neg)
  | _ => none

/-- Equality of two values of one type. -/
def equality : Value → Value → Except Error Bool
  | .bool a, .bool b => .ok (a == b)
  | .int64 a, .int64 b => .ok (a == b)
  | .float64 a, .float64 b => .ok (a.equals b)
  | a, b => .error (.incomparable a.type b.type)

/-- Order of two numbers of one type; `none` if one is a NaN. -/
def ordering : Value → Value → Except Error (Option Ordering)
  | .int64 a, .int64 b => .ok (some (compare a.toInt b.toInt))
  | .float64 a, .float64 b => .ok (a.compare? b)
  | a, b => .error (.unordered a.type b.type)

/-- Whether two numbers of one type are ordered as `holds` asks; false if one is a NaN. -/
def ordered (holds : Ordering → Bool) (a b : Value) : Except Error Value :=
  (ordering a b).map fun o => .bool (o.any holds)

/-- Conjunction of three-valued logic. What is neither true nor false counts as null. -/
def conjunction (a b : Value) : Value :=
  match a.asBool?, b.asBool? with
  | some false, _ | _, some false => .bool false
  | some true, some true => .bool true
  | _, _ => .null

/-- Disjunction of three-valued logic. What is neither true nor false counts as null. -/
def disjunction (a b : Value) : Value :=
  match a.asBool?, b.asBool? with
  | some true, _ | _, some true => .bool true
  | some false, some false => .bool false
  | _, _ => .null

/-- The result of the kernel for the operands of one row. -/
def apply (k : Kernel) (args : List Value) : Except Error Value :=
  let orMisapplied (result : Option Value) : Except Error Value :=
    match result with
    | some v => .ok v
    | none => .error (.kernelMisapplied k args)
  match k, args with
  | add, _ =>
    orMisapplied (onNumbers (fun a b => .int64 (a + b)) (fun a b => .float64 (a.add b)) args)
  | subtract, _ =>
    orMisapplied (onNumbers (fun a b => .int64 (a - b)) (fun a b => .float64 (a.sub b)) args)
  | multiply, _ =>
    orMisapplied (onNumbers (fun a b => .int64 (a * b)) (fun a b => .float64 (a.mul b)) args)
  | divide, _ => orMisapplied (onDivisor (· / ·) Binary64.div args)
  | mod, _ => orMisapplied (onDivisor (· % ·) Binary64.rem args)
  | negative, _ => orMisapplied (negate args)
  | equal, [a, b] => (equality a b).map .bool
  | notEqual, [a, b] => (equality a b).map fun same => .bool !same
  | lessThan, [a, b] => ordered (·.isLT) a b
  | lessThanOrEqual, [a, b] => ordered (·.isLE) a b
  | greaterThan, [a, b] => ordered (·.isGT) a b
  | greaterThanOrEqual, [a, b] => ordered (·.isGE) a b
  | not, [.bool a] => .ok (.bool !a)
  | and, [a, b] => .ok (conjunction a b)
  | or, [a, b] => .ok (disjunction a b)
  | isNull, [a] => .ok (.bool a.isNull)
  | isNotNull, [a] => .ok (.bool !a.isNull)
  | _, _ => .error (.kernelMisapplied k args)

/-- The result of a call: null at once if the kernel propagates nulls and an operand is null. -/
def call (k : Kernel) (args : List Value) : Except Error Value :=
  if k.nullHandling = .propagate ∧ args.any Value.isNull then .ok .null else k.apply args

end Kernel

end RowFilter
