import RowFilter.Value

/-!
# Kernels

A `Kernel` is one of the operations a function can stand for. Each has a static side, the operand
and result types it can run with (`Kernel.accepts`), and says whether it decides on nulls itself or
yields null as soon as an operand is null (`Kernel.nullHandling`). The dynamic side is
`Kernel.apply`, in a module of its own.
-/

namespace RowFilter

inductive Kernel
  /-- Sum; integers wrap around. -/
  | add
  /-- Difference; integers wrap around. -/
  | subtract
  /-- Product; integers wrap around. -/
  | multiply
  /-- Truncated quotient, or the quotient of doubles; null for a zero divisor. -/
  | divide
  /-- Remainder with the sign of the dividend; null for a zero divisor. -/
  | mod
  /-- Change of sign; integers wrap around. -/
  | negative
  | equal
  | notEqual
  | lessThan
  | lessThanOrEqual
  | greaterThan
  | greaterThanOrEqual
  | not
  /-- Conjunction of three-valued logic: false decides, else null does. -/
  | and
  /-- Disjunction of three-valued logic: true decides, else null does. -/
  | or
  | isNull
  | isNotNull
  deriving DecidableEq, Inhabited

/-- What becomes of null operands. -/
inductive NullHandling
  /-- A null operand makes the result null, and the kernel sees no null. -/
  | propagate
  /-- The kernel sees the nulls and decides. -/
  | internal
  deriving DecidableEq

namespace Kernel

def name : Kernel → String
  | add => "Add"
  | subtract => "Subtract"
  | multiply => "Multiply"
  | divide => "Divide"
  | mod => "Mod"
  | negative => "Negative"
  | equal => "Equal"
  | notEqual => "NotEqual"
  | lessThan => "LessThan"
  | lessThanOrEqual => "LessThanOrEqual"
  | greaterThan => "GreaterThan"
  | greaterThanOrEqual => "GreaterThanOrEqual"
  | not => "Not"
  | and => "And"
  | or => "Or"
  | isNull => "IsNull"
  | isNotNull => "IsNotNull"

/-- Every kernel. -/
def all : List Kernel :=
  [add, subtract, multiply, divide, mod, negative, equal, notEqual, lessThan, lessThanOrEqual,
    greaterThan, greaterThanOrEqual, not, and, or, isNull, isNotNull]

def ofName? (name : String) : Option Kernel := all.find? (·.name == name)

def nullHandling : Kernel → NullHandling
  | and | or | isNull | isNotNull => .internal
  | _ => .propagate

/-- Whether the kernel can run with operands and a result of these types. -/
def accepts (k : Kernel) (args : List DataType) (ret : DataType) : Bool :=
  match k, args with
  | add, [l, r] | subtract, [l, r] | multiply, [l, r] | divide, [l, r] | mod, [l, r] =>
    l == r && l.isNumeric && ret == l
  | negative, [t] => t.isNumeric && ret == t
  | equal, [l, r] | notEqual, [l, r] => l == r && l.isColumnType && ret == .bool
  | lessThan, [l, r] | lessThanOrEqual, [l, r] | greaterThan, [l, r] | greaterThanOrEqual, [l, r] =>
    l == r && l.isNumeric && ret == .bool
  | not, [.bool] | and, [.bool, .bool] | or, [.bool, .bool] => ret == .bool
  | isNull, [t] | isNotNull, [t] => t.isColumnType && ret == .bool
  | _, _ => false

end Kernel

end RowFilter
