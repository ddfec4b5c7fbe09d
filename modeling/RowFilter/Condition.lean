import RowFilter.Error

/-!
# Conditions

A `Condition` is an expression of boolean type.
-/

namespace RowFilter

structure Condition where
  root : Expr
  isBool : root.type = .bool

namespace Condition

/-- The condition with the given root, which must be boolean. -/
def make (root : Expr) : Except Error Condition :=
  if h : root.type = .bool then .ok ⟨root, h⟩ else .error (.notBoolean root)

/-- The fields the condition reads. -/
def fields (c : Condition) : List Field := c.root.fields

def text (c : Condition) : String := "condition(" ++ c.root.text ++ ")"

/-- Equal trees, in the sense of `Expr.equals`. -/
def equals (c d : Condition) : Bool := c.root.equals d.root

end Condition

end RowFilter
