import RowFilter.Field
import RowFilter.Signature

/-!
# Expressions

An `Expr` is a tree over the columns of a batch: a field, a literal with its declared type, or a
call of one overload of a function. This module holds the tree and what can be read off it; trees
are made through `Builder`, which checks every call against a registry.
-/

namespace RowFilter

inductive Expr
  | field (f : Field)
  /-- A constant. A null one still has a type. -/
  | literal (v : Value) (type : DataType)
  | call (signature : Signature) (args : List Expr)

namespace Expr

/-- Induction in which each operand of a call has its hypothesis. -/
@[elab_as_elim, induction_eliminator]
theorem induct {motive : Expr → Prop} (field : ∀ f, motive (.field f))
    (literal : ∀ v type, motive (.literal v type))
    (call : ∀ signature args, (∀ a ∈ args, motive a) → motive (.call signature args))
    (e : Expr) : motive e :=
  match e with
  | .field f => field f
  | .literal v type => literal v type
  | .call signature args => call signature args fun a _ => induct field literal call a

instance : Inhabited Expr := ⟨.literal .null .null⟩

/-- The type of what the expression yields. -/
def type : Expr → DataType
  | field f => f.type
  | literal _ type => type
  | call signature _ => signature.ret

/-- The operands of a call. -/
def children : Expr → List Expr
  | call _ args => args
  | _ => []

/-! ## Measures -/

mutual

/-- The count of nodes. -/
def size : Expr → Nat
  | field _ => 1
  | literal _ _ => 1
  | call _ args => 1 + sizeList args

/-- The count of nodes of all the expressions together. -/
def sizeList : List Expr → Nat
  | [] => 0
  | e :: es => e.size + sizeList es

end

mutual

/-- The count of nodes on the longest path down to a leaf. -/
def depth : Expr → Nat
  | field _ => 1
  | literal _ _ => 1
  | call _ args => 1 + depthList args

/-- The greatest depth among the expressions. -/
def depthList : List Expr → Nat
  | [] => 0
  | e :: es => max e.depth (depthList es)

end

/-! ## Fields -/

mutual

/-- The fields at the leaves, from left to right, each as often as it occurs. -/
def leaves : Expr → List Field
  | field f => [f]
  | literal _ _ => []
  | call _ args => leavesList args

def leavesList : List Expr → List Field
  | [] => []
  | e :: es => e.leaves ++ leavesList es

end

/-- Adds a field unless one of its name is there. -/
def addField (fields : List Field) (f : Field) : List Field :=
  if fields.any (·.name == f.name) then fields else fields ++ [f]

/-- The fields the expression reads, in the order of their first occurrence, one for each name. -/
def fields (e : Expr) : List Field := e.leaves.foldl addField []

/-! ## Text -/

mutual

def text : Expr → String
  | field f => f.name
  | literal v _ => v.text
  | call signature args => signature.name ++ "(" ++ ", ".intercalate (textList args) ++ ")"

def textList : List Expr → List String
  | [] => []
  | e :: es => e.text :: textList es

end

/-! ## Equality -/

mutual

/-- Equal trees, where literals compare by `Value.equals`: a tree with a NaN in it equals no tree,
not even itself. -/
def equals : Expr → Expr → Bool
  | field f, field g => f == g
  | literal v s, literal w t => v.equals w && s == t
  | call s as, call t bs => s == t && equalsList as bs
  | _, _ => false

def equalsList : List Expr → List Expr → Bool
  | [], [] => true
  | a :: as, b :: bs => a.equals b && equalsList as bs
  | _, _ => false

end

end Expr

end RowFilter
