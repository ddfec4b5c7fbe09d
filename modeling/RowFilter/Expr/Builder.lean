import RowFilter.Registry

/-!
# Building expressions

A `Builder` makes expressions whose calls are checked against its registry: the operand types
select the overload, and the result type must be the one that was asked for. Conjunctions and
disjunctions of many operands become balanced trees of binary calls, whose height grows with the
logarithm of the number of operands.
-/

namespace RowFilter

structure Builder where
  registry : Registry

namespace Builder

/-- The builder over the functions that are there from the start. -/
def standard : Builder := ⟨.builtin⟩

/-- A column. -/
def field (f : Field) : Expr := .field f

/-- A constant with the type of its value, which must not be null. -/
def literal (v : Value) : Except Error Expr :=
  if v.isNull then .error .untypedNull else .ok (.literal v v.type)

/-- A null constant of a column type. -/
def nullLiteral (type : DataType) : Except Error Expr :=
  if type.isColumnType then .ok (.literal .null type) else .error (.nullWithoutType type)

/-- A call of a registered function. -/
def call (b : Builder) (name : String) (args : List Expr) (ret : DataType) : Except Error Expr := do
  let types := args.map Expr.type
  let signature ← b.registry.resolve name types
  if signature.ret = ret then return .call signature args
  else throw (.wrongResult name types signature.ret ret)

/-! ## Balanced trees -/

/-- Joins neighbours, from left to right; an odd one out stays as it is. -/
def joinPairs (join : Expr → Expr → Except Error Expr) : List Expr → Except Error (List Expr)
  | l :: r :: rest => do
    let joined ← join l r
    let joinedRest ← joinPairs join rest
    return joined :: joinedRest
  | rest => .ok rest

/-- Joining pairs leaves half of the expressions; an odd one is carried over. -/
theorem length_joinPairs {join : Expr → Expr → Except Error Expr} {es out : List Expr}
    (h : joinPairs join es = .ok out) : out.length = (es.length + 1) / 2 := by
  fun_induction joinPairs join es generalizing out with
  | case1 l r rest ih =>
    cases hj : join l r with
    | error e => simp [hj, bind, Except.bind] at h
    | ok joined =>
      cases hr : joinPairs join rest with
      | error e => simp [hj, hr, bind, Except.bind] at h
      | ok joinedRest =>
        have := ih hr
        simp [hj, hr, bind, Except.bind, pure, Except.pure] at h
        subst h
        simp
        omega
  | case2 rest hne =>
    cases h
    match rest, hne with
    | [], _ => simp
    | [_], _ => simp
    | l :: r :: rest, hne => exact absurd rfl (hne l r rest)

/-- Joins neighbours level by level until one expression is left; there is none to begin with only
if the list is empty, and then the answer is `none`. -/
def joinAll (join : Expr → Expr → Except Error Expr) : List Expr → Except Error (Option Expr)
  | [] => .ok none
  | [e] => .ok (some e)
  | l :: r :: rest =>
    match paired : joinPairs join (l :: r :: rest) with
    | .error e => .error e
    | .ok next =>
      have : next.length < rest.length + 2 := by
        have := length_joinPairs paired
        simp at this
        omega
      joinAll join next
termination_by es => es.length

/-- The operands joined by a binary function; there must be at least two. -/
def balanced (b : Builder) (name : String) (operands : List Expr) : Except Error Expr :=
  if operands.length < 2 then .error (.tooFewOperands name operands.length)
  else do
    match ← joinAll (fun l r => b.call name [l, r] .bool) operands with
    | some e => return e
    | none => throw (.operandsLost name)

/-- All the operands hold. -/
def conjunction (b : Builder) (operands : List Expr) : Except Error Expr :=
  b.balanced (Registry.builtinName .and) operands

/-- Some operand holds. -/
def disjunction (b : Builder) (operands : List Expr) : Except Error Expr :=
  b.balanced (Registry.builtinName .or) operands

end Builder

end RowFilter
