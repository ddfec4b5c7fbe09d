import Mathlib.Data.Nat.Log
import RowFilter.Proofs.Expr.Connectives

/-!
# The shape of balanced trees

A `Bracketing` is a binary tree with expressions at its leaves: the brackets that are put around
neighbours when operands are joined, before any connective is chosen. Joining halves a level and
adds one call to the height of what is joined, and the first operand is never an odd one out. Main
result: `connect_balanced`. The operands of a conjunction or disjunction keep their order, there is
one call for each pair of brackets, and the height grows with the logarithm of the number of
operands.
-/

namespace RowFilter

/-- Expressions with brackets around pairs of neighbours. -/
inductive Bracketing
  | operand (e : Expr)
  | pair (l r : Bracketing)

namespace Bracketing

/-- The expressions, from left to right. -/
def operands : Bracketing → List Expr
  | operand e => [e]
  | pair l r => l.operands ++ r.operands

/-- The count of brackets. -/
def pairs : Bracketing → Nat
  | operand _ => 0
  | pair l r => l.pairs + r.pairs + 1

/-- The expression in which every pair of brackets is a call of a connective. -/
def expr (d : Bool) : Bracketing → Expr
  | operand e => e
  | pair l r => Expr.connected d (l.expr d) (r.expr d)

/-- There is one operand more than there are brackets. -/
theorem length_operands (t : Bracketing) : t.operands.length = t.pairs + 1 := by
  induction t with
  | operand e => rfl
  | pair l r ihl ihr =>
    rw [operands, pairs, List.length_append, ihl, ihr]
    omega

end Bracketing

namespace Expr

theorem sizeList_append (es es' : List Expr) :
    sizeList (es ++ es') = sizeList es + sizeList es' := by
  induction es with
  | nil => rw [List.nil_append, sizeList, Nat.zero_add]
  | cons e es ih => rw [List.cons_append, sizeList, sizeList, ih, Nat.add_assoc]

theorem depth_le_depthList {e : Expr} {es : List Expr} (h : e ∈ es) : e.depth ≤ depthList es := by
  induction es with
  | nil => cases h
  | cons e' es ih =>
    rw [depthList]
    rcases List.mem_cons.mp h with rfl | hrest
    · exact Nat.le_max_left ..
    · exact Nat.le_trans (ih hrest) (Nat.le_max_right ..)

/-- A call of two operands is one node higher than the higher one of them. -/
theorem depth_call_two (signature : Signature) (l r : Expr) :
    (call signature [l, r]).depth = max l.depth r.depth + 1 := by
  rw [depth, depthList, depthList, depthList, Nat.max_zero, Nat.add_comm]

theorem size_connected (d : Bool) (l r : Expr) :
    (connected d l r).size = l.size + r.size + 1 := by
  rw [connected, size, sizeList, sizeList, sizeList]
  omega

/-- Connected operands have brackets around them. -/
theorem Connected.exists_bracketing {d : Bool} {es : List Expr} {e : Expr}
    (h : Connected d es e) : ∃ t : Bracketing, t.operands = es ∧ t.expr d = e := by
  induction h with
  | @single e isBool => exact ⟨.operand e, rfl, rfl⟩
  | node left right ihl ihr =>
    obtain ⟨l, rfl, rfl⟩ := ihl
    obtain ⟨r, rfl, rfl⟩ := ihr
    exact ⟨.pair l r, rfl, rfl⟩

end Expr

/-- Every pair of brackets adds one node to those of the operands. -/
theorem Bracketing.size_expr (d : Bool) (t : Bracketing) :
    (t.expr d).size = Expr.sizeList t.operands + t.pairs := by
  induction t with
  | operand e => rfl
  | pair l r ihl ihr =>
    rw [expr, operands, pairs, Expr.size_connected, Expr.sizeList_append, ihl, ihr]
    omega

namespace Builder

/-! ## Heights -/

/-- Every join is one node higher than the higher one of its operands. -/
def Raises (join : Expr → Expr → Except Error Expr) : Prop :=
  ∀ l r e, join l r = .ok e → e.depth = max l.depth r.depth + 1

/-- Whatever a name stands for, a call of it is a node above its operands. -/
theorem raises_call (b : Builder) (name : String) (ret : DataType) :
    Raises fun l r => b.call name [l, r] ret := by
  intro l r e h
  obtain ⟨signature, -, -, rfl⟩ := Expr.exists_of_call h
  exact Expr.depth_call_two signature l r

variable {join : Expr → Expr → Except Error Expr}

/-- One level adds no more than one node to the height. -/
theorem depthList_of_joinPairs (raises : Raises join) : ∀ {es out : List Expr},
    joinPairs join es = .ok out → Expr.depthList out ≤ Expr.depthList es + 1
  | [], out, hout => by
    cases hout
    exact Nat.le_succ _
  | [e], out, hout => by
    cases hout
    exact Nat.le_succ _
  | l :: r :: rest, out, hout => by
    obtain ⟨joined, joinedRest, hjoined, hrest, rfl⟩ := exists_of_joinPairs hout
    have hjoined := raises l r joined hjoined
    have hrest := depthList_of_joinPairs raises hrest
    rw [Expr.depthList, Expr.depthList, Expr.depthList]
    omega

/-- The first of two or more expressions is joined at every level. -/
theorem first_of_joinPairs (raises : Raises join) {l r : Expr} {rest out : List Expr}
    (hout : joinPairs join (l :: r :: rest) = .ok out) :
    ∃ first rest', out = first :: rest' ∧ l.depth + 1 ≤ first.depth := by
  obtain ⟨joined, joinedRest, hjoined, -, rfl⟩ := exists_of_joinPairs hout
  have hjoined := raises l r joined hjoined
  exact ⟨joined, joinedRest, rfl, by omega⟩

/-- Halving a level, with the odd one out in the larger half, takes one off the logarithm. -/
theorem clog_of_joinPairs {l r : Expr} {rest out : List Expr}
    (hout : joinPairs join (l :: r :: rest) = .ok out) :
    Nat.clog 2 (l :: r :: rest).length = Nat.clog 2 out.length + 1 := by
  have two : 2 ≤ (l :: r :: rest).length := by simp
  rw [length_joinPairs hout]
  exact Nat.clog_of_two_le Nat.one_lt_two two

/-- All levels: as many as the logarithm says are put on top of the first operand, and no more than
that on top of any. -/
theorem depth_of_joinAll (raises : Raises join) {es : List Expr} {e : Expr}
    (he : joinAll join es = .ok (some e)) :
    (∀ first ∈ es.head?, Nat.clog 2 es.length + first.depth ≤ e.depth) ∧
      e.depth ≤ Nat.clog 2 es.length + Expr.depthList es := by
  refine joinAll_induct ?_ (fun l r rest next hpaired ih => ?_) he
  · have hdepth : e.depth ≤ Expr.depthList [e] :=
      Expr.depth_le_depthList (List.mem_singleton_self e)
    simpa using hdepth
  · obtain ⟨hfirst, hall⟩ := ih
    obtain ⟨first, rest', rfl, hl⟩ := first_of_joinPairs raises hpaired
    have hlevel := depthList_of_joinPairs raises hpaired
    have hclog := clog_of_joinPairs hpaired
    have hfirst := hfirst first rfl
    constructor
    · intro f hf
      cases hf
      omega
    · omega

/-- Heights of what is joined by a name, whatever is registered for it. -/
theorem depth_of_balanced {b : Builder} {name : String} {operands : List Expr} {e : Expr}
    (h : b.balanced name operands = .ok e) :
    (∀ first ∈ operands.head?, Nat.clog 2 operands.length + first.depth ≤ e.depth) ∧
      e.depth ≤ Nat.clog 2 operands.length + Expr.depthList operands := by
  obtain ⟨-, hfound⟩ := balanced_eq_ok_iff.mp h
  exact depth_of_joinAll (b.raises_call name .bool) hfound

/-- **Balanced trees**: whatever is registered besides the initial functions, two or more boolean
operands are joined by brackets around neighbours that keep their order, each of which is one call.
The nodes are those of the operands and one for each call, and the height is the logarithm of the
number of operands, rounded up, on top of no less than the first operand and no more than the
highest one. Fewer than two operands are refused. -/
theorem connect_balanced (signatures : List Signature) (d : Bool) (operands : List Expr) :
    (2 ≤ operands.length → (∀ a ∈ operands, a.type = .bool) → ∃ t : Bracketing,
      (extended signatures).connect d operands = .ok (t.expr d) ∧
      t.operands = operands ∧ t.pairs = operands.length - 1 ∧
      (t.expr d).size = Expr.sizeList operands + (operands.length - 1) ∧
      (∀ first ∈ operands.head?,
        Nat.clog 2 operands.length + first.depth ≤ (t.expr d).depth) ∧
      (t.expr d).depth ≤ Nat.clog 2 operands.length + Expr.depthList operands) ∧
    (operands.length < 2 → ∃ e, (extended signatures).connect d operands = .error e ∧
      e.kind = .invalidParameter) := by
  constructor
  · intro two isBool
    obtain ⟨e, he, hconnected⟩ := exists_connect signatures d isBool two
    obtain ⟨t, hoperands, rfl⟩ := hconnected.exists_bracketing
    have hpairs : t.pairs = operands.length - 1 := by
      rw [← hoperands, t.length_operands, Nat.add_sub_cancel]
    have hsize := t.size_expr d
    rw [hoperands, hpairs] at hsize
    have hdepth := he
    rw [connect_eq] at hdepth
    exact ⟨t, he, hoperands, hpairs, hsize, depth_of_balanced hdepth⟩
  · intro few
    refine ⟨.tooFewOperands (Registry.builtinName (Kernel.connective d)) operands.length, ?_, rfl⟩
    rw [connect_eq, balanced, if_pos few]

end Builder

/-- Five boolean columns. -/
def Sample.flags : List Expr :=
  ["a", "b", "c", "d", "e"].map fun name => .field ⟨name, .bool, true⟩

/-- Five operands need three levels: `or(or(or(a, b), or(c, d)), e)` has four calls, nine nodes and
the height four. -/
theorem Builder.sample_balanced : ∃ t : Bracketing,
    (extended []).disjunction Sample.flags = .ok (t.expr true) ∧ t.operands = Sample.flags ∧
      t.pairs = 4 ∧ (t.expr true).size = 9 ∧ (t.expr true).depth = 4 := by
  have isBool : ∀ a ∈ Sample.flags, a.type = .bool := by
    simp [Sample.flags, Expr.type]
  obtain ⟨t, hjoined, hoperands, hpairs, hsize, hfirst, hall⟩ :=
    (connect_balanced [] true Sample.flags).1 (by decide) isBool
  have hlevels : Nat.clog 2 Sample.flags.length = 3 := rfl
  have hfirst := hfirst (.field ⟨"a", .bool, true⟩) rfl
  rw [hlevels] at hfirst hall
  exact ⟨t, hjoined, hoperands, hpairs, hsize, Nat.le_antisymm hall hfirst⟩

end RowFilter
