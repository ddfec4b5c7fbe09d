import RowFilter.Proofs.Expr.Typing
import RowFilter.Proofs.Kernel.Connectives
import RowFilter.Proofs.Registry.Extension

/-!
# Conjunctions and disjunctions of many operands

However much is registered, the overloads of the connectives for boolean operands stay the initial
ones, so joining boolean operands succeeds (`exists_connect`), and the result comes from them by
calls of the connective with brackets in some way (`Expr.Connected`). Main result:
`Connected.denote_eq`. In every row, the brackets and their order have no part in what the result
denotes; the rule for the values of all the operands does. Negation exchanges the two connectives
(`Connected.denote_negated`).
-/

namespace RowFilter

open Kernel

namespace Expr

/-- The call of the connective that a truth value decides. -/
def connected (d : Bool) (l r : Expr) : Expr :=
  .call (Registry.builtinSignature (connective d) [.bool, .bool] .bool) [l, r]

/-- The negation of a boolean expression. -/
def negated (e : Expr) : Expr := .call (Registry.builtinSignature .not [.bool] .bool) [e]

/-- The expression comes from boolean operands by calls of a connective on neighbours. -/
inductive Connected (d : Bool) : List Expr → Expr → Prop
  | single {e : Expr} (isBool : e.type = .bool) : Connected d [e] e
  | node {ls rs : List Expr} {l r : Expr} (left : Connected d ls l) (right : Connected d rs r) :
      Connected d (ls ++ rs) (connected d l r)

theorem Connected.type_eq {d : Bool} {es : List Expr} {e : Expr} (h : Connected d es e) :
    e.type = .bool := by
  cases h with
  | single isBool => exact isBool
  | node left right => rfl

end Expr

namespace Builder

/-- The builder over the functions that are there from the start and others, as far as they can be
registered. -/
def extended (signatures : List Signature) : Builder := ⟨Registry.builtin.registerAll signatures⟩

/-- The operands joined by the connective that a truth value decides. -/
def connect (b : Builder) : Bool → List Expr → Except Error Expr
  | false => b.conjunction
  | true => b.disjunction

theorem connect_eq (b : Builder) (d : Bool) (operands : List Expr) :
    b.connect d operands = b.balanced (Registry.builtinName (connective d)) operands := by
  cases d with
  | false => rfl
  | true => rfl

section Extended

variable {signatures : List Signature} {d : Bool} {l r e : Expr} {operands : List Expr}

/-- No registration replaces a connective. -/
theorem resolve_connective (signatures : List Signature) (d : Bool) :
    (extended signatures).registry.resolve (Registry.builtinName (connective d)) [.bool, .bool] =
      .ok (Registry.builtinSignature (connective d) [.bool, .bool] .bool) := by
  refine Registry.resolve_registerAll ?_ signatures
  cases d with
  | false => rfl
  | true => rfl

/-- So boolean expressions can always be joined. -/
theorem call_connective (hl : l.type = .bool) (hr : r.type = .bool) :
    (extended signatures).call (Registry.builtinName (connective d)) [l, r] .bool =
      .ok (Expr.connected d l r) := by
  refine call_of_resolve ?_ rfl
  rw [List.map_cons, List.map_singleton, hl, hr]
  exact resolve_connective signatures d

/-- Nor does one replace the negation. -/
theorem call_not (he : e.type = .bool) :
    (extended signatures).call (Registry.builtinName .not) [e] .bool = .ok e.negated := by
  refine call_of_resolve ?_ rfl
  rw [List.map_singleton, he]
  exact Registry.resolve_registerAll rfl signatures

/-- All of several boolean expressions can be negated. -/
theorem mapM_call_not (hall : ∀ a ∈ operands, a.type = .bool) :
    operands.mapM (fun a => (extended signatures).call (Registry.builtinName .not) [a] .bool) =
      .ok (operands.map Expr.negated) :=
  mapM_eq_ok fun a ha => call_not (hall a ha)

/-- Joins of boolean expressions are calls of the connective. -/
theorem connected_of_joined
    (h : Joined (fun l r => (extended signatures).call (Registry.builtinName (connective d)) [l, r]
      .bool) operands e) (hall : ∀ a ∈ operands, a.type = .bool) :
    Expr.Connected d operands e := by
  induction h with
  | single e => exact .single (hall e (List.mem_singleton_self e))
  | node left right joined ihl ihr =>
    have hl := ihl fun a ha => hall a (List.mem_append_left _ ha)
    have hr := ihr fun a ha => hall a (List.mem_append_right _ ha)
    rw [call_connective hl.type_eq hr.type_eq] at joined
    cases joined
    exact .node hl hr

/-- **Joining succeeds**: whatever was registered, two or more boolean operands are joined by calls
of the connective. -/
theorem exists_connect (signatures : List Signature) (d : Bool)
    (hall : ∀ a ∈ operands, a.type = .bool) (two : 2 ≤ operands.length) :
    ∃ e, (extended signatures).connect d operands = .ok e ∧ Expr.Connected d operands e := by
  have total : ∀ l r : Expr, l.type = .bool → r.type = .bool →
      ∃ e, (extended signatures).call (Registry.builtinName (connective d)) [l, r] .bool = .ok e ∧
        e.type = .bool := fun l r hl hr => ⟨_, call_connective hl hr, rfl⟩
  obtain ⟨e, he, -⟩ := exists_balanced total hall two
  rw [connect_eq]
  exact ⟨e, he, connected_of_joined (joined_of_balanced he).2 hall⟩

end Extended

end Builder

namespace Expr

/-- The value of the expression in a row, or null if it has none there. -/
def valueIn (b : Batch) (row : Nat) (e : Expr) : Value := (e.denote b row).getD .null

/-- The expression is true, false or null in a row. -/
def Truth (b : Batch) (row : Nat) (e : Expr) : Prop :=
  e.denote b row = some (e.valueIn b row) ∧ (e.valueIn b row).HasType .bool

variable {d : Bool} {es : List Expr} {e : Expr} {b : Batch} {row : Nat}

/-- The leaves of the result are those of the operands, in their order. -/
theorem Connected.leaves_eq (h : Connected d es e) : e.leaves = es.flatMap leaves := by
  induction h with
  | single isBool => rw [List.flatMap_singleton]
  | node left right ihl ihr =>
    rw [connected, leaves, leavesList, leavesList, leavesList, List.append_nil, ihl, ihr,
      List.flatMap_append]

theorem Connected.wellTyped (h : Connected d es e) (hall : ∀ a ∈ es, a.WellTyped) :
    e.WellTyped := by
  induction h with
  | @single e isBool => exact hall e (List.mem_singleton_self e)
  | @node ls rs l r left right ihl ihr =>
    have hl := ihl fun a ha => hall a (List.mem_append_left _ ha)
    have hr := ihr fun a ha => hall a (List.mem_append_right _ ha)
    refine .call ?_ ?_ ?_
    · cases d with
      | false => rfl
      | true => rfl
    · rw [List.map_cons, List.map_singleton, left.type_eq, right.type_eq]
      rfl
    · simpa using ⟨hl, hr⟩

theorem Truth.of_denote {v : Value} (hv : e.denote b row = some v) (htype : v.HasType .bool) :
    e.Truth b row := by
  have hvalue : e.valueIn b row = v := by
    rw [valueIn, hv]
    rfl
  rw [Truth, hvalue]
  exact ⟨hv, htype⟩

/-- **The connectives are n-ary**: the result denotes what the rule makes of the values of all
operands. -/
theorem Connected.denote_eq (h : Connected d es e) (hall : ∀ a ∈ es, a.Truth b row) :
    e.denote b row = some (decidedBy d (es.map (valueIn b row))) := by
  induction h with
  | @single e isBool =>
    obtain ⟨hvalue, htype⟩ := hall e (List.mem_singleton_self e)
    rw [List.map_singleton, decidedBy_singleton htype]
    exact hvalue
  | @node ls rs l r left right ihl ihr =>
    have hl := ihl fun a ha => hall a (List.mem_append_left _ ha)
    have hr := ihr fun a ha => hall a (List.mem_append_right _ ha)
    have hcall := Kernel.call_connective d (hasType_decidedBy d (ls.map (valueIn b row)))
      (hasType_decidedBy d (rs.map (valueIn b row)))
    rw [List.map_append, decidedBy_append, connected, denote_call_two _ hl hr]
    exact toOption_eq_some_iff.mpr hcall

/-- A conjunction is true if all operands are. -/
theorem Connected.denote_true_iff_forall (h : Connected false es e)
    (hall : ∀ a ∈ es, a.Truth b row) :
    e.denote b row = some (.bool true) ↔ ∀ a ∈ es, a.denote b row = some (.bool true) := by
  have htypes : ∀ v ∈ es.map (valueIn b row), v.HasType .bool := by
    simpa using fun a ha => (hall a ha).2
  rw [h.denote_eq hall, Option.some_inj, decidedBy_false_eq_true_iff htypes, List.forall_mem_map]
  refine forall₂_congr fun a ha => ?_
  rw [(hall a ha).1, Option.some_inj]

/-- A disjunction is true if some operand is. -/
theorem Connected.denote_true_iff_exists (h : Connected true es e)
    (hall : ∀ a ∈ es, a.Truth b row) :
    e.denote b row = some (.bool true) ↔ ∃ a ∈ es, a.denote b row = some (.bool true) := by
  rw [h.denote_eq hall, Option.some_inj, decidedBy_eq_decider_iff, List.mem_map]
  refine exists_congr fun a => and_congr_right fun ha => ?_
  rw [(hall a ha).1, Option.some_inj]

/-- Neither the order of the operands nor repetition has a part in what the result denotes. -/
theorem Connected.denote_eq_of_mem_iff (h : Connected d es e) {es' : List Expr} {e' : Expr}
    (h' : Connected d es' e') (hall : ∀ a ∈ es, a.Truth b row) (hmem : ∀ a, a ∈ es' ↔ a ∈ es) :
    e'.denote b row = e.denote b row := by
  have hall' : ∀ a ∈ es', a.Truth b row := fun a ha => hall a ((hmem a).mp ha)
  have hvalues : ∀ v, v ∈ es'.map (valueIn b row) ↔ v ∈ es.map (valueIn b row) := by
    simp only [List.mem_map, hmem, implies_true]
  rw [h.denote_eq hall, h'.denote_eq hall', decidedBy_congr (hvalues _) fun _ => hvalues _]

/-! ## Negations -/

theorem leaves_negated (e : Expr) : e.negated.leaves = e.leaves := by
  rw [negated, leaves, leavesList, leavesList, List.append_nil]

theorem wellTyped_negated (typed : e.WellTyped) (isBool : e.type = .bool) :
    e.negated.WellTyped := by
  refine .call rfl ?_ (by simpa using typed)
  rw [List.map_singleton, isBool]
  rfl

theorem Truth.denote_negated (h : e.Truth b row) :
    e.negated.denote b row = some (negation (e.valueIn b row)) := by
  rw [negated, denote_call_one _ h.1]
  exact toOption_eq_some_iff.mpr (Kernel.call_not h.2)

theorem Truth.negated (h : e.Truth b row) : e.negated.Truth b row :=
  .of_denote h.denote_negated (hasType_negation _)

theorem Truth.valueIn_negated (h : e.Truth b row) :
    e.negated.valueIn b row = negation (e.valueIn b row) := by
  rw [valueIn, h.denote_negated]
  rfl

/-- **Negation exchanges the connectives**: the negation of what one connective joins denotes what
the other one makes of the negated operands. -/
theorem Connected.denote_negated (h : Connected d es e) {e' : Expr}
    (h' : Connected (!d) (es.map Expr.negated) e') (hall : ∀ a ∈ es, a.Truth b row) :
    e.negated.denote b row = e'.denote b row := by
  have hvalue := h.denote_eq hall
  have htruth : e.Truth b row := .of_denote hvalue (hasType_decidedBy d _)
  have hall' : ∀ a ∈ es.map Expr.negated, a.Truth b row := by
    simpa using fun a ha => (hall a ha).negated
  have hmap : (es.map Expr.negated).map (valueIn b row) =
      (es.map (valueIn b row)).map negation := by
    rw [List.map_map, List.map_map]
    exact List.map_congr_left fun a ha => (hall a ha).valueIn_negated
  have htypes : ∀ v ∈ es.map (valueIn b row), v.HasType .bool := by
    simpa using fun a ha => (hall a ha).2
  rw [htruth.denote_negated, h'.denote_eq hall', hmap, decidedBy_map_negation htypes, valueIn,
    hvalue]
  rfl

end Expr

end RowFilter
