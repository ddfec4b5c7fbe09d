import RowFilter.Proofs.Filter.Selecting

/-!
# Making conditions and filters

An expression that was built is well typed in all its parts, and this is what the later stages rely
on. Main result: `checked_of_built`. Its literals and calls are as their types say, every boolean
one makes a condition, and a condition can only fail to make a filter because of a field that the
schema does not declare.
-/

namespace RowFilter

namespace Expr

/-- The expressions that occur in an expression, which is one of them. -/
inductive Part : Expr → Expr → Prop
  | self (e : Expr) : Part e e
  | operand {signature : Signature} {args : List Expr} {a part : Expr} (ha : a ∈ args)
      (h : Part part a) : Part part (.call signature args)

/-- What occurs in a well-typed expression is well typed. -/
theorem WellTyped.part {e part : Expr} (typed : e.WellTyped) (h : Part part e) :
    part.WellTyped := by
  induction h with
  | self e => exact typed
  | operand ha h ih =>
    cases typed with
    | call fits types operands => exact ih (operands _ ha)

/-- A well-typed literal has a value of its type, or it is a null of a column type. -/
theorem WellTyped.literal_cases {v : Value} {t : DataType} (typed : (Expr.literal v t).WellTyped) :
    (v ≠ .null ∧ v.type = t) ∨ (v = .null ∧ t.isColumnType = true) := by
  cases typed with
  | literal hv ht =>
    by_cases hnull : v = .null
    · exact Or.inr ⟨hnull, ht⟩
    · exact Or.inl ⟨hnull, hv.resolve_left hnull⟩

/-- A well-typed call has the operands that its signature says, and as many as a kernel takes. -/
theorem WellTyped.call_operands {signature : Signature} {args : List Expr}
    (typed : (Expr.call signature args).WellTyped) :
    (args.length = 1 ∨ args.length = 2) ∧ args.map type = signature.args ∧
      signature.kernel.accepts signature.args signature.ret = true := by
  cases typed with
  | call fits types operands =>
    have hlength := (Kernel.typing_of_accepts fits).length_eq
    rw [← types, List.length_map] at hlength
    exact ⟨hlength, types, fits⟩

end Expr

namespace Bound

/-- A schema can only object to the leaves of a well-typed expression, because its calls do not have
too many operands. -/
theorem fault?_of_wellTyped {e : Expr} (typed : e.WellTyped) (schema : Schema) :
    fault? schema e = e.leaves.findSome? (schema.fault? .filter) := by
  induction typed with
  | field f =>
    rw [fault?, Expr.leaves, List.findSome?_singleton]
  | literal => rfl
  | @call signature args fits types operands ih =>
    have hfew : args.length ≤ maxOperands := by
      have hle := (Kernel.typing_of_accepts fits).length_le
      rwa [← types, List.length_map] at hle
    rw [fault?, if_neg (Nat.not_lt.mpr hfew), Expr.leaves]
    exact faultList?_eq_of_forall ih

/-- A schema accepts a well-typed expression just if it declares the leaves. -/
theorem fault?_eq_none_iff {e : Expr} (typed : e.WellTyped) {schema : Schema} :
    fault? schema e = none ↔ ∀ f ∈ e.leaves, schema.Declares f := by
  rw [fault?_of_wellTyped typed, Schema.findSome?_fault?_eq_none_iff]

end Bound

namespace Filter

/-- A well-typed condition makes a filter unless a field is missing or has another type. -/
theorem kind_of_make_eq_error {schema : Schema} {c : Condition} {e : Error}
    (typed : c.root.WellTyped) (h : make schema c = .error e) :
    e.kind = .unknownField ∨ e.kind = .schemaMismatch := by
  rw [make_eq, unlessFault_eq_error_iff, Bound.fault?_of_wellTyped typed] at h
  exact Schema.kind_of_findSome?_fault? h

end Filter

namespace Condition

/-- Just the boolean expressions make a condition. -/
theorem exists_make_iff {e : Expr} :
    (∃ c, make e = .ok c ∧ c.root = e) ↔ e.type = .bool := by
  rw [make]
  by_cases htype : e.type = .bool
  · rw [dif_pos htype]
    exact ⟨fun _ => htype, fun _ => ⟨_, rfl, rfl⟩⟩
  · rw [dif_neg htype]
    constructor
    · rintro ⟨c, hc, -⟩
      cases hc
    · intro h
      exact absurd h htype

end Condition

/-- **A tree that exists is well typed**: in an expression that builders made, over any registries
there can be, every literal is a value of its declared type or a null of a column type, and every
call has one or two operands, of the types of a signature that its kernel accepts. Hence no
condition is refused by a filter for having too many operands or because a field that was found is
gone, which would be an internal error, and just the boolean expressions make conditions. -/
theorem Expr.checked_of_built {e : Expr} (built : e.Built) :
    (∀ v t, Part (.literal v t) e →
      (v ≠ .null ∧ v.type = t) ∨ (v = .null ∧ t.isColumnType = true)) ∧
    (∀ signature args, Part (.call signature args) e →
      (args.length = 1 ∨ args.length = 2) ∧ args.map type = signature.args ∧
        signature.kernel.accepts signature.args signature.ret = true) ∧
    (∀ (c : Condition) (schema : Schema) (err : Error), c.root = e →
      Filter.make schema c = .error err →
        (∀ name count most, err ≠ .tooManyOperands name count most) ∧
          (∀ name, err ≠ .fieldVanished name) ∧
          (err.kind = .unknownField ∨ err.kind = .schemaMismatch)) ∧
    ((∃ c, Condition.make e = .ok c ∧ c.root = e) ↔ e.type = .bool) ∧
    (e.type ≠ .bool → Condition.make e = .error (.notBoolean e)) := by
  have typed := built.wellTyped
  refine ⟨fun v t h => (typed.part h).literal_cases, fun signature args h =>
    (typed.part h).call_operands, fun c schema err hroot hmake => ?_, Condition.exists_make_iff,
    fun htype => dif_neg htype⟩
  have hkind := Filter.kind_of_make_eq_error (hroot ▸ typed) hmake
  -- both would be internal errors
  refine ⟨fun name count most herr => ?_, fun name herr => ?_, hkind⟩
  · rw [herr] at hkind
    simp [Error.kind] at hkind
  · rw [herr] at hkind
    simp [Error.kind] at hkind

/-- Every call in the sample has the operands of its signature, and without the amount in the schema
the condition makes no filter. -/
theorem Expr.sample_checked :
    (∀ signature args, Part (.call signature args) Sample.condition.root →
      (args.length = 1 ∨ args.length = 2) ∧ args.map type = signature.args ∧
        signature.kernel.accepts signature.args signature.ret = true) ∧
    Part (.literal (.int64 3) .int64) Sample.condition.root ∧
    (∃ err, Filter.make ⟨[Sample.active], by decide, by decide⟩ Sample.condition = .error err ∧
      (∀ name, err ≠ .fieldVanished name) ∧
      (err.kind = .unknownField ∨ err.kind = .schemaMismatch)) ∧
    ∃ c, Condition.make Sample.condition.root = .ok c ∧ c.root = Sample.condition.root := by
  obtain ⟨-, hcalls, hmake, hcondition, -⟩ := checked_of_built Sample.built
  have hpart : Part (.literal (.int64 3) .int64) Sample.condition.root := by
    refine .operand (a := Sample.both) (List.mem_cons_self ..) ?_
    refine .operand (a := Sample.small) (List.mem_cons_self ..) ?_
    exact .operand (List.mem_cons_of_mem _ (List.mem_cons_self ..)) (.self _)
  have hfail : Filter.make ⟨[Sample.active], by decide, by decide⟩ Sample.condition =
      .error (.unknownField "amount" .filter [Sample.active]) := rfl
  obtain ⟨-, hvanished, hkind⟩ := hmake Sample.condition _ _ rfl hfail
  exact ⟨hcalls, hpart, ⟨_, hfail, hvanished, hkind⟩, hcondition.mpr rfl⟩

end RowFilter
