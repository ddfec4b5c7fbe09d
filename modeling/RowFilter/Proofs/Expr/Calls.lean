import RowFilter.Proofs.Expr.Connectives
import RowFilter.Proofs.Filter.Meaning

/-!
# Calls of the initial functions

From the start each kernel has an overload for all the types it can run with, under its own name
(`Registry.resolve_builtin`). No registration replaces one, so a builder over more functions makes
the call if the operands have these types (`Builder.call_builtin`). Main result:
`Expr.Yields.builtinCall`. The call binds if its operands do, and yields what the kernel makes of
the values that they yield.
-/

namespace RowFilter

/-- Each kernel is registered from the start for all the types it can run with. -/
theorem Registry.resolve_builtin {k : Kernel} {args : List DataType} {ret : DataType}
    (h : Kernel.Typing k args ret) :
    builtin.resolve (builtinName k) args = .ok (builtinSignature k args ret) := by
  cases h with
  | arithmetic hk ht =>
    obtain rfl | rfl | rfl | rfl | rfl := by simpa using hk
    all_goals cases ret with
    | null | bool => cases ht
    | int64 | float64 => rfl
  | sign ht =>
    cases ret with
    | null | bool => cases ht
    | int64 | float64 => rfl
  | @equality _ t hk ht =>
    obtain rfl | rfl := by simpa using hk
    all_goals cases t with
    | null => cases ht
    | bool | int64 | float64 => rfl
  | @order _ t hk ht =>
    obtain rfl | rfl | rfl | rfl := by simpa using hk
    all_goals cases t with
    | null | bool => cases ht
    | int64 | float64 => rfl
  | negation => rfl
  | connective hk =>
    obtain rfl | rfl := by simpa using hk
    all_goals rfl
  | @nullTest _ t hk ht =>
    obtain rfl | rfl := by simpa using hk
    all_goals cases t with
    | null => cases ht
    | bool | int64 | float64 => rfl

namespace Expr

/-- The call of a kernel under its own name. -/
def builtinCall (k : Kernel) (args : List Expr) (ret : DataType) : Expr :=
  .call (Registry.builtinSignature k (args.map type) ret) args

end Expr

/-- Whatever is registered besides, the call is made if the kernel can run with the types. -/
theorem Builder.call_builtin (signatures : List Signature) {k : Kernel} {args : List Expr}
    {ret : DataType} (h : Kernel.Typing k (args.map Expr.type) ret) :
    (extended signatures).call (Registry.builtinName k) args ret =
      .ok (Expr.builtinCall k args ret) :=
  call_of_resolve (Registry.resolve_registerAll (Registry.resolve_builtin h) signatures) rfl

namespace Expr

variable {k : Kernel} {args : List Expr} {e l r : Expr} {ret : DataType} {schema : Schema}
  {batch : Batch} {row : Nat} {v w u : Value}

theorem exists_of_mem_leavesList {f : Field} (hf : f ∈ leavesList args) :
    ∃ a ∈ args, f ∈ a.leaves := by
  induction args with
  | nil => cases hf
  | cons e es ih =>
    rw [leavesList, List.mem_append] at hf
    rw [List.exists_mem_cons_iff]
    exact hf.imp_right ih

theorem wellTyped_builtinCall (h : Kernel.Typing k (args.map type) ret)
    (typed : ∀ a ∈ args, a.WellTyped) : (builtinCall k args ret).WellTyped :=
  .call (Kernel.accepts_of_typing h) rfl typed

/-- The call binds if its operands do. -/
theorem binds_builtinCall (h : Kernel.Typing k (args.map type) ret)
    (typed : ∀ a ∈ args, a.WellTyped) (binds : ∀ a ∈ args, a.Binds schema batch) :
    (builtinCall k args ret).Binds schema batch := by
  rw [(wellTyped_builtinCall h typed).binds_iff]
  intro f hf
  obtain ⟨a, ha, hf⟩ := exists_of_mem_leavesList hf
  exact (binds a ha).declares f hf

/-- A well-typed expression that binds yields a value of its type. -/
theorem Binds.exists_yields (h : e.Binds schema batch) (typed : e.WellTyped)
    (hrow : row < batch.rows) : ∃ v, e.Yields schema batch row v ∧ v.HasType e.type := by
  obtain ⟨v, hv, htype⟩ := typed.exists_denote hrow fun f hf => (h.declares f hf).2
  exact ⟨v, h.yields_iff.mpr hv, htype⟩

theorem Yields.unique (hv : e.Yields schema batch row v) (hw : e.Yields schema batch row w) :
    v = w := by
  have hsame := hw.1.yields_iff.mp hw
  rw [hv.1.yields_iff.mp hv, Option.some_inj] at hsame
  exact hsame

theorem yields_literal {type : DataType} (h : (literal v type).Built) :
    (literal v type).Yields schema batch row v :=
  (h.wellTyped.binds_iff.mpr nofun).yields_iff.mpr rfl

theorem yields_field {f : Field} (declared : schema.Declares f ∧ batch.schema.Declares f)
    (hv : (field f).denote batch row = some v) : (field f).Yields schema batch row v := by
  have binds : (field f).Binds schema batch := by
    refine (WellTyped.field f).binds_iff.mpr fun g hg => ?_
    rw [List.mem_singleton.mp hg]
    exact declared
  exact binds.yields_iff.mpr hv

/-- **Calls yield what kernels do**: with two operands that yield values, the call of a kernel
yields what the kernel makes of the two. -/
theorem Yields.builtinCall (hl : l.Yields schema batch row v) (hr : r.Yields schema batch row w)
    (typedl : l.WellTyped) (typedr : r.WellTyped) (h : Kernel.Typing k [l.type, r.type] ret)
    (hcall : k.call [v, w] = .ok u) :
    (builtinCall k [l, r] ret).Yields schema batch row u := by
  have typed : ∀ a ∈ [l, r], a.WellTyped := by simpa using ⟨typedl, typedr⟩
  have binds : ∀ a ∈ [l, r], a.Binds schema batch := by simpa using ⟨hl.1, hr.1⟩
  rw [(binds_builtinCall h typed binds).yields_iff, Expr.builtinCall,
    denote_call_two _ (hl.1.yields_iff.mp hl) (hr.1.yields_iff.mp hr), toOption_eq_some_iff]
  exact hcall

end Expr

namespace Sample

theorem built_amount : (Expr.field amount).Built := .field amount

theorem built_constant (n : Int64) : (Expr.literal (.int64 n) .int64).Built :=
  .literal (v := .int64 n) rfl

theorem yields_amount {row : Nat} {v : Value} (hv : (Expr.field amount).denote batch row = some v) :
    (Expr.field amount).Yields schema batch row v :=
  Expr.yields_field declares_amount hv

end Sample

end RowFilter
