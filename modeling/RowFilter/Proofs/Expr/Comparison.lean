import RowFilter.Proofs.Expr.Calls
import RowFilter.Proofs.Kernel.Comparison

/-!
# Comparisons of expressions

Two expressions of one numeric type can be compared in six ways, whatever is registered besides the
initial functions. Main result: `Builder.compares_extended`. In every row the six comparisons are
null together, or they agree with each other as comparisons of two numbers.
-/

namespace RowFilter

open Kernel

/-- The builder makes the comparison of the two expressions, and this yields the value. -/
def Builder.Compares (b : Builder) (k : Kernel) (l r : Expr) (schema : Schema) (batch : Batch)
    (row : Nat) (v : Value) : Prop :=
  ∃ e, b.call (Registry.builtinName k) [l, r] .bool = .ok e ∧ e.Yields schema batch row v

namespace Expr

variable {l r : Expr} {schema : Schema} {batch : Batch} {row : Nat} {v w : Value}

/-- What a comparison yields is what its kernel makes of the operands. -/
theorem Yields.compares (signatures : List Signature) {k : Kernel} {u : Value}
    (hl : l.Yields schema batch row v) (hr : r.Yields schema batch row w) (typedl : l.WellTyped)
    (typedr : r.WellTyped) (numeric : l.type.isNumeric = true) (same : r.type = l.type)
    (hk : k ∈ comparisons) (hcall : k.call [v, w] = .ok u) :
    (Builder.extended signatures).Compares k l r schema batch row u := by
  have htyping : Typing k [l.type, r.type] .bool := by
    rw [same]
    exact typing_comparison hk numeric
  exact ⟨_, Builder.call_builtin signatures htyping,
    hl.builtinCall hr typedl typedr htyping hcall⟩

end Expr

namespace Builder

/-- **Comparisons are consistent**: built expressions of one numeric type yield two values in every
row. If one of these is null, all six comparisons yield null. Otherwise each yields what it says of
the order of the two numbers. These truth values agree with each other, and the one of less is that
of greater for the expressions exchanged. -/
theorem compares_extended (signatures : List Signature) {l r : Expr} (hl : l.Built) (hr : r.Built)
    (numeric : l.type.isNumeric = true) (same : r.type = l.type) {schema : Schema} {batch : Batch}
    (bindsl : l.Binds schema batch) (bindsr : r.Binds schema batch) {row : Nat}
    (hrow : row < batch.rows) :
    ∃ v w, l.Yields schema batch row v ∧ r.Yields schema batch row w ∧
      (v = .null ∨ w = .null → ∀ k ∈ comparisons,
        (extended signatures).Compares k l r schema batch row .null) ∧
      (v ≠ .null → w ≠ .null →
        (∀ k ∈ comparisons,
          (extended signatures).Compares k l r schema batch row (.bool (k.holds (v.order? w)))) ∧
        (extended signatures).Compares .greaterThan r l schema batch row
          (.bool (lessThan.holds (v.order? w))) ∧
        Consistent (fun k => k.holds (v.order? w)) (v.isNaN || w.isNaN)) := by
  obtain ⟨v, hv, htypev⟩ := bindsl.exists_yields hl.wellTyped hrow
  obtain ⟨w, hw, htypew⟩ := bindsr.exists_yields hr.wellTyped hrow
  refine ⟨v, w, hv, hw, fun hnull k hk => ?_, fun hvsome hwsome => ?_⟩
  · have hmem : .null ∈ [v, w] := List.mem_pair.mpr (hnull.imp Eq.symm Eq.symm)
    exact hv.compares signatures hw hl.wellTyped hr.wellTyped numeric same hk
      (call_of_propagate (propagates_comparison k hk) hmem)
  · have hnumber : v.type = l.type := htypev.resolve_left hvsome
    have hnumber' : w.type = l.type := (htypew.resolve_left hwsome).trans same
    rw [← hnumber] at numeric hnumber'
    have hunordered : (v.order? w).isNone = (v.isNaN || w.isNaN) := by
      rw [Bool.eq_iff_iff, Option.isNone_iff_eq_none, Value.order?_eq_none_iff numeric hnumber']
    have numeric' : w.type.isNumeric = true := hnumber' ▸ numeric
    refine ⟨fun k hk => ?_, ?_, hunordered ▸ consistent_holds _⟩
    · exact hv.compares signatures hw hl.wellTyped hr.wellTyped (hnumber ▸ numeric) same hk
        (call_comparison hk numeric hnumber')
    · have hcall := call_comparison (k := greaterThan) (by decide) numeric' hnumber'.symm
      rw [Value.order?_swap, greaterThan_holds_swap] at hcall
      exact hw.compares signatures hv hr.wellTyped hl.wellTyped (same ▸ hnumber ▸ numeric)
        same.symm (by decide) hcall

end Builder

namespace Sample

/-- A constant with these bits. -/
def double (bits : UInt64) : Expr := .literal (.float64 ⟨bits⟩) .float64

theorem built_double (bits : UInt64) : (double bits).Built := .literal (v := .float64 ⟨bits⟩) rfl

theorem yields_double (bits : UInt64) : (double bits).Yields schema batch 0 (.float64 ⟨bits⟩) :=
  Expr.yields_literal (built_double bits)

end Sample

namespace Builder

/-- The amount is less than 3 in row 0 and null in row 2. A NaN only differs from zero, and the two
zeros do not. -/
theorem sample_compares :
    (∀ k ∈ comparisons, standard.Compares k (.field Sample.amount) (.literal (.int64 3) .int64)
      Sample.schema Sample.batch 2 .null) ∧
    standard.Compares .greaterThan (.literal (.int64 3) .int64) (.field Sample.amount)
      Sample.schema Sample.batch 0 (.bool true) ∧
    (∀ k ∈ comparisons, standard.Compares k (Sample.double 0x7ff8000000000000) (Sample.double 0)
      Sample.schema Sample.batch 0 (.bool (k == .notEqual))) ∧
    standard.Compares .equal (Sample.double 0) (Sample.double 0x8000000000000000)
      Sample.schema Sample.batch 0 (.bool true) := by
  have hone : (Expr.field Sample.amount).Yields Sample.schema Sample.batch 0 (.int64 1) :=
    Sample.yields_amount rfl
  have hnull : (Expr.field Sample.amount).Yields Sample.schema Sample.batch 2 .null :=
    Sample.yields_amount rfl
  have hthree : (Expr.literal (.int64 3) .int64).Yields Sample.schema Sample.batch 0 (.int64 3) :=
    Expr.yields_literal (Sample.built_constant 3)
  have hlast : 2 < Sample.batch.rows := by decide
  have hfirst : 0 < Sample.batch.rows := by decide
  have doubles : ∀ x y : UInt64,
      (∀ k ∈ comparisons, standard.Compares k (Sample.double x) (Sample.double y) Sample.schema
        Sample.batch 0 (.bool (k.holds ((Value.float64 ⟨x⟩).order? (.float64 ⟨y⟩))))) := by
    intro x y
    obtain ⟨v, w, hv, hw, -, h⟩ := compares_extended [] (Sample.built_double x)
      (Sample.built_double y) rfl rfl (Sample.yields_double x).1 (Sample.yields_double y).1 hfirst
    obtain rfl := hv.unique (Sample.yields_double x)
    obtain rfl := hw.unique (Sample.yields_double y)
    exact (h nofun nofun).1
  refine ⟨?_, ?_, fun k hk => ?_, doubles _ _ .equal (by decide)⟩
  · obtain ⟨v, w, hv, hw, h, -⟩ := compares_extended [] Sample.built_amount
      (Sample.built_constant 3) rfl rfl hnull.1 hthree.1 hlast
    exact h (Or.inl (hv.unique hnull))
  · obtain ⟨v, w, hv, hw, -, h⟩ := compares_extended [] Sample.built_amount
      (Sample.built_constant 3) rfl rfl hone.1 hthree.1 hfirst
    obtain rfl := hv.unique hone
    obtain rfl := hw.unique hthree
    exact (h nofun nofun).2.1
  · have hbits := doubles 0x7ff8000000000000 0 k hk
    have hunordered : (Value.float64 ⟨0x7ff8000000000000⟩).order? (.float64 ⟨0⟩) = none := rfl
    rw [hunordered] at hbits
    have hnone : k.holds none = (k == .notEqual) := by
      rw [Bool.eq_iff_iff, beq_iff_eq]
      exact (consistent_holds none).unordered rfl k hk
    exact hnone ▸ hbits

end Builder

end RowFilter
