import RowFilter.Proofs.Expr.Calls
import RowFilter.Proofs.Kernel.Division

/-!
# Quotient and remainder of expressions

`Builder.recomposed` puts a dividend together again from the quotient, the divisor and the
remainder. Main result: `Builder.divides_extended`. Whatever is registered besides the initial
functions, this yields the dividend in every row in which it can be divided, and null in the others.
-/

namespace RowFilter

open Kernel

/-- `add(multiply(divide(x, y), y), mod(x, y))` -/
def Builder.recomposed (b : Builder) (x y : Expr) : Except Error Expr := do
  let quotient ← b.call (Registry.builtinName divide) [x, y] .int64
  let product ← b.call (Registry.builtinName multiply) [quotient, y] .int64
  let remainder ← b.call (Registry.builtinName mod) [x, y] .int64
  b.call (Registry.builtinName add) [product, remainder] .int64

/-- The calls that make it up yield the dividend, or null for null or a zero divisor. -/
theorem Kernel.exists_recomposed {v w : Value} (hv : v.HasType .int64) (hw : w.HasType .int64) :
    ∃ quotient product remainder, divide.call [v, w] = .ok quotient ∧
      multiply.call [quotient, w] = .ok product ∧ mod.call [v, w] = .ok remainder ∧
      add.call [product, remainder] =
        .ok (if v = .null ∨ w = .null ∨ w = .int64 0 then .null else v) := by
  by_cases hnull : v = .null ∨ w = .null
  · have hmem : .null ∈ [v, w] := List.mem_pair.mpr (hnull.imp Eq.symm Eq.symm)
    rw [if_pos (or_assoc.mp (Or.inl hnull))]
    exact ⟨.null, .null, .null, call_of_propagate rfl hmem, rfl, call_of_propagate rfl hmem, rfl⟩
  · rw [not_or] at hnull
    obtain ⟨-, a, rfl⟩ | ⟨h, -⟩ := hv.number rfl hnull.1
    · obtain ⟨-, b, rfl⟩ | ⟨h, -⟩ := hw.number rfl hnull.2
      · obtain ⟨hzero, hnonzero⟩ := apply_division a b
        by_cases hb : b = 0
        · obtain ⟨hdivide, hmod⟩ := hzero hb
          rw [if_pos (Or.inr (Or.inr (congrArg _ hb)))]
          exact ⟨.null, .null, .null, hdivide, rfl, hmod, rfl⟩
        · obtain ⟨q, r, p, hdivide, hmod, -, hmultiply, hadd⟩ := hnonzero hb
          rw [if_neg (by simpa using hb)]
          exact ⟨.int64 q, .int64 p, .int64 r, hdivide, hmultiply, hmod, hadd⟩
      · cases h
    · cases h

namespace Expr

/-- The calls that put the dividend `x` together again. -/
def recomposed (x y : Expr) : Expr :=
  let quotient := builtinCall divide [x, y] .int64
  let product := builtinCall multiply [quotient, y] .int64
  let remainder := builtinCall mod [x, y] .int64
  builtinCall add [product, remainder] .int64

variable {x y : Expr} {schema : Schema} {batch : Batch} {row : Nat} {v w : Value}

theorem typing_integers {k : Kernel} (hk : k ∈ [add, subtract, multiply, divide, mod])
    (hx : x.type = .int64) (hy : y.type = .int64) :
    Typing k ([x, y].map Expr.type) .int64 := by
  rw [List.map_cons, List.map_singleton, hx, hy]
  exact .arithmetic hk rfl

theorem recomposed_eq (signatures : List Signature) (hx : x.type = .int64)
    (hy : y.type = .int64) :
    (Builder.extended signatures).recomposed x y = .ok (x.recomposed y) := by
  have call : ∀ k ∈ [add, subtract, multiply, divide, mod], ∀ l r : Expr, l.type = .int64 →
      r.type = .int64 →
      (Builder.extended signatures).call (Registry.builtinName k) [l, r] .int64 =
        .ok (builtinCall k [l, r] .int64) := fun k hk l r hl hr =>
    Builder.call_builtin signatures (typing_integers hk hl hr)
  rw [Builder.recomposed, call divide (by simp) x y hx hy, ok_bind,
    call multiply (by simp) _ y rfl hy, ok_bind, call mod (by simp) x y hx hy, ok_bind,
    call add (by simp) _ _ rfl rfl]
  rfl

/-- They yield it in every row in which it can be divided. -/
theorem Yields.recomposed (hv : x.Yields schema batch row v) (hw : y.Yields schema batch row w)
    (typedx : x.WellTyped) (typedy : y.WellTyped) (hx : x.type = .int64) (hy : y.type = .int64)
    (htypev : v.HasType .int64) (htypew : w.HasType .int64) :
    (x.recomposed y).Yields schema batch row
      (if v = .null ∨ w = .null ∨ w = .int64 0 then .null else v) := by
  obtain ⟨q, p, r, hq, hp, hr, hs⟩ := exists_recomposed htypev htypew
  have hquotient : Typing divide ([x, y].map Expr.type) .int64 := typing_integers (by simp) hx hy
  have hremainder : Typing mod ([x, y].map Expr.type) .int64 := typing_integers (by simp) hx hy
  have hproduct : Typing multiply ([Expr.builtinCall divide [x, y] .int64, y].map Expr.type)
      .int64 := typing_integers (by simp) rfl hy
  have typedq := wellTyped_builtinCall hquotient (by simpa using ⟨typedx, typedy⟩)
  have typedp := wellTyped_builtinCall hproduct (by simpa using ⟨typedq, typedy⟩)
  have typedr := wellTyped_builtinCall hremainder (by simpa using ⟨typedx, typedy⟩)
  have yieldsq := hv.builtinCall hw typedx typedy hquotient hq
  have yieldsp := yieldsq.builtinCall hw typedq typedy hproduct hp
  have yieldsr := hv.builtinCall hw typedx typedy hremainder hr
  exact yieldsp.builtinCall yieldsr typedp typedr (typing_integers (by simp) rfl rfl) hs

end Expr

namespace Builder

/-- **Quotient and remainder agree**: the kernels yield null for a zero divisor, and otherwise a
quotient and a remainder that give back the dividend. Hence built expressions of integers, a
dividend and a divisor, can be put together again from quotient and remainder, and this yields the
dividend, or null in a row with a null or with a zero divisor. -/
theorem divides_extended (signatures : List Signature) :
    (∀ a b : Int64,
      (b = 0 → divide.apply [.int64 a, .int64 b] = .ok .null ∧
        mod.apply [.int64 a, .int64 b] = .ok .null) ∧
      (b ≠ 0 → ∃ q r p, divide.apply [.int64 a, .int64 b] = .ok (.int64 q) ∧
        mod.apply [.int64 a, .int64 b] = .ok (.int64 r) ∧ Divides a b q r ∧
        multiply.apply [.int64 q, .int64 b] = .ok (.int64 p) ∧
        add.apply [.int64 p, .int64 r] = .ok (.int64 a))) ∧
    ∀ x y : Expr, x.Built → y.Built → x.type = .int64 → y.type = .int64 →
      ∃ e, (extended signatures).recomposed x y = .ok e ∧
        ∀ (schema : Schema) (batch : Batch) (row : Nat), x.Binds schema batch →
          y.Binds schema batch → row < batch.rows →
          ∃ v w, x.Yields schema batch row v ∧ y.Yields schema batch row w ∧
            e.Yields schema batch row
              (if v = .null ∨ w = .null ∨ w = .int64 0 then .null else v) := by
  refine ⟨apply_division, fun x y hx hy htypex htypey => ⟨x.recomposed y, ?_, ?_⟩⟩
  · exact Expr.recomposed_eq signatures htypex htypey
  · intro schema batch row bindsx bindsy hrow
    obtain ⟨v, hv, htypev⟩ := bindsx.exists_yields hx.wellTyped hrow
    obtain ⟨w, hw, htypew⟩ := bindsy.exists_yields hy.wellTyped hrow
    exact ⟨v, w, hv, hw, hv.recomposed hw hx.wellTyped hy.wellTyped htypex htypey
      (htypex ▸ htypev) (htypey ▸ htypew)⟩

/-- The quotient that does not fit wraps around. The amount is 7 in row 4 and null in row 2. -/
theorem sample_divides :
    (∃ q r, divide.apply [.int64 .minValue, .int64 (-1)] = .ok (.int64 q) ∧
      Divides .minValue (-1) q r) ∧
    (∃ e, standard.recomposed (.field Sample.amount) (.literal (.int64 2) .int64) = .ok e ∧
      e.Yields Sample.schema Sample.batch 4 (.int64 7) ∧
      e.Yields Sample.schema Sample.batch 2 .null) ∧
    ∃ e, standard.recomposed (.field Sample.amount) (.literal (.int64 0) .int64) = .ok e ∧
      e.Yields Sample.schema Sample.batch 4 .null := by
  have hseven : (Expr.field Sample.amount).Yields Sample.schema Sample.batch 4 (.int64 7) :=
    Sample.yields_amount rfl
  have hnull : (Expr.field Sample.amount).Yields Sample.schema Sample.batch 2 .null :=
    Sample.yields_amount rfl
  have hconstant : ∀ row n, (Expr.literal (.int64 n) .int64).Yields Sample.schema Sample.batch row
      (.int64 n) := fun _ n => Expr.yields_literal (Sample.built_constant n)
  obtain ⟨hkernels, hexprs⟩ := divides_extended []
  obtain ⟨q, r, -, hdivide, -, hdivides, -⟩ := (hkernels .minValue (-1)).2 (by decide)
  obtain ⟨e, he, hvalues⟩ := hexprs _ _ Sample.built_amount (Sample.built_constant 2) rfl rfl
  obtain ⟨e', he', hvalues'⟩ := hexprs _ _ Sample.built_amount (Sample.built_constant 0) rfl rfl
  refine ⟨⟨q, r, hdivide, hdivides⟩, ⟨e, he, ?_, ?_⟩, e', he', ?_⟩
  · obtain ⟨v, w, hv, hw, h⟩ := hvalues _ _ 4 hseven.1 (hconstant 4 2).1 (by decide)
    obtain rfl := hv.unique hseven
    obtain rfl := hw.unique (hconstant 4 2)
    exact h
  · obtain ⟨v, w, hv, hw, h⟩ := hvalues _ _ 2 hnull.1 (hconstant 2 2).1 (by decide)
    obtain rfl := hv.unique hnull
    exact h
  · obtain ⟨v, w, hv, hw, h⟩ := hvalues' _ _ 4 hseven.1 (hconstant 4 0).1 (by decide)
    obtain rfl := hw.unique (hconstant 4 0)
    rw [if_pos (Or.inr (Or.inr rfl))] at h
    exact h

end Builder

end RowFilter
