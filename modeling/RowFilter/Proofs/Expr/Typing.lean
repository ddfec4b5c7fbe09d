import RowFilter.Proofs.Expr.Balanced
import RowFilter.Proofs.Expr.Denotation
import RowFilter.Proofs.Expr.Fields
import RowFilter.Proofs.Kernel.Typing
import RowFilter.Proofs.Registry.Reachable

/-!
# Expressions that are built are well typed

`Expr.Built` holds of the expressions that builders can make, over any registries there can be.
`Expr.WellTyped` is the rule that they obey: literals have their declared type, and every call has
operands of its signature's types and a kernel that can run with them (`Built.wellTyped`). Main
result: `WellTyped.exists_denote`. In every row of a batch that declares its fields, a well-typed
expression denotes a value of its type, or null.
-/

namespace RowFilter

/-- A call is made of the signature that its name and operands are resolved to. -/
theorem Builder.call_of_resolve {b : Builder} {name : String} {args : List Expr} {ret : DataType}
    {signature : Signature}
    (hresolve : b.registry.resolve name (args.map Expr.type) = .ok signature)
    (hret : signature.ret = ret) : b.call name args ret = .ok (.call signature args) := by
  rw [call, hresolve, ok_bind, if_pos hret]
  rfl

namespace Expr

/-- The expressions that any sequence of calls of builders makes. Operands may come from builders
with other registries. -/
inductive Built : Expr → Prop
  | field (f : Field) : Built (Builder.field f)
  | literal {v : Value} {e : Expr} (made : Builder.literal v = .ok e) : Built e
  | nullLiteral {type : DataType} {e : Expr} (made : Builder.nullLiteral type = .ok e) : Built e
  | call {b : Builder} {name : String} {args : List Expr} {ret : DataType} {e : Expr}
      (registry : b.registry.Reachable) (built : ∀ a ∈ args, Built a)
      (made : b.call name args ret = .ok e) : Built e
  | conjunction {b : Builder} {operands : List Expr} {e : Expr} (registry : b.registry.Reachable)
      (built : ∀ a ∈ operands, Built a) (made : b.conjunction operands = .ok e) : Built e
  | disjunction {b : Builder} {operands : List Expr} {e : Expr} (registry : b.registry.Reachable)
      (built : ∀ a ∈ operands, Built a) (made : b.disjunction operands = .ok e) : Built e

theorem Built.call_two (b : Builder) (name : String) (ret : DataType) {l r e : Expr}
    (registry : b.registry.Reachable) (hl : l.Built) (hr : r.Built)
    (made : b.call name [l, r] ret = .ok e) : e.Built := by
  refine .call registry (fun a ha => ?_) made
  obtain h | h := List.mem_pair.mp ha
  · exact h ▸ hl
  · exact h ▸ hr

/-- Literals have a column type, which is that of their value unless it is null, and the operands
of calls have the types of a signature that the kernel can run with. -/
inductive WellTyped : Expr → Prop
  | field (f : Field) : WellTyped (.field f)
  | literal {v : Value} {type : DataType} (hv : v.HasType type) (ht : type.isColumnType = true) :
      WellTyped (.literal v type)
  | call {signature : Signature} {args : List Expr} (fits : signature.fits = true)
      (types : args.map type = signature.args) (operands : ∀ a ∈ args, WellTyped a) :
      WellTyped (.call signature args)

theorem wellTyped_of_literal {v : Value} {e : Expr} (h : Builder.literal v = .ok e) :
    e.WellTyped := by
  rw [Builder.literal] at h
  cases v with
  | null => cases h
  | bool b => cases h; exact .literal (Value.hasType_type _) rfl
  | int64 n => cases h; exact .literal (Value.hasType_type _) rfl
  | float64 x => cases h; exact .literal (Value.hasType_type _) rfl

theorem wellTyped_of_nullLiteral {type : DataType} {e : Expr}
    (h : Builder.nullLiteral type = .ok e) : e.WellTyped := by
  rw [Builder.nullLiteral] at h
  split at h
  next ht =>
    cases h
    exact .literal (Value.hasType_null type) ht
  next => cases h

/-- A call is made when a registered signature has the types of the operands and the result. -/
theorem exists_of_call {b : Builder} {name : String} {args : List Expr} {ret : DataType} {e : Expr}
    (h : b.call name args ret = .ok e) :
    ∃ signature, b.registry.resolve name (args.map type) = .ok signature ∧ signature.ret = ret ∧
      e = .call signature args := by
  rw [Builder.call] at h
  obtain ⟨signature, hresolve, h⟩ := bind_eq_ok_iff.mp h
  by_cases hret : signature.ret = ret
  · simp only [hret, if_true] at h
    cases h
    exact ⟨signature, hresolve, hret, rfl⟩
  · simp only [hret, if_false] at h
    cases h

/-- Its type is the one that was asked for. -/
theorem type_of_call {b : Builder} {name : String} {args : List Expr} {ret : DataType} {e : Expr}
    (h : b.call name args ret = .ok e) : e.type = ret := by
  obtain ⟨signature, -, hret, rfl⟩ := exists_of_call h
  exact hret

theorem wellTyped_of_call {b : Builder} {name : String} {args : List Expr} {ret : DataType}
    {e : Expr} (registry : b.registry.Reachable) (hargs : ∀ a ∈ args, a.WellTyped)
    (h : b.call name args ret = .ok e) : e.WellTyped := by
  obtain ⟨signature, hresolve, -, rfl⟩ := exists_of_call h
  obtain ⟨hmem, -, htypes⟩ := Registry.mem_of_resolve hresolve
  exact .call (registry.fits signature hmem) htypes.symm hargs

theorem wellTyped_of_balanced {b : Builder} {name : String} {operands : List Expr} {e : Expr}
    (registry : b.registry.Reachable) (hall : ∀ a ∈ operands, a.WellTyped)
    (h : b.balanced name operands = .ok e) : e.WellTyped := by
  refine (Builder.joined_of_balanced h).2.induct (fun l r e hl hr hcall => ?_) hall
  refine wellTyped_of_call registry ?_ hcall
  intro a ha
  rcases List.mem_pair.mp ha with rfl | rfl
  · exact hl
  · exact hr

theorem Built.wellTyped {e : Expr} (h : e.Built) : e.WellTyped := by
  induction h with
  | field f => exact .field f
  | literal made => exact wellTyped_of_literal made
  | nullLiteral made => exact wellTyped_of_nullLiteral made
  | call registry built made ih => exact wellTyped_of_call registry ih made
  | conjunction registry built made ih => exact wellTyped_of_balanced registry ih made
  | disjunction registry built made ih => exact wellTyped_of_balanced registry ih made

end Expr

/-! ## Values -/

namespace Column

/-- A cell within the bounds is null or of the type of its tag. -/
theorem exists_cell {α : Type} {tag : α → Value} {t : DataType} {cells : Array (Option α)}
    {row : Nat} (htag : ∀ a, (tag a).type = t) (h : row < cells.size) :
    ∃ v, cells[row]?.map (cellValue tag) = some v ∧ v.HasType t := by
  rw [Array.getElem?_eq_getElem h]
  refine ⟨cellValue tag cells[row], rfl, ?_⟩
  cases cells[row] with
  | none => exact Or.inl rfl
  | some a => exact Or.inr (htag a)

/-- Every row of a column has a value, of the type of the column. -/
theorem exists_get? {c : Column} {row : Nat} (h : row < c.length) :
    ∃ v, c.get? row = some v ∧ v.HasType c.type := by
  cases c with
  | bool cells => exact exists_cell (fun _ => rfl) h
  | int64 cells => exact exists_cell (fun _ => rfl) h
  | float64 cells => exact exists_cell (fun _ => rfl) h

end Column

/-- A declared field has a cell in every row, of its type. -/
theorem Batch.exists_cell? {b : Batch} {f : Field} {row : Nat} (h : b.schema.Declares f)
    (hrow : row < b.rows) : ∃ v, b.cell? f row = some v ∧ v.HasType f.type := by
  obtain ⟨hcolumn, htype, hlength⟩ := columnOf_of_declares h
  rw [cell?, hcolumn, ← htype]
  exact Column.exists_get? (hlength ▸ hrow)

namespace Expr

theorem mem_leavesList {a : Expr} {args : List Expr} {f : Field} (ha : a ∈ args)
    (hf : f ∈ a.leaves) : f ∈ leavesList args := by
  induction args with
  | nil => cases ha
  | cons e es ih =>
    rw [leavesList, List.mem_append]
    rcases List.mem_cons.mp ha with rfl | hrest
    · exact Or.inl hf
    · exact Or.inr (ih hrest)

variable {b : Batch} {row : Nat}

/-- Operands that all denote values of their types. -/
theorem exists_denoteList {args : List Expr}
    (h : ∀ a ∈ args, ∃ v, a.denote b row = some v ∧ v.HasType a.type) :
    ∃ vs, denoteList b row args = some vs ∧ List.Forall₂ Value.HasType vs (args.map type) := by
  induction args with
  | nil => exact ⟨[], rfl, .nil⟩
  | cons e es ih =>
    obtain ⟨v, hv, htype⟩ := h e (List.mem_cons_self ..)
    obtain ⟨vs, hvs, htypes⟩ := ih fun a ha => h a (List.mem_cons_of_mem _ ha)
    refine ⟨v :: vs, ?_, .cons htype htypes⟩
    rw [denoteList, hv, hvs]
    rfl

/-- **Well-typed expressions denote values of their types**, in every row of a batch that declares
their fields. -/
theorem WellTyped.exists_denote {e : Expr} (h : e.WellTyped) (hrow : row < b.rows)
    (hall : ∀ f ∈ e.leaves, b.schema.Declares f) :
    ∃ v, e.denote b row = some v ∧ v.HasType e.type := by
  induction h with
  | field f =>
    rw [denote_field, type]
    exact Batch.exists_cell? (hall f (List.mem_singleton_self f)) hrow
  | @literal v t hv ht => exact ⟨v, rfl, hv⟩
  | @call signature args fits types operands ih =>
    obtain ⟨vs, hvs, htypes⟩ := exists_denoteList fun a ha => ih a ha fun f hf =>
      hall f (mem_leavesList ha hf)
    -- the operands have the types of the signature, and its kernel accepts those
    rw [types] at htypes
    obtain ⟨v, hv, htype⟩ := Kernel.call_of_typing (Kernel.typing_of_accepts fits) htypes
    refine ⟨v, ?_, htype⟩
    rw [denote_call, hvs, Option.bind_some, hv]
    rfl

end Expr

end RowFilter
