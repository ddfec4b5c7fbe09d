import RowFilter.Condition
import RowFilter.Kernel.Apply
import RowFilter.Proofs.Schema.Lookup

/-!
# What an expression denotes

`Expr.denote` gives expressions their meaning in a row of a batch without binding: a field is the
cell of the column of its name, and a call is null if its kernel propagates nulls and an operand is
null, and what the kernel yields otherwise. `Condition.matching` lists the rows in which a condition
denotes true; it is what a filter is to select.
-/

namespace RowFilter

namespace Expr

mutual

/-- The value of an expression in a row of a batch. There is none without the column or the row of
a field, or if a kernel is given operands that it does not take. -/
def denote (b : Batch) (row : Nat) : Expr → Option Value
  | .field f => (b.columnNamed? f.name).bind (·.get? row)
  | .literal v _ => some v
  | .call signature args =>
    (denoteList b row args).bind fun operands =>
      if signature.nullHandling = .propagate ∧ .null ∈ operands then some .null
      else (signature.kernel.apply operands).toOption

/-- The values of several expressions, if each has one. -/
def denoteList (b : Batch) (row : Nat) : List Expr → Option (List Value)
  | [] => some []
  | e :: es => (denote b row e).bind fun v => (denoteList b row es).map (v :: ·)

end

end Expr

namespace Condition

/-- The rows in which a condition denotes true, in ascending order. -/
def matching (c : Condition) (b : Batch) : List Nat :=
  (List.range b.rows).filter fun row => c.root.denote b row = some (.bool true)

theorem mem_matching_iff {c : Condition} {b : Batch} {row : Nat} :
    row ∈ c.matching b ↔ row < b.rows ∧ c.root.denote b row = some (.bool true) := by
  rw [matching, List.mem_filter, List.mem_range, decide_eq_true_iff]

/-- A condition is true, false or null in a row. -/
def Decided (c : Condition) (b : Batch) (row : Nat) : Prop :=
  ∃ v, c.root.denote b row = some v ∧ (v = .null ∨ ∃ t, v = .bool t)

/-- Rows that are left out are not undecided, they are false or null. -/
theorem Decided.false_or_null {c : Condition} {b : Batch} {row : Nat} (h : c.Decided b row)
    (hrow : row < b.rows) (hout : row ∉ c.matching b) :
    c.root.denote b row = some (.bool false) ∨ c.root.denote b row = some .null := by
  obtain ⟨v, hv, rfl | ⟨t, rfl⟩⟩ := h
  · exact Or.inr hv
  · cases t with
    | false => exact Or.inl hv
    | true => exact absurd (mem_matching_iff.mpr ⟨hrow, hv⟩) hout

end Condition

/-- A call of a kernel, seen from its operands. -/
theorem Kernel.toOption_call (k : Kernel) (operands : List Value) :
    (k.call operands).toOption =
      if k.nullHandling = .propagate ∧ .null ∈ operands then some .null
      else (k.apply operands).toOption := by
  have hnull : operands.any Value.isNull = true ↔ .null ∈ operands := by
    rw [List.any_eq_true]
    constructor
    · intro ⟨v, hv, hisNull⟩
      cases v with
      | null => exact hv
      | bool b => cases hisNull
      | int64 n => cases hisNull
      | float64 x => cases hisNull
    · intro h
      exact ⟨.null, h, rfl⟩
  rw [call]
  by_cases h : k.nullHandling = .propagate ∧ .null ∈ operands
  · rw [if_pos h, if_pos ⟨h.1, hnull.mpr h.2⟩]
    rfl
  · rw [if_neg h, if_neg fun h' => h ⟨h'.1, hnull.mp h'.2⟩]

/-- The cell of a field in a row, looked up by the name of the field. -/
def Batch.cell? (b : Batch) (f : Field) (row : Nat) : Option Value :=
  (b.columnNamed? f.name).bind (·.get? row)

theorem Batch.cell?_congr {b : Batch} {f g : Field} {row : Nat} (h : f.name = g.name) :
    b.cell? f row = b.cell? g row := by
  rw [cell?, cell?, h]

theorem Expr.denote_field (b : Batch) (row : Nat) (f : Field) :
    (Expr.field f).denote b row = b.cell? f row := by
  rw [denote]
  rfl

/-- A call denotes what its kernel makes of the operands. -/
theorem Expr.denote_call (b : Batch) (row : Nat) (signature : Signature) (args : List Expr) :
    (Expr.call signature args).denote b row =
      (denoteList b row args).bind fun operands => (signature.kernel.call operands).toOption := by
  rw [denote]
  congr 1
  funext operands
  exact (signature.kernel.toOption_call operands).symm

/-- A call of one operand. -/
theorem Expr.denote_call_one {b : Batch} {row : Nat} (signature : Signature) {a : Expr} {v : Value}
    (h : a.denote b row = some v) :
    (Expr.call signature [a]).denote b row = (signature.kernel.call [v]).toOption := by
  rw [denote_call, denoteList, h]
  rfl

/-- A call of two operands. -/
theorem Expr.denote_call_two {b : Batch} {row : Nat} (signature : Signature) {a c : Expr}
    {v w : Value} (ha : a.denote b row = some v) (hc : c.denote b row = some w) :
    (Expr.call signature [a, c]).denote b row = (signature.kernel.call [v, w]).toOption := by
  rw [denote_call, denoteList, denoteList, ha, hc]
  rfl

end RowFilter
