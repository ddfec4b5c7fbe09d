import RowFilter.Registry
import RowFilter.Proofs.Filter.Evaluation

/-!
# Filtering is exact

Main result: `rows_of_evaluate_ok`. If evaluating a filter ends without an error, the selection
holds the rows in which the condition denotes true by name, all of them, in ascending order, and
nothing of what it held before.
-/

namespace RowFilter

namespace Filter

/-- **Filtering is exact**: a successful evaluation leaves the matching rows in the selection,
ascending, and returns their count. The rows left out are those in which the condition denotes false
or null. The right-hand sides do not mention the selection, so neither what it held nor its width
nor its capacity has a part in the result. -/
theorem rows_of_evaluate_ok {schema : Schema} {c : Condition} {f : Filter} {batch : Batch}
    {s s' : Selection} {n : Nat} (made : make schema c = .ok f)
    (done : f.evaluate batch s = (.ok n, s')) :
    s'.rows = c.matching batch ∧ n = (c.matching batch).length ∧ s'.length = n ∧
      ∀ row < batch.rows, row ∉ c.matching batch →
        c.root.denote batch row = some (.bool false) ∨ c.root.denote batch row = some .null := by
  obtain ⟨hfault, rfl⟩ := make_eq_ok_iff.mp made
  obtain ⟨hall, hfits, hdecided⟩ := decided_of_evaluate_ok hfault done
  obtain ⟨hresult, hrows⟩ := evaluate_bound hfault hall hfits hdecided
  rw [done] at hresult hrows
  -- a match without a slot would have been reported, so there is a slot for each
  cases hroom : (c.matching batch)[s.capacity]? with
  | some row =>
    rw [hroom] at hresult
    cases hresult
  | none =>
    rw [hroom] at hresult
    cases hresult
    have hexact : s'.rows = c.matching batch := by
      rw [hrows]
      exact List.take_of_length_le (List.getElem?_eq_none_iff.mp hroom)
    refine ⟨hexact, rfl, ?_, fun row hrow => (hdecided row hrow).false_or_null hrow⟩
    rw [← Selection.length_rows, hexact]

end Filter

/-! ## An example -/

namespace Sample

def amount : Field := ⟨"amount", .int64, true⟩

def active : Field := ⟨"active", .bool, true⟩

def schema : Schema := ⟨[amount, active], by decide, by decide⟩

/-- `less_than(amount, 3)` -/
def small : Expr :=
  .call (Registry.builtinSignature .lessThan [.int64, .int64] .bool)
    [.field amount, .literal (.int64 3) .int64]

/-- `isnull(amount)` -/
def absent : Expr := .call (Registry.builtinSignature .isNull [.int64] .bool) [.field amount]

/-- `and(less_than(amount, 3), active)` -/
def both : Expr :=
  .call (Registry.builtinSignature .and [.bool, .bool] .bool) [small, .field active]

/-- `or(and(less_than(amount, 3), active), isnull(amount))` -/
def condition : Condition where
  root := .call (Registry.builtinSignature .or [.bool, .bool] .bool) [both, absent]
  isBool := rfl

/-- The filter for the schema. -/
def filter : Filter := Filter.bound schema condition

/-- The columns come in another order and with one that is not read. The condition is true in the
rows 0 and 2, null in row 3 and false in the others. -/
def batch : Batch where
  schema := ⟨[active, ⟨"note", .bool, true⟩, amount], by decide, by decide⟩
  rows := 5
  columns := [.bool #[some true, some false, some true, none, some true],
    .bool #[none, none, none, none, none], .int64 #[some 1, some 2, none, some 1, some 7]]
  consistent := Batch.firstFault_eq_none_iff.mp (by decide)

/-- A selection that was used before. -/
def selection : Selection := ⟨.uint16 #[7, 9], 4⟩

theorem declares_amount : schema.Declares amount ∧ batch.schema.Declares amount :=
  ⟨⟨amount, rfl, rfl⟩, amount, rfl, rfl⟩

end Sample

namespace Filter

/-- The sample selects the rows 0 and 2, and nothing of what the selection held is left. -/
theorem sample_rows :
    Sample.filter.evaluate Sample.batch Sample.selection = (.ok 2, ⟨.uint16 #[0, 2], 4⟩) ∧
      Sample.condition.matching Sample.batch = [0, 2] ∧
      ∀ row < 5, row ∉ Sample.condition.matching Sample.batch →
        Sample.condition.root.denote Sample.batch row = some (.bool false) ∨
          Sample.condition.root.denote Sample.batch row = some .null := by
  have made : make Sample.schema Sample.condition = .ok Sample.filter := rfl
  have done : Sample.filter.evaluate Sample.batch Sample.selection =
      (.ok 2, ⟨.uint16 #[0, 2], 4⟩) := rfl
  obtain ⟨hrows, -, -, hout⟩ := rows_of_evaluate_ok made done
  exact ⟨done, hrows.symm, hout⟩

end Filter

end RowFilter
