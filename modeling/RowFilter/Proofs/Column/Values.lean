import RowFilter.Column
import RowFilter.Proofs.Fault

/-!
# A column as the list of its values

`Column.values` lists what `Column.get` yields row by row (`getElem?_values`, `map_get_filter`), and
a column is known by its type and the values of its rows (`eq_of_get?`).
-/

namespace RowFilter

namespace Column

/-- A column yields its cell, or an error beyond its end. -/
theorem toOption_get (c : Column) (row : Nat) : (c.get row).toOption = c.get? row := by
  rw [get]
  cases c.get? row with
  | none => rfl
  | some v => rfl

theorem get_eq_ok_iff {c : Column} {row : Nat} {v : Value} :
    c.get row = .ok v ↔ c.get? row = some v := by
  rw [← toOption_eq_some_iff, toOption_get]

@[simp] theorem length_values (c : Column) : c.values.length = c.length := by
  cases c with
  | bool cells => simp [values, length]
  | int64 cells => simp [values, length]
  | float64 cells => simp [values, length]

theorem getElem?_values (c : Column) (row : Nat) : c.values[row]? = c.get? row := by
  cases c with
  | bool cells => simp [values, get?]
  | int64 cells => simp [values, get?]
  | float64 cells => simp [values, get?]

/-- There is a value in every row up to the end. -/
theorem get?_eq_some {c : Column} {row : Nat} (h : row < c.length) : ∃ v, c.get? row = some v := by
  rw [← length_values] at h
  exact ⟨c.values[row], by rw [← getElem?_values, List.getElem?_eq_getElem h]⟩

theorem get?_eq_none {c : Column} {row : Nat} (h : c.length ≤ row) : c.get? row = none := by
  rw [← getElem?_values, List.getElem?_eq_none_iff, length_values]
  exact h

/-- Reading some of the rows, one after another, yields the values without those in other rows. -/
theorem map_get_filter (c : Column) (p : Nat → Bool) :
    ((List.range c.length).filter p).map c.get =
      (c.values.zipIdx.filter fun a => p a.2).map fun a => .ok a.1 := by
  have hrange : List.range c.length = c.values.zipIdx.map Prod.snd := by
    rw [List.zipIdx_map_snd, length_values, List.range_eq_range']
  rw [hrange, List.filter_map, List.map_map]
  refine List.map_congr_left fun a ha => ?_
  obtain ⟨ha, -⟩ := List.mem_filter.mp ha
  rw [List.mk_mem_zipIdx_iff_getElem?, getElem?_values] at ha
  exact get_eq_ok_iff.mpr ha

/-- A cell is known by its value, because no tag makes a null. -/
theorem cellValue_inj {α : Type} {tag : α → Value} (htag : ∀ a b, tag a = tag b → a = b)
    (hnull : ∀ a, tag a ≠ .null) {x y : Option α} (h : cellValue tag x = cellValue tag y) :
    x = y := by
  cases x with
  | none =>
    cases y with
    | none => rfl
    | some b => exact absurd h.symm (hnull b)
  | some a =>
    cases y with
    | none => exact absurd h (hnull a)
    | some b => rw [htag a b h]

/-- Cells with the same values in all rows are the same. -/
theorem cells_eq {α : Type} {tag : α → Value} (htag : ∀ a b, tag a = tag b → a = b)
    (hnull : ∀ a, tag a ≠ .null) {cells cells' : Array (Option α)}
    (h : ∀ row : Nat, cells[row]?.map (cellValue tag) = cells'[row]?.map (cellValue tag)) :
    cells = cells' :=
  Array.ext_getElem? fun row =>
    Option.map_injective (fun _ _ => cellValue_inj htag hnull) (h row)

/-- What holds of two columns of one type is to be shown for each type. -/
theorem cases_of_type_eq {motive : Column → Column → Prop} {c d : Column} (h : c.type = d.type)
    (ofBool : ∀ cells more, motive (.bool cells) (.bool more))
    (ofInt64 : ∀ cells more, motive (.int64 cells) (.int64 more))
    (ofFloat64 : ∀ cells more, motive (.float64 cells) (.float64 more)) : motive c d := by
  cases c with
  | bool cells =>
    cases d with
    | bool more => exact ofBool cells more
    | int64 more => cases h
    | float64 more => cases h
  | int64 cells =>
    cases d with
    | int64 more => exact ofInt64 cells more
    | bool more => cases h
    | float64 more => cases h
  | float64 cells =>
    cases d with
    | float64 more => exact ofFloat64 cells more
    | bool more => cases h
    | int64 more => cases h

/-- A column is known by its type and its values. -/
theorem eq_of_get? {c d : Column} (htype : c.type = d.type) :
    (∀ row, c.get? row = d.get? row) → c = d := by
  refine cases_of_type_eq (motive := fun c d => (∀ row, c.get? row = d.get? row) → c = d) htype
    (fun cells more h => ?_) (fun cells more h => ?_) fun cells more h => ?_
  · rw [cells_eq (fun _ _ => Value.bool.inj) nofun h]
  · rw [cells_eq (fun _ _ => Value.int64.inj) nofun h]
  · rw [cells_eq (fun _ _ => Value.float64.inj) nofun h]

end Column

end RowFilter
