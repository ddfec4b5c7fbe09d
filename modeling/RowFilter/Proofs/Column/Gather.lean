import Mathlib.Data.List.GetD
import RowFilter.Proofs.Column.Values
import RowFilter.Proofs.View.Bounds

/-!
# The rows of a column

`Column.gather` is the column of given rows of a column. It is what gathering from the array of the
column yields (`take_toArray`), its values are those of the rows (`values_gather`), and gathering
from what was gathered is gathering once (`gather_gather`).
-/

namespace RowFilter

/-! ## Rows at positions -/

/-- The rows at the given positions of a list. -/
def rowsAt (rows positions : List Nat) : List Nat := positions.map fun p => rows.getD p 0

section RowsAt

variable {rows positions : List Nat}

theorem getElem?_rowsAt (h : ∀ p ∈ positions, p < rows.length) (i : Nat) :
    (rowsAt rows positions)[i]? = positions[i]?.bind (rows[·]?) := by
  rw [rowsAt, List.getElem?_map]
  cases hp : positions[i]? with
  | none => rfl
  | some p =>
    have hlt : p < rows.length := h p (List.mem_of_getElem? hp)
    rw [Option.map_some, Option.bind_some, List.getD_eq_getElem _ _ hlt,
      List.getElem?_eq_getElem hlt]

/-- Every row at a position is one of the rows. -/
theorem mem_of_mem_rowsAt (h : ∀ p ∈ positions, p < rows.length) {row : Nat}
    (hrow : row ∈ rowsAt rows positions) : row ∈ rows := by
  obtain ⟨i, hi⟩ := List.getElem?_of_mem hrow
  rw [getElem?_rowsAt h, Option.bind_eq_some_iff] at hi
  obtain ⟨p, -, hp⟩ := hi
  exact List.mem_of_getElem? hp

/-- Where both the rows and the positions ascend, so do the rows at the positions. -/
theorem pairwise_rowsAt (h : ∀ p ∈ positions, p < rows.length) (hrows : rows.Pairwise (· < ·))
    (hpositions : positions.Pairwise (· < ·)) : (rowsAt rows positions).Pairwise (· < ·) := by
  rw [rowsAt, List.pairwise_map]
  refine hpositions.imp_of_mem fun {p q} hp hq hless => ?_
  have hplt : p < rows.length := h p hp
  have hqlt : q < rows.length := h q hq
  rw [List.getD_eq_getElem _ _ hplt, List.getD_eq_getElem _ _ hqlt]
  exact List.pairwise_iff_getElem.mp hrows p q hplt hqlt hless

end RowsAt

/-! ## Gathered cells -/

namespace Interchange.ArrayData

variable {α : Type} {cells : Array (Option α)} {rows : List Nat}

theorem size_gatherCells : (gatherCells cells rows).size = rows.length := by
  rw [gatherCells, List.size_toArray, List.length_map]

/-- What is gathered are the cells of the rows. -/
theorem getElem?_gatherCells (h : ∀ row ∈ rows, row < cells.size) (i : Nat) :
    (gatherCells cells rows)[i]? = rows[i]?.bind (cells[·]?) := by
  rw [gatherCells, List.getElem?_toArray, List.getElem?_map]
  cases hrow : rows[i]? with
  | none => rfl
  | some row =>
    have hlt := h row (List.mem_of_getElem? hrow)
    simp [hlt]

/-- Where there is no null there is none to be gathered. -/
theorem countP_gatherCells (h : ∀ row ∈ rows, row < cells.size)
    (hnulls : cells.countP Option.isNone = 0) :
    (gatherCells cells rows).countP Option.isNone = 0 := by
  rw [Array.countP_eq_zero] at hnulls ⊢
  intro cell hcell
  obtain ⟨i, hi⟩ := Array.mem_iff_getElem?.mp hcell
  rw [getElem?_gatherCells h, Option.bind_eq_some_iff] at hi
  obtain ⟨row, -, hrow⟩ := hi
  exact hnulls cell (Array.mem_of_getElem? hrow)

end Interchange.ArrayData

/-! ## Gathered columns -/

namespace Column

open Interchange.ArrayData

/-- The column of the given rows, in the order given. -/
def gather (c : Column) (rows : List Nat) : Column :=
  match c with
  | bool cells => bool (gatherCells cells rows)
  | int64 cells => int64 (gatherCells cells rows)
  | float64 cells => float64 (gatherCells cells rows)

section Gather

variable {c : Column} {rows : List Nat}

@[simp] theorem type_gather : (c.gather rows).type = c.type := by
  cases c with
  | bool cells => rfl
  | int64 cells => rfl
  | float64 cells => rfl

@[simp] theorem length_gather : (c.gather rows).length = rows.length := by
  cases c with
  | bool cells => exact size_gatherCells
  | int64 cells => exact size_gatherCells
  | float64 cells => exact size_gatherCells

theorem get?_gather (h : ∀ row ∈ rows, row < c.length) (i : Nat) :
    (c.gather rows).get? i = rows[i]?.bind c.get? := by
  cases c with
  | bool cells =>
    rw [gather, get?, getElem?_gatherCells h, Option.map_bind]
    rfl
  | int64 cells =>
    rw [gather, get?, getElem?_gatherCells h, Option.map_bind]
    rfl
  | float64 cells =>
    rw [gather, get?, getElem?_gatherCells h, Option.map_bind]
    rfl

theorem nullCount_gather (h : ∀ row ∈ rows, row < c.length) (hnulls : c.nullCount = 0) :
    (c.gather rows).nullCount = 0 := by
  cases c with
  | bool cells => exact countP_gatherCells h hnulls
  | int64 cells => exact countP_gatherCells h hnulls
  | float64 cells => exact countP_gatherCells h hnulls

/-- Gathering from the array of a column yields the array of what is gathered from the column. -/
theorem toArray_gather : c.toArray.gather rows = (c.gather rows).toArray := by
  cases c with
  | bool cells => rfl
  | int64 cells => rfl
  | float64 cells => rfl

theorem length_toArray : c.toArray.length = c.length := by
  cases c with
  | bool cells => rfl
  | int64 cells => rfl
  | float64 cells => rfl

/-- Taking the selected rows of a column's array, all of which are there, yields the array of what
is gathered from the column. -/
theorem take_toArray {s : Selection} (h : ∀ row ∈ s.rows, row < c.length) :
    c.toArray.take s = .ok (c.gather s.rows).toArray := by
  rw [Interchange.ArrayData.take, Selection.checkBounds_eq_ok_iff.mpr (length_toArray ▸ h), ok_bind,
    toArray_gather]
  rfl

/-- Gathering all rows changes nothing. -/
theorem gather_range (c : Column) : c.gather (List.range c.length) = c := by
  refine eq_of_get? type_gather fun i => ?_
  rw [get?_gather fun row hrow => List.mem_range.mp hrow]
  by_cases hi : i < c.length
  · rw [List.getElem?_range hi, Option.bind_some]
  · have hle : c.length ≤ i := Nat.le_of_not_lt hi
    rw [get?_eq_none hle, List.getElem?_eq_none (by rwa [List.length_range]), Option.bind_none]

/-- Gathering from what was gathered is gathering the rows at the positions. -/
theorem gather_gather (h : ∀ row ∈ rows, row < c.length) {positions : List Nat}
    (hpositions : ∀ p ∈ positions, p < rows.length) :
    (c.gather rows).gather positions = c.gather (rowsAt rows positions) := by
  have hin : ∀ p ∈ positions, p < (c.gather rows).length := length_gather ▸ hpositions
  have hat : ∀ row ∈ rowsAt rows positions, row < c.length := fun row hrow =>
    h row (mem_of_mem_rowsAt hpositions hrow)
  refine eq_of_get? ?_ fun i => ?_
  · rw [type_gather, type_gather, type_gather]
  · rw [get?_gather hin, get?_gather hat, getElem?_rowsAt hpositions, Option.bind_assoc]
    congr 1
    funext p
    exact get?_gather h p

/-- The values of what was gathered are those of the rows. -/
theorem values_gather (h : ∀ row ∈ rows, row < c.length) :
    (c.gather rows).values.map .ok = rows.map c.get := by
  refine List.ext_getElem? fun i => ?_
  rw [List.getElem?_map, List.getElem?_map, getElem?_values, get?_gather h]
  cases hrow : rows[i]? with
  | none => rfl
  | some row =>
    obtain ⟨v, hv⟩ := get?_eq_some (h row (List.mem_of_getElem? hrow))
    rw [Option.bind_some, hv, Option.map_some, Option.map_some, get_eq_ok_iff.mpr hv]

end Gather

end Column

end RowFilter
