import RowFilter.Filter
import RowFilter.Proofs.Selection.Rows

/-!
# The loop over the rows

`Filter.selectRows` looks at one row after another. What it needs of the selection is kept by every
step: the rows stored so far come before the next one and do not exceed the capacity
(`Selection.Before`). `selectRows_eq` says what a whole run does when every row can be decided: as
many matching rows are stored as there is room for, and the first one beyond is reported.
-/

namespace RowFilter

/-- The rows of a selection all come before the given one, and they fit into its slots. -/
structure Selection.Before (s : Selection) (row : Nat) : Prop where
  earlier : ∀ r ∈ s.rows, r < row
  room : s.rows.length ≤ s.capacity

namespace Selection.Before

theorem reset (s : Selection) : s.reset.Before 0 where
  earlier := by simp
  room := by simp

/-- A row is passed over. -/
theorem skip {s : Selection} {row : Nat} (h : s.Before row) : s.Before (row + 1) where
  earlier r hr := Nat.lt_succ_of_lt (h.earlier r hr)
  room := h.room

/-- A row is stored in a free slot. -/
theorem push {s : Selection} {row : Nat} (h : s.Before row) (hfits : row ≤ s.maxRow)
    (hfree : s.rows.length < s.capacity) : (s.push row).Before (row + 1) where
  earlier := by
    intro r hr
    rw [rows_push hfits] at hr
    rcases List.mem_append.mp hr with hold | hnew
    · exact Nat.lt_succ_of_lt (h.earlier r hold)
    · rw [List.mem_singleton.mp hnew]
      exact Nat.lt_succ_self row
  room := by
    rw [rows_push hfits, List.length_append, capacity_push]
    exact hfree

end Selection.Before

namespace Filter

variable {selects : Nat → Except Error Bool}

/-- A matching row for which there is no slot ends the run. -/
theorem selectRows_full {count row : Nat} {s : Selection} (hrow : selects row = .ok true)
    (h : s.Before row) (hfits : row ≤ s.maxRow) (hfull : s.rows.length = s.capacity) :
    selectRows selects (count + 1) row s = (.error (.noRoomForMatch row s.capacity), s) := by
  rw [selectRows, hrow]
  simp only [Selection.refusal?_of_lt hfits h.earlier, hfull, if_true]
  rfl

/-- A matching row goes into the next slot. -/
theorem selectRows_free {count row : Nat} {s : Selection} (hrow : selects row = .ok true)
    (h : s.Before row) (hfits : row ≤ s.maxRow) (hfree : s.rows.length ≠ s.capacity) :
    selectRows selects (count + 1) row s = selectRows selects count (row + 1) (s.push row) := by
  rw [selectRows, hrow]
  simp only [Selection.refusal?_of_lt hfits h.earlier, hfree, if_false]

theorem selectRows_skip {count row : Nat} {s : Selection} (hrow : selects row = .ok false) :
    selectRows selects (count + 1) row s = selectRows selects count (row + 1) s := by
  rw [selectRows, hrow]

/-- The run over rows that can all be decided: the matching rows go into the free slots, and the
first one that finds none is reported. -/
theorem selectRows_eq {p : Nat → Bool} : ∀ (count row : Nat) {s : Selection}, s.Before row →
    row + count ≤ s.maxRow + 1 →
    (∀ r, row ≤ r → r < row + count → selects r = .ok (p r)) →
    (selectRows selects count row s).1 =
        (((List.range' row count).filter p)[s.capacity - s.rows.length]?).elim (.ok ())
          (fun r => .error (.noRoomForMatch r s.capacity)) ∧
      (selectRows selects count row s).2.rows =
        s.rows ++ ((List.range' row count).filter p).take (s.capacity - s.rows.length) := by
  intro count
  -- on the rows that are left; `Before` is what each of the three steps keeps
  induction count with
  | zero =>
    intro row s _ _ _
    simp [selectRows]
  | succ count ih =>
    intro row s h hmax hsel
    have hrow : selects row = .ok (p row) := hsel row (Nat.le_refl row) (by omega)
    have hrest : ∀ r, row + 1 ≤ r → r < row + 1 + count → selects r = .ok (p r) :=
      fun r hr hr' => hsel r (by omega) (by omega)
    have hfits : row ≤ s.maxRow := by omega
    rw [List.range'_succ]
    cases hp : p row with
    | false =>
      rw [hp] at hrow
      rw [selectRows_skip hrow, List.filter_cons_of_neg (by simp [hp])]
      exact ih (row + 1) h.skip (by omega) hrest
    | true =>
      rw [hp] at hrow
      rw [List.filter_cons_of_pos hp]
      by_cases hfull : s.rows.length = s.capacity
      · rw [selectRows_full hrow h hfits hfull, hfull, Nat.sub_self]
        simp
      · -- the rest of the run has one slot less
        have hfree : s.rows.length < s.capacity := Nat.lt_of_le_of_ne h.room hfull
        obtain ⟨hresult, hrows⟩ := ih (row + 1) (h.push hfits hfree)
          (by rw [Selection.maxRow_push]; omega) hrest
        have hroom : s.capacity - s.rows.length = s.capacity - (s.rows.length + 1) + 1 := by omega
        rw [Selection.rows_push hfits, List.length_append, List.length_singleton,
          Selection.capacity_push] at hresult hrows
        rw [selectRows_free hrow h hfits hfull, hroom]
        refine ⟨hresult, ?_⟩
        rw [hrows, List.take_succ_cons, List.append_assoc]
        rfl

/-- A run that ends without an error has decided every row. -/
theorem exists_ok_of_selectRows : ∀ (count row : Nat) {s : Selection},
    (selectRows selects count row s).1 = .ok () →
    ∀ r, row ≤ r → r < row + count → ∃ b, selects r = .ok b := by
  intro count
  induction count with
  | zero => intro row s _ r hr hr'; omega
  | succ count ih =>
    intro row s h r hr hr'
    rw [selectRows] at h
    cases hrow : selects row with
    | error e =>
      rw [hrow] at h
      cases h
    | ok b =>
      rcases Nat.eq_or_lt_of_le hr with rfl | hlt
      · exact ⟨b, hrow⟩
      · rw [hrow] at h
        cases b with
        | false => exact ih (row + 1) h r hlt (by omega)
        | true =>
          cases hrefused : s.refusal? row with
          | none =>
            simp only [hrefused] at h
            exact ih (row + 1) h r hlt (by omega)
          | some e =>
            simp only [hrefused] at h
            cases h

end Filter

end RowFilter
