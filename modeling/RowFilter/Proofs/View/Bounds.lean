import RowFilter.View
import RowFilter.Proofs.Fault
import RowFilter.Proofs.Selection.Rows

/-!
# Views within the bounds of their sources

A view is made when all rows of its selection are in the source, which the check of the selection
decides (`View.exists_make_iff`). If it is not, the refusal names the least position whose row is
not there (`View.make_eq_error_iff`). A view reads the source in the selected rows, one after
another (`View.values_eq`), and nothing beyond the last of them. What a cursor over any source hands
out are its values (`Source.handsOut_cursor`), and what a source of the caller's own reports of a row
is passed on (`View.reports_custom`).
-/

namespace RowFilter

namespace Selection

variable {s : Selection} {length : Nat}

/-- The row at a position is not below the length, and it is the first such row. -/
structure FirstBeyond (s : Selection) (length position row : Nat) : Prop where
  get_eq : s.get? position = some row
  beyond : length ≤ row
  least : ∀ i < position, ∀ r, s.get? i = some r → r < length

/-- The search for a row that is not below the length finds the first one. -/
theorem find?_zipIdx_iff {position row : Nat} :
    s.rows.zipIdx.find? (fun p => decide (length ≤ p.1)) = some (row, position) ↔
      s.FirstBeyond length position row := by
  rw [List.find?_eq_some_iff_getElem]
  constructor
  · rintro ⟨hbeyond, i, hi, heq, hleast⟩
    rw [List.getElem_zipIdx, Nat.zero_add] at heq
    obtain ⟨hrow, rfl⟩ := Prod.mk.inj heq
    rw [List.length_zipIdx] at hi
    -- the pairs before the one found are those of the positions before it
    refine ⟨?_, of_decide_eq_true hbeyond, fun j hj r hr => ?_⟩
    · rw [← getElem?_rows, List.getElem?_eq_getElem hi, hrow]
    · have hnot := hleast j hj
      rw [List.getElem_zipIdx] at hnot
      rw [← getElem?_rows, List.getElem?_eq_getElem (Nat.lt_trans hj hi)] at hr
      cases hr
      simpa using hnot
  · rintro ⟨hget, hbeyond, hleast⟩
    rw [← getElem?_rows, List.getElem?_eq_some_iff] at hget
    obtain ⟨hlt, hrow⟩ := hget
    refine ⟨decide_eq_true hbeyond, position, by rwa [List.length_zipIdx], ?_, fun j hj => ?_⟩
    · rw [List.getElem_zipIdx, Nat.zero_add, hrow]
    · have hj' : j < s.rows.length := Nat.lt_trans hj hlt
      have hless := hleast j hj s.rows[j] (by rw [← getElem?_rows, List.getElem?_eq_getElem hj'])
      rw [List.getElem_zipIdx]
      simpa using hless

/-- A selection is within bounds if all its rows are. -/
theorem checkBounds_eq_ok_iff : s.checkBounds length = .ok () ↔ ∀ row ∈ s.rows, row < length := by
  have hfind : s.rows.zipIdx.find? (fun p => decide (length ≤ p.1)) = none ↔
      ∀ row ∈ s.rows, row < length := by
    rw [List.find?_eq_none]
    constructor
    · intro h row hrow
      obtain ⟨i, hi⟩ := List.getElem?_of_mem hrow
      have := h (row, i) (List.mk_mem_zipIdx_iff_getElem?.mpr hi)
      simpa using this
    · intro h p hp
      have := h p.1 (List.fst_mem_of_mem_zipIdx hp)
      simpa using this
  rw [← hfind, checkBounds]
  cases s.rows.zipIdx.find? (fun p => decide (length ≤ p.1)) with
  | none => simp
  | some p => simp

/-- A selection that is out of bounds is refused for its first row that is. -/
theorem checkBounds_eq_error_iff {e : Error} :
    s.checkBounds length = .error e ↔
      ∃ position row, s.FirstBeyond length position row ∧
        e = .selectionOutOfBounds position row length := by
  rw [checkBounds]
  constructor
  · intro h
    cases hfind : s.rows.zipIdx.find? (fun p => decide (length ≤ p.1)) with
    | none =>
      rw [hfind] at h
      cases h
    | some p =>
      rw [hfind] at h
      cases h
      exact ⟨p.2, p.1, find?_zipIdx_iff.mp hfind, rfl⟩
  · rintro ⟨position, row, hfirst, rfl⟩
    rw [find?_zipIdx_iff.mpr hfirst]

end Selection

/-- One row after another is read, from the first to the last, even if some cannot be. -/
theorem Source.handsOut_cursor (source : Source) : source.cursor.HandsOut source.values := by
  have hread : ∀ row, source.cursor.read? row = source.values[row]? := by
    intro row
    rw [values, List.getElem?_map]
    by_cases h : source.length ≤ row
    · rw [List.getElem?_eq_none (by rwa [List.length_range])]
      exact if_pos h
    · rw [List.getElem?_range (Nat.lt_of_not_le h)]
      exact if_neg h
  exact source.cursor.handsOut_drop hread

/-- The values of a source that reads as a list does, element by element. -/
theorem Source.values_eq_map {α : Type} {source : Source} {l : List α}
    {g : α → Except Error Value} (hlength : source.length = l.length)
    (hget : ∀ i a, l[i]? = some a → source.get i = g a) : source.values = l.map g := by
  rw [values, hlength]
  refine List.ext_getElem (by simp) fun i _ hi => ?_
  rw [List.length_map] at hi
  rw [List.getElem_map, List.getElem_map, List.getElem_range]
  exact hget i l[i] (List.getElem?_eq_getElem hi)

namespace View

variable {source : Source} {s : Selection} {v : View}

/-- A view is made of a source and a selection whose rows are all in the source. -/
theorem make_eq_ok_iff :
    make source s = .ok v ↔ (∀ row ∈ s.rows, row < source.length) ∧ v = ⟨source, s⟩ := by
  rw [make, bind_eq_ok_iff]
  constructor
  · rintro ⟨⟨⟩, hcheck, hmade⟩
    cases hmade
    exact ⟨Selection.checkBounds_eq_ok_iff.mp hcheck, rfl⟩
  · rintro ⟨hrows, rfl⟩
    exact ⟨(), Selection.checkBounds_eq_ok_iff.mpr hrows, rfl⟩

/-- Just the selections whose rows are all in the source make a view. -/
theorem exists_make_iff :
    (∃ v, make source s = .ok v) ↔ ∀ row ∈ s.rows, row < source.length := by
  simp only [make_eq_ok_iff, exists_and_left, exists_eq, and_true]

/-- A view is refused for the first row that is not in the source. -/
theorem make_eq_error_iff {e : Error} :
    make source s = .error e ↔
      ∃ position row, s.FirstBeyond source.length position row ∧
        e = .selectionOutOfBounds position row source.length := by
  rw [← Selection.checkBounds_eq_error_iff, make]
  cases s.checkBounds source.length with
  | error e' =>
    constructor
    · intro h
      cases h
      rfl
    · intro h
      cases h
      rfl
  | ok _ =>
    constructor
    · intro h
      cases h
    · intro h
      cases h

/-! ## Reading -/

/-- A position of the selection is read in its row of the source. -/
theorem get_of_getElem? {i row : Nat} (h : v.selection.rows[i]? = some row) :
    v.get i = v.source.get row := by
  rw [Selection.getElem?_rows] at h
  rw [get, h]

/-- Beyond the selection there is nothing to read. -/
theorem get_of_length_le {i : Nat} (h : v.length ≤ i) :
    v.get i = .error (.outOfBounds .view i v.length) := by
  have hnone : v.selection.get? i = none := by
    rw [← Selection.getElem?_rows, List.getElem?_eq_none_iff, Selection.length_rows]
    exact h
  rw [get, hnone]

/-- The values of a view are those of the source in the selected rows. -/
theorem values_eq (v : View) : v.values = v.selection.rows.map v.source.get :=
  Source.values_eq_map v.selection.length_rows.symm fun _ _ => get_of_getElem?

/-! ## Rows that cannot be read -/

/-- The first value that is not there ends the collecting. -/
theorem collect_eq_error {α : Type} (before : List Value) (e : Error)
    (after : List (Except Error Value)) (cell : Value → Option α) :
    collect (before.map .ok ++ .error e :: after) cell = .error e := by
  have hmap : (before.map Except.ok ++ Except.error e :: after).mapM id = .error e := by
    induction before with
    | nil => rfl
    | cons a before ih =>
      rw [List.map_cons, List.cons_append, List.mapM_cons, ih]
      rfl
  rw [collect, hmap]
  rfl

/-- Without an array of the source, none is made if a row cannot be read. The first such row says
why. -/
theorem toArray_eq_error (hstored : v.source.stored = none) (htype : v.type ≠ .null)
    {before : List Value} {e : Error} {after : List (Except Error Value)}
    (hvalues : v.values = before.map .ok ++ .error e :: after) : v.toArray = .error e := by
  rw [toArray, hstored, hvalues]
  cases ht : v.type with
  | null => exact absurd ht htype
  | int64 | float64 | bool =>
    show _ <$> collect _ _ = _
    rw [collect_eq_error]
    rfl

section Custom

variable {type : DataType} {length : Nat} {read : Nat → Except (ErrorKind × String) Value}

/-- **Faults of a source are passed on**: a view of a caller's source reports what the caller
reports for a row, in the caller's words, and goes on with the next row. Only an array cannot be
made then; it is refused for the first row that cannot be read. -/
theorem reports_custom (made : make (.custom type length read) s = .ok v) :
    v.values = s.rows.map (fun row => (read row).mapError fun p => .reported p.1 p.2) ∧
      ∀ earlier row later kind detail, s.rows = earlier ++ row :: later → type ≠ .null →
        (∀ r ∈ earlier, ∃ x, read r = .ok x) → read row = .error (kind, detail) →
        v.toArray = .error (.reported kind detail) := by
  obtain ⟨-, rfl⟩ := make_eq_ok_iff.mp made
  have hvalues : values ⟨.custom type length read, s⟩ =
      s.rows.map fun row => (read row).mapError fun p => .reported p.1 p.2 :=
    values_eq _
  refine ⟨hvalues, fun earlier row later kind detail hrows htype hread refused => ?_⟩
  have hearlier : ∀ r ∈ earlier,
      ∃ x, ((read r).mapError fun p => Error.reported p.1 p.2) = .ok x := by
    intro r hr
    obtain ⟨x, hx⟩ := hread r hr
    exact ⟨x, by rw [hx]; rfl⟩
  obtain ⟨before, hbefore⟩ := exists_map_eq_map_ok hearlier
  rw [hrows, List.map_append, List.map_cons, hbefore, refused] at hvalues
  have htyped : View.type ⟨.custom type length read, s⟩ ≠ .null := htype
  exact toArray_eq_error rfl htyped hvalues

end Custom

end View

end RowFilter
