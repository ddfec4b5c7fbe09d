import RowFilter.Proofs.Column.Gather
import RowFilter.Proofs.Selection.Operations

/-!
# Views of views

A view can be viewed in its turn, through a selection of its positions. A position of the last view
then leads through all selections to a row of the column (`Selection.follow?`), and the rows that
the positions lead to ascend (`Source.Shows`). Main result: `View.nested_composes`. However many
views there are, the next one is made just if its selection is within the bounds of the last, and
its array, which is put together value by value, is the one that taking from the column's array
through one selection after another yields.
-/

namespace RowFilter

/-- The row that a position leads to through several selections. The position is one of the last
selection, whose rows are positions of the one before, and so on. -/
def Selection.follow? : List Selection → Nat → Option Nat
  | [], i => some i
  | s :: chain, i => (follow? chain i).bind s.get?

theorem Selection.follow?_concat (chain : List Selection) (s : Selection) (i : Nat) :
    follow? (chain ++ [s]) i = (s.get? i).bind (follow? chain) := by
  induction chain with
  | nil =>
    show (some i).bind s.get? = (s.get? i).bind some
    rw [Option.bind_some, Option.bind_fun_some]
  | cons t chain ih =>
    rw [List.cons_append, follow?, ih, Option.bind_assoc]
    rfl

namespace Source

variable {c : Column} {chain : List Selection} {source : Source} {rows : List Nat} {s : Selection}
  {v : View}

/-- The sources that are made of a column by viewing it through one selection after another. -/
inductive Nested (c : Column) : List Selection → Source → Prop
  | column : Nested c [] c.toSource
  | view {chain : List Selection} {source : Source} {s : Selection} {v : View}
      (nested : Nested c chain source) (made : View.make source s = .ok v) :
      Nested c (chain ++ [s]) v.toSource

/-- A source shows the given rows of a column, in ascending order. They are the rows that its
positions lead to through some selections. -/
structure Shows (source : Source) (c : Column) (chain : List Selection) (rows : List Nat) :
    Prop where
  type_eq : source.type = c.type
  length_eq : source.length = rows.length
  get_eq : ∀ i row, rows[i]? = some row → source.get i = c.get row
  leads : ∀ i < rows.length, Selection.follow? chain i = rows[i]?
  within : ∀ row ∈ rows, row < c.length
  increasing : rows.Pairwise (· < ·)

/-- A column shows all its rows. -/
theorem shows_column (c : Column) : c.toSource.Shows c [] (List.range c.length) where
  type_eq := rfl
  length_eq := List.length_range.symm
  get_eq i row h := by
    obtain ⟨hlt, hrow⟩ := List.getElem?_eq_some_iff.mp h
    rw [List.getElem_range] at hrow
    rw [hrow]
    rfl
  leads i hi := by
    rw [List.length_range] at hi
    rw [List.getElem?_range hi, Selection.follow?]
  within row h := List.mem_range.mp h
  increasing := List.pairwise_lt_range

/-- A view of such a source shows the rows at the selected positions. -/
theorem Shows.view (h : source.Shows c chain rows) (hs : s.rows.Pairwise (· < ·))
    (made : View.make source s = .ok v) :
    v.toSource.Shows c (chain ++ [s]) (rowsAt rows s.rows) := by
  obtain ⟨hin, rfl⟩ := View.make_eq_ok_iff.mp made
  rw [h.length_eq] at hin
  have hlength : (rowsAt rows s.rows).length = s.rows.length := List.length_map _
  exact {
    type_eq := h.type_eq
    length_eq := (hlength.trans s.length_rows).symm
    get_eq := fun i row hrow => by
      rw [getElem?_rowsAt hin, Option.bind_eq_some_iff] at hrow
      obtain ⟨p, hp, hrow⟩ := hrow
      exact (View.get_of_getElem? hp).trans (h.get_eq p row hrow)
    leads := fun i hi => by
      rw [hlength] at hi
      have hp : s.rows[i]? = some s.rows[i] := List.getElem?_eq_getElem hi
      have hlt : s.rows[i] < rows.length := hin _ (List.getElem_mem hi)
      rw [getElem?_rowsAt hin, Selection.follow?_concat, ← Selection.getElem?_rows, hp]
      exact h.leads _ hlt
    within := fun row hrow => h.within row (mem_of_mem_rowsAt hin hrow)
    increasing := pairwise_rowsAt hin h.increasing hs }

/-- The values of such a source are those of the column in the rows. -/
theorem Shows.values_eq (h : source.Shows c chain rows) : source.values = rows.map c.get :=
  values_eq_map h.length_eq h.get_eq

/-- A source that was made by viewing is as long as the last selection. -/
theorem Nested.length_eq (nested : Nested c chain source) :
    source.length = chain.getLast?.elim c.length Selection.length := by
  cases nested with
  | column => rfl
  | view nested made =>
    obtain ⟨-, rfl⟩ := View.make_eq_ok_iff.mp made
    rw [List.getLast?_concat]
    rfl

end Source

/-- Viewing goes on where it stopped. -/
theorem Source.Nested.foldlM {c : Column} {chain rest : List Selection} {v v' : View}
    (nested : Nested c chain v.toSource)
    (made : rest.foldlM (fun v s => View.make v.toSource s) v = .ok v') :
    Nested c (chain ++ rest) v'.toSource := by
  induction rest generalizing chain v with
  | nil =>
    cases made
    rwa [List.append_nil]
  | cons s rest ih =>
    rw [List.foldlM_cons, bind_eq_ok_iff] at made
    obtain ⟨w, hw, hrest⟩ := made
    rw [List.append_cons]
    exact ih (nested.view hw) hrest

/-- The view through several selections is one of these sources. -/
theorem View.nested_of_through {c : Column} {first : Selection} {rest : List Selection} {v : View}
    (made : through c.toSource first rest = .ok v) :
    Source.Nested c (first :: rest) v.toSource := by
  rw [through, bind_eq_ok_iff] at made
  obtain ⟨w, hw, hrest⟩ := made
  exact (Source.Nested.column.view hw).foldlM hrest

/-! ## Arrays -/

namespace View

variable {c : Column} {chain : List Selection} {source : Source} {rows : List Nat} {s : Selection}
  {v : View}

/-- The cells of the values that are read are those the values were made of. -/
theorem collect_cells {α : Type} {tag : α → Value} {cell : Value → Option α}
    (h : ∀ x, cell (Column.cellValue tag x) = x) (cells : Array (Option α)) :
    collect ((cells.toList.map (Column.cellValue tag)).map .ok) cell = .ok cells := by
  have hcell : cell ∘ Column.cellValue tag = id := funext h
  rw [collect, mapM_id_map_ok, ok_bind, List.map_map, hcell, List.map_id]
  rfl

/-- A view that reads as a column does has the array of that column, even if its source has none. -/
theorem toArray_of_values (hstored : v.source.stored = none) {d : Column}
    (htype : v.type = d.type) (hvalues : v.values = d.values.map .ok) :
    v.toArray = .ok d.toArray := by
  rw [toArray, hstored, htype, hvalues]
  cases d with
  | bool cells =>
    show Interchange.ArrayData.boolean <$> collect _ Value.asBool? = _
    rw [Column.values, collect_cells fun x => by cases x <;> rfl]
    rfl
  | int64 cells =>
    show Interchange.ArrayData.int64 <$> collect _ Value.asInt64? = _
    rw [Column.values, collect_cells fun x => by cases x <;> rfl]
    rfl
  | float64 cells =>
    show Interchange.ArrayData.float64 <$> collect _ Value.asFloat64? = _
    rw [Column.values, collect_cells fun x => by cases x <;> rfl]
    rfl

/-- The array of a view of a source that shows rows of a column, whether an array holds them or
not. -/
theorem toArray_eq (h : source.Shows c chain rows)
    (hstored : source.stored = none ∨ source.stored = some (c.gather rows).toArray)
    (hs : s.rows.Pairwise (· < ·)) (made : make source s = .ok v) :
    v.toArray = .ok (c.gather (rowsAt rows s.rows)).toArray := by
  have hshows : v.toSource.Shows c (chain ++ [s]) (rowsAt rows s.rows) := h.view hs made
  obtain ⟨hin, rfl⟩ := make_eq_ok_iff.mp made
  rw [h.length_eq] at hin
  rcases hstored with hnone | hsome
  · -- the values are read one by one, and the tag of each is that of the column
    have hvalues : values ⟨source, s⟩ = (c.gather (rowsAt rows s.rows)).values.map .ok := by
      rw [Column.values_gather hshows.within]
      exact hshows.values_eq
    exact toArray_of_values hnone (h.type_eq.trans Column.type_gather.symm) hvalues
  · -- the stored array is of the source, so the selected positions are those of its rows
    have hgathered : ∀ row ∈ s.rows, row < (c.gather rows).length := Column.length_gather ▸ hin
    rw [toArray, hsome, ← Column.gather_gather h.within hin]
    exact Column.take_toArray hgathered

/-- Taking once more takes the rows at the selected positions. -/
theorem foldlM_take_concat
    (h : chain.foldlM Interchange.ArrayData.take c.toArray = .ok (c.gather rows).toArray)
    (hrows : ∀ row ∈ rows, row < c.length) (hs : ∀ p ∈ s.rows, p < rows.length) :
    (chain ++ [s]).foldlM Interchange.ArrayData.take c.toArray =
      .ok (c.gather (rowsAt rows s.rows)).toArray := by
  have hgathered : ∀ row ∈ s.rows, row < (c.gather rows).length := Column.length_gather ▸ hs
  rw [List.foldlM_append, h, ok_bind, List.foldlM_cons, Column.take_toArray hgathered, ok_bind,
    List.foldlM_nil, Column.gather_gather hrows hs]
  rfl

/-- What is made by viewing shows rows of the column, and taking from the column's array yields the
same rows. -/
theorem exists_shows (nested : Source.Nested c chain source)
    (reachable : ∀ s ∈ chain, s.Reachable) :
    ∃ rows, source.Shows c chain rows ∧
      chain.foldlM Interchange.ArrayData.take c.toArray = .ok (c.gather rows).toArray ∧
      (source.stored = none ∨ source.stored = some (c.gather rows).toArray) := by
  induction nested with
  | column =>
    refine ⟨List.range c.length, Source.shows_column c, ?_, Or.inr ?_⟩
    · rw [Column.gather_range]
      rfl
    · rw [Column.gather_range]
      rfl
  | @view chain source s v nested made ih =>
    obtain ⟨rows, hshows, htaken, -⟩ := ih fun t ht => reachable t (List.mem_append_left _ ht)
    have hs : s.rows.Pairwise (· < ·) := (reachable s List.mem_concat_self).valid.increasing
    have hin : ∀ p ∈ s.rows, p < rows.length :=
      hshows.length_eq ▸ (make_eq_ok_iff.mp made).1
    -- a view has no array of its own, whatever it is a view of
    exact ⟨rowsAt rows s.rows, hshows.view hs made, foldlM_take_concat htaken hshows.within hin,
      Or.inl rfl⟩

/-- **Views of views compose**, along any chain of selections. The next view is made just if all
rows of its selection are positions of the last one, and otherwise the first position where that is
not so is reported. It shows rows of the column in ascending order, and a cursor hands out its
values. An array can be made of it, which has these values, and it is the one that taking through
each selection in turn yields. -/
theorem nested_composes (nested : Source.Nested c chain source)
    (reachable : ∀ t ∈ chain ++ [s], t.Reachable) :
    source.length = chain.getLast?.elim c.length Selection.length ∧
      ((∃ v, make source s = .ok v) ↔ ∀ row ∈ s.rows, row < source.length) ∧
      (∀ e, make source s = .error e → e.kind = .indexOutOfBounds ∧ ∃ position row,
        s.FirstBeyond source.length position row ∧
          e = .selectionOutOfBounds position row source.length) ∧
      ∀ v, make source s = .ok v → v.length = s.length ∧
        (∃ rows, v.toSource.Shows c (chain ++ [s]) rows) ∧
        v.toSource.cursor.HandsOut v.values ∧
        ∃ d : Column, v.toArray = .ok d.toArray ∧ d.type = c.type ∧ d.values.map .ok = v.values ∧
          (chain ++ [s]).foldlM Interchange.ArrayData.take c.toArray = .ok d.toArray := by
  refine ⟨nested.length_eq, exists_make_iff, fun e refused => ?_, fun v made => ?_⟩
  · obtain ⟨position, row, hfirst, rfl⟩ := make_eq_error_iff.mp refused
    exact ⟨rfl, position, row, hfirst, rfl⟩
  have hs : s.rows.Pairwise (· < ·) := (reachable s List.mem_concat_self).valid.increasing
  obtain ⟨rows, hshows, htaken, hstored⟩ :=
    exists_shows nested fun t ht => reachable t (List.mem_append_left _ ht)
  have hin : ∀ p ∈ s.rows, p < rows.length := hshows.length_eq ▸ (make_eq_ok_iff.mp made).1
  have hview : v.toSource.Shows c (chain ++ [s]) (rowsAt rows s.rows) := hshows.view hs made
  refine ⟨?_, ⟨_, hview⟩, v.toSource.handsOut_cursor, c.gather (rowsAt rows s.rows),
    toArray_eq hshows hstored hs made, Column.type_gather, ?_,
    foldlM_take_concat htaken hshows.within hin⟩
  · obtain ⟨-, rfl⟩ := make_eq_ok_iff.mp made
    rfl
  · rw [Column.values_gather hview.within]
    exact hview.values_eq.symm

end View

/-! ## An example -/

namespace Sample

def readings : Column := .int64 #[some 5, none, some 7, some 8, some 9]

def outer : Selection := ⟨.uint16 #[1, 2, 4], 3⟩

/-- The first and the last of the three rows. -/
def inner : Selection := ⟨.uint32 #[0, 2], 8⟩

/-- Both of these. -/
def whole : Selection := ⟨.uint64 #[0, 1], 2⟩

theorem reachable_outer : outer.Reachable :=
  ⟨Selection.addressable, .unlimited, _, .uint16, 3, _, [.append 1, .append 2, .append 4], rfl, rfl⟩

theorem reachable_inner : inner.Reachable :=
  ⟨Selection.addressable, .unlimited, _, .uint32, 8, _, [.append 0, .append 2], rfl, rfl⟩

theorem reachable_whole : whole.Reachable :=
  ⟨Selection.addressable, .unlimited, _, .uint64, 2, _, [.append 0, .append 1], rfl, rfl⟩

end Sample

namespace View

/-- The rows 1 and 4 of the readings, seen through three selections. The first of them is null. -/
theorem sample_nested :
    ∃ twice v rows, through Sample.readings.toSource Sample.outer [Sample.inner] = .ok twice ∧
      make twice.toSource Sample.whole = .ok v ∧ v.length = 2 ∧
      v.toSource.Shows Sample.readings [Sample.outer, Sample.inner, Sample.whole] rows ∧
      v.values = [.ok .null, .ok (.int64 9)] ∧ v.toArray = .ok (.int64 #[none, some 9]) ∧
      [Sample.outer, Sample.inner, Sample.whole].foldlM Interchange.ArrayData.take
        Sample.readings.toArray = .ok (.int64 #[none, some 9]) := by
  have htwice : through Sample.readings.toSource Sample.outer [Sample.inner] =
      .ok ⟨toSource ⟨Sample.readings.toSource, Sample.outer⟩, Sample.inner⟩ := rfl
  have reachable : ∀ t ∈ [Sample.outer, Sample.inner] ++ [Sample.whole], t.Reachable := by
    simp [Sample.reachable_outer, Sample.reachable_inner, Sample.reachable_whole]
  obtain ⟨-, -, -, hviews⟩ := nested_composes (nested_of_through htwice) reachable
  obtain ⟨hlength, ⟨rows, hshows⟩, -⟩ := hviews _ rfl
  exact ⟨_, _, rows, htwice, rfl, hlength, hshows, rfl, rfl, rfl⟩

end View

end RowFilter
