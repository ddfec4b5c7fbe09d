import RowFilter.Proofs.Column.Values
import RowFilter.Proofs.Expr.Denotation
import RowFilter.Proofs.Filter.Resolution
import RowFilter.Proofs.Filter.SelectRows

/-!
# Evaluating a filter

A bound expression, given the columns of its inputs, yields what the expression denotes by name
(`Bound.toOption_evaluate_place`). With that and the run over the rows, `Filter.evaluate_bound` says
what evaluating a filter comes to once its columns are found and the last row fits the index type:
the matching rows are stored as far as there is room, and either all of them are counted or the
first one without room is reported.
-/

namespace RowFilter

namespace Bound

section Placement

variable {b : Batch} {row : Nat} {all : List Field}

/-- An input is read from the column of its name. -/
theorem evaluate_input {f : Field} {inputs : List Field} (hall : ∀ g ∈ all, b.schema.Declares g)
    (hpre : (inputOf f inputs).2 <+: all) :
    (evaluate (all.map b.columnOf).toArray row (.input (inputOf f inputs).1)).toOption =
      Expr.denote b row (.field f) := by
  -- the input at the position may be another field of the same name
  obtain ⟨g, hg, hname⟩ := inputOf_position f inputs
  obtain ⟨rest, hrest⟩ := hpre
  have hinput : all[(inputOf f inputs).1]? = some g := by
    rw [← hrest, List.getElem?_append_left (List.getElem?_eq_some_iff.mp hg).1, hg]
  have hcolumn : (all.map b.columnOf).toArray[(inputOf f inputs).1]? = some (b.columnOf g) := by
    rw [List.getElem?_toArray, List.getElem?_map, hinput]
    rfl
  have hnamed : b.columnNamed? f.name = some (b.columnOf g) := by
    rw [← hname]
    exact (Batch.columnOf_of_declares (hall g (List.mem_of_getElem? hinput))).1
  rw [evaluate, hcolumn, Expr.denote, hnamed]
  exact Column.toOption_get _ row

mutual

/-- A placed expression yields what the expression denotes, if every input is given the column of
its name. The list of all inputs may be longer than the one after this expression, because the
expressions to its right add to it. -/
theorem toOption_evaluate_place (hall : ∀ g ∈ all, b.schema.Declares g) :
    ∀ (e : Expr) (inputs : List Field), (place e inputs).2 <+: all →
      (evaluate (all.map b.columnOf).toArray row (place e inputs).1).toOption = e.denote b row
  | .field f, inputs, hpre => by
    rw [place] at hpre ⊢
    exact evaluate_input hall hpre
  | .literal v type, inputs, _ => by
    rw [place, evaluate, Expr.denote]
    rfl
  | .call signature args, inputs, hpre => by
    rw [place] at hpre
    rw [place, evaluate, Expr.denote_call, toOption_bind,
      toOption_evaluateList_placeList hall args inputs hpre]

theorem toOption_evaluateList_placeList (hall : ∀ g ∈ all, b.schema.Declares g) :
    ∀ (es : List Expr) (inputs : List Field), (placeList es inputs).2 <+: all →
      (evaluateList (all.map b.columnOf).toArray row (placeList es inputs).1).toOption =
        Expr.denoteList b row es
  | [], inputs, _ => by
    rw [placeList, evaluateList, Expr.denoteList]
    rfl
  | e :: es, inputs, hpre => by
    rw [placeList] at hpre
    -- the inputs after the first expression are extended by the rest
    have hfirst : (place e inputs).2 <+: all := (prefix_placeList es _).trans hpre
    rw [placeList, evaluateList, Expr.denoteList, toOption_bind,
      toOption_evaluate_place hall e inputs hfirst]
    congr 1
    funext v
    rw [toOption_bind, toOption_evaluateList_placeList hall es _ hpre]
    cases Expr.denoteList b row es with
    | none => rfl
    | some vs => rfl

end

/-- An expression that is placed on its own yields what it denotes, given the columns of its
fields. -/
theorem toOption_evaluate_place_nil {e : Expr} (hall : ∀ f ∈ e.fields, b.schema.Declares f) :
    (evaluate (e.fields.map b.columnOf).toArray row (place e []).1).toOption = e.denote b row :=
  toOption_evaluate_place hall e [] (place_inputs_nil e ▸ List.prefix_refl _)

end Placement

end Bound

namespace Filter

/-- A row is decided if the condition yields a truth value or null for it. -/
theorem selects_eq_ok_iff {f : Filter} {columns : Array Column} {row : Nat} {b : Bool} :
    f.selects columns row = .ok b ↔
      ∃ v, f.expr.evaluate columns row = .ok v ∧ (v = .bool b ∨ v = .null ∧ b = false) := by
  rw [selects]
  cases f.expr.evaluate columns row with
  | error e =>
    constructor
    · intro h
      cases h
    · intro ⟨v, hv, _⟩
      cases hv
  | ok v =>
    constructor
    · intro h
      refine ⟨v, rfl, ?_⟩
      cases v with
      | null => cases h; exact Or.inr ⟨rfl, rfl⟩
      | bool b' => cases h; exact Or.inl rfl
      | int64 n => cases h
      | float64 x => cases h
    · intro ⟨w, hw, hb⟩
      cases hw
      rcases hb with rfl | ⟨rfl, rfl⟩
      · rfl
      · rfl

section Bound

variable {schema : Schema} {c : Condition} {batch : Batch} {row : Nat}

/-- What a filter decides of a row is what the condition denotes there. -/
theorem selects_bound_eq_ok_iff {b : Bool} (hall : ∀ f ∈ c.root.fields, batch.schema.Declares f) :
    (bound schema c).selects (c.root.fields.map batch.columnOf).toArray row = .ok b ↔
      ∃ v, c.root.denote batch row = some v ∧ (v = .bool b ∨ v = .null ∧ b = false) := by
  have hdenote : ((bound schema c).expr.evaluate
      (c.root.fields.map batch.columnOf).toArray row).toOption = c.root.denote batch row :=
    Bound.toOption_evaluate_place_nil hall
  rw [selects_eq_ok_iff, ← hdenote]
  simp only [toOption_eq_some_iff]

/-- With the columns at hand and an index type that holds the last row, evaluating is the run over
the rows. -/
theorem evaluate_of_selectRows {f : Filter} {columns : List Column} {s s' : Selection}
    {result : Except Error Unit} (hcolumns : f.resolve batch = .ok columns)
    (hfits : ¬(0 < batch.rows ∧ s.maxRow < batch.rows - 1))
    (hrun : selectRows (f.selects columns.toArray) batch.rows 0 s.reset = (result, s')) :
    f.evaluate batch s = (result.map fun _ => s'.length, s') := by
  rw [evaluate, hcolumns]
  simp only [hfits, if_false, hrun]
  cases result with
  | error e => rfl
  | ok _ => rfl

/-- The run when every row is decided. -/
theorem evaluate_of_resolve {f : Filter} {columns : List Column} {p : Nat → Bool} {s : Selection}
    (hcolumns : f.resolve batch = .ok columns)
    (hfits : ¬(0 < batch.rows ∧ s.maxRow < batch.rows - 1))
    (hsel : ∀ r < batch.rows, f.selects columns.toArray r = .ok (p r)) :
    (f.evaluate batch s).1 =
        (((List.range batch.rows).filter p)[s.capacity]?).elim
          (.ok ((List.range batch.rows).filter p).length)
          (fun r => .error (.noRoomForMatch r s.capacity)) ∧
      (f.evaluate batch s).2.rows = ((List.range batch.rows).filter p).take s.capacity := by
  obtain ⟨hresult, hrows⟩ := selectRows_eq (p := p) batch.rows 0 (Selection.Before.reset s)
    (by rw [Selection.maxRow_reset]; omega) (fun r _ hr => hsel r (by omega))
  rw [Selection.rows_reset, List.length_nil, Selection.capacity_reset, Nat.sub_zero,
    ← List.range_eq_range'] at hresult hrows
  rw [List.nil_append] at hrows
  rw [evaluate_of_selectRows hcolumns hfits rfl]
  refine ⟨?_, hrows⟩
  rw [hresult]
  cases hfull : ((List.range batch.rows).filter p)[s.capacity]? with
  | some r => rfl
  | none =>
    -- there is room for all matches, so the slots in use are as many as they are
    rw [List.take_of_length_le (List.getElem?_eq_none_iff.mp hfull)] at hrows
    rw [← Selection.length_rows, hrows]
    rfl

/-- An evaluation that ends without an error has found its columns, has checked the last row and
has decided every row. -/
theorem exists_of_evaluate_ok {f : Filter} {s s' : Selection} {n : Nat}
    (h : f.evaluate batch s = (.ok n, s')) :
    ∃ columns, f.resolve batch = .ok columns ∧ ¬(0 < batch.rows ∧ s.maxRow < batch.rows - 1) ∧
      ∀ r < batch.rows, ∃ b, f.selects columns.toArray r = .ok b := by
  cases hcolumns : f.resolve batch with
  | error e =>
    rw [evaluate, hcolumns] at h
    cases h
  | ok columns =>
    by_cases hfits : 0 < batch.rows ∧ s.maxRow < batch.rows - 1
    · rw [evaluate, hcolumns] at h
      simp only [hfits, and_self, if_true] at h
      cases h
    · refine ⟨columns, rfl, hfits, fun r hr => ?_⟩
      refine exists_ok_of_selectRows batch.rows 0 (s := s.reset) ?_ r (Nat.zero_le r) (by omega)
      rw [evaluate_of_selectRows hcolumns hfits rfl] at h
      cases hrun : (selectRows (f.selects columns.toArray) batch.rows 0 s.reset).1 with
      | error e =>
        rw [hrun] at h
        cases h
      | ok _ => rfl

/-- Evaluating a filter on a batch that declares the fields and whose last row fits the index type,
when the condition is true, false or null in every row. -/
theorem evaluate_bound {s : Selection} (h : Bound.fault? schema c.root = none)
    (hall : ∀ f ∈ c.root.fields, batch.schema.Declares f)
    (hfits : ¬(0 < batch.rows ∧ s.maxRow < batch.rows - 1))
    (hdecided : ∀ row < batch.rows, c.Decided batch row) :
    ((bound schema c).evaluate batch s).1 =
        ((c.matching batch)[s.capacity]?).elim (.ok (c.matching batch).length)
          (fun row => .error (.noRoomForMatch row s.capacity)) ∧
      ((bound schema c).evaluate batch s).2.rows = (c.matching batch).take s.capacity := by
  refine evaluate_of_resolve ((resolve_eq_ok_iff h).mpr ⟨hall, rfl⟩) hfits fun row hrow => ?_
  rw [selects_bound_eq_ok_iff hall]
  obtain ⟨v, hv, hnull | ⟨t, ht⟩⟩ := hdecided row hrow
  · refine ⟨v, hv, Or.inr ⟨hnull, ?_⟩⟩
    simp [hv, hnull]
  · refine ⟨v, hv, Or.inl ?_⟩
    simp [hv, ht]

/-- An evaluation that ends without an error has found the condition true, false or null in every
row. -/
theorem decided_of_evaluate_ok {s s' : Selection} {n : Nat} (h : Bound.fault? schema c.root = none)
    (hdone : (bound schema c).evaluate batch s = (.ok n, s')) :
    (∀ f ∈ c.root.fields, batch.schema.Declares f) ∧
      ¬(0 < batch.rows ∧ s.maxRow < batch.rows - 1) ∧ ∀ row < batch.rows, c.Decided batch row := by
  obtain ⟨columns, hcolumns, hfits, hrows⟩ := exists_of_evaluate_ok hdone
  obtain ⟨hall, rfl⟩ := (resolve_eq_ok_iff h).mp hcolumns
  refine ⟨hall, hfits, fun row hrow => ?_⟩
  obtain ⟨b, hb⟩ := hrows row hrow
  obtain ⟨v, hv, rfl | ⟨rfl, _⟩⟩ := (selects_bound_eq_ok_iff hall).mp hb
  · exact ⟨.bool b, hv, Or.inr ⟨b, rfl⟩⟩
  · exact ⟨.null, hv, Or.inl rfl⟩

/-- An evaluation that ends without an error had a batch with the fields of the condition, and it
has left the matching rows in the selection. -/
theorem found_of_evaluate_ok {f : Filter} {s s' : Selection} {n : Nat}
    (made : make schema c = .ok f) (done : f.evaluate batch s = (.ok n, s')) :
    (∀ g ∈ c.root.fields, batch.schema.Declares g) ∧ s'.rows = c.matching batch ∧
      s'.length = n := by
  obtain ⟨hfault, rfl⟩ := make_eq_ok_iff.mp made
  obtain ⟨hall, hfits, hdecided⟩ := decided_of_evaluate_ok hfault done
  obtain ⟨hresult, hrows⟩ := evaluate_bound hfault hall hfits hdecided
  rw [done] at hresult hrows
  cases hfull : (c.matching batch)[s.capacity]? with
  | some row =>
    -- this match would have been reported
    rw [hfull] at hresult
    cases hresult
  | none =>
    rw [hfull] at hresult
    cases hresult
    rw [List.take_of_length_le (List.getElem?_eq_none_iff.mp hfull)] at hrows
    exact ⟨hall, hrows, by rw [← Selection.length_rows, hrows]⟩

end Bound

end Filter

end RowFilter
