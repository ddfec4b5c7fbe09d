import RowFilter.Cursor

/-!
# What a cursor hands out

`Cursor.HandsOut` says of a cursor what list it hands out: the run to the end yields all of it, and
a run that stops after some steps has yielded the first elements, announces how many are left, and
can go on with them. Main result: `Cursor.handsOut_drop`. A cursor over something that reads as a
list does hands out that list from its position on.
-/

namespace RowFilter

namespace Cursor

variable {α : Type} {c rest : Cursor α} {a : α}

/-- A run to the end is a step, and then a run to the end from there. -/
theorem toList_of_next?_eq_some (h : c.next? = some (a, rest)) : c.toList = a :: rest.toList := by
  rw [toList]
  split
  next hnone => rw [hnone] at h; cases h
  next hsome => rw [hsome] at h; cases h; rfl

/-- At the end nothing is left. -/
theorem toList_of_next?_eq_none (h : c.next? = none) : c.toList = [] := by
  rw [toList]
  split
  next => rfl
  next hsome => rw [hsome] at h; cases h

/-- A cursor hands out as many items as it announces. The induction is on the run, whose last step
finds the end. -/
theorem length_toList (c : Cursor α) : c.toList.length = c.remaining := by
  induction c using toList.induct with
  | case1 c hnone =>
    rw [toList_of_next?_eq_none hnone, next?_eq_none_iff.mp hnone]
    rfl
  | case2 c a rest hsome _ ih =>
    rw [toList_of_next?_eq_some hsome, remaining_of_next? hsome, List.length_cons, ih]

/-- A cursor over what reads as a list does hands out the list from the position on. -/
theorem toList_eq_drop {l : List α} (c : Cursor α) (h : ∀ i, c.read? i = l[i]?) :
    c.toList = l.drop c.position := by
  induction c using toList.induct with
  | case1 c hnone =>
    rw [toList_of_next?_eq_none hnone]
    rw [next?, Option.map_eq_none_iff, h, List.getElem?_eq_none_iff] at hnone
    exact (List.drop_eq_nil_of_le hnone).symm
  | case2 c a rest hsome _ ih =>
    rw [toList_of_next?_eq_some hsome]
    obtain ⟨hread, rfl⟩ := next?_eq_some_iff.mp hsome
    obtain ⟨hlt, rfl⟩ := List.getElem?_eq_some_iff.mp ((h _).symm.trans hread)
    rw [ih h, List.drop_eq_getElem_cons hlt]
    rfl

/-- Some steps hand out the first of the items that the run to the end does, and going on from there
hands out the others. -/
theorem take_toList (n : Nat) (c : Cursor α) :
    (c.take n).1 = c.toList.take n ∧ (c.take n).2.toList = c.toList.drop n := by
  induction n generalizing c with
  | zero => exact ⟨rfl, rfl⟩
  | succ n ih =>
    rw [take]
    cases hnext : c.next? with
    | none =>
      rw [toList_of_next?_eq_none hnext, List.take_nil, List.drop_nil]
      exact ⟨rfl, rfl⟩
    | some p =>
      obtain ⟨htaken, hleft⟩ := ih p.2
      rw [toList_of_next?_eq_some hnext, List.take_succ_cons, List.drop_succ_cons, ← htaken]
      exact ⟨rfl, hleft⟩

/-- A cursor hands out the elements of a list, one at each step. -/
structure HandsOut (c : Cursor α) (l : List α) : Prop where
  toList_eq : c.toList = l
  /-- The first elements have been handed out after so many steps. -/
  taken : ∀ n, (c.take n).1 = l.take n
  /-- The others are still to come, and their count is known. -/
  left : ∀ n, (c.take n).2.toList = l.drop n
  remaining_eq : ∀ n, (c.take n).2.remaining = l.length - n

/-- **Cursors read lists**: what reads as a list does, position by position, is handed out as that
list from where the cursor stands. -/
theorem handsOut_drop {l : List α} (c : Cursor α) (h : ∀ i, c.read? i = l[i]?) :
    c.HandsOut (l.drop c.position) where
  toList_eq := c.toList_eq_drop h
  taken n := by rw [(c.take_toList n).1, c.toList_eq_drop h]
  left n := by rw [(c.take_toList n).2, c.toList_eq_drop h]
  remaining_eq n := by
    rw [← length_toList, (c.take_toList n).2, c.toList_eq_drop h, List.length_drop]

end Cursor

end RowFilter
