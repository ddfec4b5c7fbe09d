import RowFilter.Expr

/-!
# The fields an expression reads

`Expr.fields` keeps the first leaf of each name. Adding leaves only extends the list at its end,
every name among the leaves has its field, and where leaves of one name look alike to a function,
the first result found among the fields is the first found among the leaves
(`findSome?_foldl_addField`).
-/

namespace RowFilter

namespace Expr

/-- A field joins the fields at their end, or they stay as they are because of its name. -/
theorem addField_cases (fields : List Field) (f : Field) :
    (∃ g ∈ fields, g.name = f.name ∧ addField fields f = fields) ∨
      ((∀ g ∈ fields, g.name ≠ f.name) ∧ addField fields f = fields ++ [f]) := by
  rw [addField]
  cases h : fields.any (·.name == f.name) with
  | true =>
    obtain ⟨g, hg, hname⟩ := List.any_eq_true.mp h
    exact Or.inl ⟨g, hg, eq_of_beq hname, rfl⟩
  | false =>
    refine Or.inr ⟨fun g hg hname => ?_, rfl⟩
    have := List.any_eq_false.mp h g hg
    exact this (beq_iff_eq.mpr hname)

theorem prefix_addField (fields : List Field) (f : Field) : fields <+: addField fields f := by
  rcases addField_cases fields f with ⟨_, _, _, h⟩ | ⟨_, h⟩
  · simp only [h, List.prefix_rfl]
  · simp only [h, List.prefix_append]

theorem prefix_foldl_addField (leaves : List Field) :
    ∀ fields, fields <+: leaves.foldl addField fields := by
  induction leaves with
  | nil => intro fields; exact List.prefix_refl fields
  | cons f leaves ih =>
    intro fields
    rw [List.foldl_cons]
    exact (prefix_addField fields f).trans (ih _)

/-- A name that is there already is not added again. -/
theorem nodup_addField {fields : List Field} (h : (fields.map (·.name)).Nodup) (f : Field) :
    ((addField fields f).map (·.name)).Nodup := by
  rcases addField_cases fields f with ⟨_, _, _, heq⟩ | ⟨hnew, heq⟩
  · rw [heq]
    exact h
  · rw [heq, List.map_append, List.map_singleton, List.nodup_append]
    refine ⟨h, List.pairwise_singleton _ _, fun name hname name' hname' => ?_⟩
    obtain ⟨g, hg, rfl⟩ := List.mem_map.mp hname
    rw [List.mem_singleton.mp hname']
    exact hnew g hg

theorem nodup_foldl_addField (leaves : List Field) :
    ∀ {fields}, (fields.map (·.name)).Nodup →
      ((leaves.foldl addField fields).map (·.name)).Nodup := by
  induction leaves with
  | nil => exact fun h => h
  | cons f leaves ih => exact fun h => ih (nodup_addField h f)

/-- The fields of an expression have distinct names. -/
theorem nodup_names_fields (e : Expr) : (e.fields.map (·.name)).Nodup :=
  nodup_foldl_addField e.leaves List.nodup_nil

/-- Nothing but leaves is added. -/
theorem mem_of_mem_foldl_addField {leaves : List Field} {g : Field} :
    ∀ {fields}, g ∈ leaves.foldl addField fields → g ∈ fields ∨ g ∈ leaves := by
  induction leaves with
  | nil => intro fields h; exact Or.inl h
  | cons f leaves ih =>
    intro fields h
    rw [List.foldl_cons] at h
    rcases ih h with hold | hrest
    · rcases addField_cases fields f with ⟨_, _, _, heq⟩ | ⟨_, heq⟩
      · rw [heq] at hold
        exact Or.inl hold
      · rw [heq] at hold
        rcases List.mem_append.mp hold with hfields | hf
        · exact Or.inl hfields
        · rw [List.mem_singleton.mp hf]
          exact Or.inr (List.mem_cons_self ..)
    · exact Or.inr (List.mem_cons_of_mem _ hrest)

/-- The first result among the fields is the first among the leaves, if the function treats all
leaves of one name alike. -/
theorem findSome?_foldl_addField {α : Type} {φ : Field → Option α} {leaves : List Field} :
    ∀ {fields}, (∀ f ∈ leaves, ∀ g ∈ fields ++ leaves, g.name = f.name → φ g = φ f) →
      (leaves.foldl addField fields).findSome? φ = (fields ++ leaves).findSome? φ := by
  induction leaves with
  | nil => intro fields _; rw [List.foldl_nil, List.append_nil]
  | cons f leaves ih =>
    intro fields alike
    have hf := alike f (List.mem_cons_self ..)
    rw [List.foldl_cons]
    rcases addField_cases fields f with ⟨g, hg, hname, heq⟩ | ⟨_, heq⟩
    · -- the repeated leaf adds nothing, because the field of its name comes before it
      have hskip : (fields ++ f :: leaves).findSome? φ = (fields ++ leaves).findSome? φ := by
        have hgf : φ g = φ f := hf g (List.mem_append_left _ hg) hname
        rw [List.findSome?_append, List.findSome?_append, List.findSome?_cons]
        cases hφ : φ f with
        | none => rfl
        | some a =>
          have hsome : (fields.findSome? φ).isSome := by
            rw [List.findSome?_isSome_iff]
            exact ⟨g, hg, by rw [hgf, hφ]; rfl⟩
          obtain ⟨b, hb⟩ := Option.isSome_iff_exists.mp hsome
          rw [hb]
          rfl
      rw [heq, hskip]
      refine ih fun f' hf' g' hg' => alike f' (List.mem_cons_of_mem _ hf') g' ?_
      rcases List.mem_append.mp hg' with h | h
      · exact List.mem_append_left _ h
      · exact List.mem_append_right _ (List.mem_cons_of_mem _ h)
    · have happend : fields ++ f :: leaves = (fields ++ [f]) ++ leaves := by simp
      rw [heq, happend]
      refine ih fun f' hf' g' hg' => alike f' (List.mem_cons_of_mem _ hf') g' ?_
      rw [happend]
      exact hg'

theorem mem_leaves_of_mem_fields {e : Expr} {f : Field} (h : f ∈ e.fields) : f ∈ e.leaves := by
  rcases mem_of_mem_foldl_addField h with hnil | hleaf
  · cases hnil
  · exact hleaf

/-- A field that joins others finds its name among them. -/
theorem exists_mem_addField (fields : List Field) (f : Field) :
    ∃ g ∈ addField fields f, g.name = f.name := by
  rcases addField_cases fields f with ⟨g, hg, hname, heq⟩ | ⟨-, heq⟩
  · rw [heq]
    exact ⟨g, hg, hname⟩
  · rw [heq]
    exact ⟨f, List.mem_append_right _ (List.mem_singleton_self f), rfl⟩

/-- The name of every leaf that joins fields is among them in the end. -/
theorem exists_mem_foldl_addField {leaves : List Field} {f : Field} (h : f ∈ leaves) :
    ∀ {fields}, ∃ g ∈ leaves.foldl addField fields, g.name = f.name := by
  induction leaves with
  | nil => cases h
  | cons leaf leaves ih =>
    intro fields
    rw [List.foldl_cons]
    rcases List.mem_cons.mp h with rfl | hrest
    · obtain ⟨g, hg, hname⟩ := exists_mem_addField fields f
      exact ⟨g, (prefix_foldl_addField leaves _).subset hg, hname⟩
    · exact ih hrest

/-- Every leaf has a field of its name. -/
theorem exists_mem_fields {e : Expr} {f : Field} (h : f ∈ e.leaves) :
    ∃ g ∈ e.fields, g.name = f.name :=
  exists_mem_foldl_addField h

end Expr

end RowFilter
