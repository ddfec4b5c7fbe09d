import RowFilter.Proofs.Expr.Typing

/-!
# An expression reads the cells of its fields

Main result: `Expr.denote_congr`. An expression denotes the same in two rows, of one batch or of
two, in which its fields have the same cells.
-/

namespace RowFilter

namespace Expr

section Congr

variable {b b' : Batch} {row row' : Nat}

theorem denoteList_congr {args : List Expr} (h : ∀ a ∈ args, a.denote b row = a.denote b' row') :
    denoteList b row args = denoteList b' row' args := by
  induction args with
  | nil => rfl
  | cons a args ih =>
    rw [denoteList, denoteList, h a (List.mem_cons_self ..),
      ih fun a ha => h a (List.mem_cons_of_mem _ ha)]

theorem denote_congr_of_leaves {e : Expr} (h : ∀ f ∈ e.leaves, b.cell? f row = b'.cell? f row') :
    e.denote b row = e.denote b' row' := by
  induction e with
  | field f =>
    rw [denote_field, denote_field]
    exact h f (List.mem_singleton_self f)
  | literal v type => rfl
  | call signature args ih =>
    rw [denote_call, denote_call, denoteList_congr fun a ha => ih a ha fun f hf =>
      h f (mem_leavesList ha hf)]

/-- **Locality**: only the cells of the fields matter. -/
theorem denote_congr {e : Expr} (h : ∀ f ∈ e.fields, b.cell? f row = b'.cell? f row') :
    e.denote b row = e.denote b' row' := by
  refine denote_congr_of_leaves fun f hf => ?_
  obtain ⟨g, hg, hname⟩ := exists_mem_fields hf
  rw [← Batch.cell?_congr hname, ← Batch.cell?_congr hname]
  exact h g hg

end Congr

end Expr

end RowFilter
