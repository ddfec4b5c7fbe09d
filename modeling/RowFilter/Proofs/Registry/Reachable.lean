import RowFilter.Registry

/-!
# The registries there can be

`Registry.Reachable` holds of the registries that come from the two initial ones by registering
signatures that `Signature.make` has checked. Main result: `Reachable.fits`. Every signature of such
a registry has a kernel that can run with its types.
-/

namespace RowFilter

/-- A signature is made when its kernel can run with its types. -/
theorem Signature.fits_of_make {name : String} {args : List DataType} {ret : DataType}
    {kernel : Kernel} {s : Signature} (h : make name args ret kernel = .ok s) : s.fits = true := by
  rw [make] at h
  by_cases hfits : (⟨name, args, ret, kernel⟩ : Signature).fits = true
  · simp only [hfits, if_true] at h
    cases h
    exact hfits
  · simp only [hfits] at h
    cases h

namespace Registry

/-- The registries that come from an initial one by registering signatures that were made. -/
inductive Reachable : Registry → Prop
  | empty : Reachable empty
  | builtin : Reachable builtin
  | register {r r' : Registry} {name : String} {args : List DataType} {ret : DataType}
      {kernel : Kernel} {s : Signature} (h : Reachable r)
      (made : Signature.make name args ret kernel = .ok s) (registered : r.register s = .ok r') :
      Reachable r'

/-- A registered signature comes last. -/
theorem signatures_of_register {r r' : Registry} {s : Signature} (h : r.register s = .ok r') :
    r'.signatures = r.signatures ++ [s] := by
  rw [register] at h
  split at h
  next => cases h
  next => cases h; rfl

theorem builtin_fits : ∀ s ∈ builtin.signatures, s.fits = true := by
  decide

/-- **Registered kernels fit**: every signature of a registry that can come about has a kernel that
can run with its types. -/
theorem Reachable.fits {r : Registry} (h : r.Reachable) : ∀ s ∈ r.signatures, s.fits = true := by
  induction h with
  | empty => intro s hs; cases hs
  | builtin => exact builtin_fits
  | register h made registered ih =>
    intro s hs
    rw [signatures_of_register registered] at hs
    rcases List.mem_append.mp hs with hold | hnew
    · exact ih s hold
    · rw [List.mem_singleton.mp hnew]
      exact Signature.fits_of_make made

/-- A call is resolved to the first overload with the types of the operands. -/
theorem resolve_eq_ok_iff {r : Registry} {name : String} {args : List DataType} {s : Signature} :
    r.resolve name args = .ok s ↔ (r.overloads name).find? (·.args == args) = some s := by
  rw [resolve]
  cases (r.overloads name).find? (·.args == args) with
  | none =>
    by_cases h : r.contains name = true
    · simp only [h, if_true, reduceCtorEq]
    · simp only [h, reduceCtorEq]
      exact ⟨nofun, nofun⟩
  | some found => rw [Except.ok.injEq, Option.some_inj]

/-- What a call is resolved to is registered, with exactly the operand types of the call. -/
theorem mem_of_resolve {r : Registry} {name : String} {args : List DataType} {s : Signature}
    (h : r.resolve name args = .ok s) : s ∈ r.signatures ∧ s.name = name ∧ s.args = args := by
  rw [resolve_eq_ok_iff] at h
  -- only the overloads of the name are searched
  obtain ⟨hmem, hname⟩ := List.mem_filter.mp (List.mem_of_find?_eq_some h)
  have hargs := List.find?_some h
  exact ⟨hmem, eq_of_beq hname, eq_of_beq hargs⟩

end Registry

end RowFilter
