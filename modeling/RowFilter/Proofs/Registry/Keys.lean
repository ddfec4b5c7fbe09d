import Mathlib.Data.List.Nodup
import RowFilter.Proofs.Registry.Extension

/-!
# Keys

A name with operand types is a key. An attempt to register a signature adds it just if its key is
new, so no two signatures of a registry have the same one (`Registry.Keyed`). Main result:
`first?_registerAll`. Of all signatures with a key the first is kept, whatever is attempted later.
-/

namespace RowFilter

namespace Signature

/-- What a call is resolved by. -/
def key (s : Signature) : String × List DataType := (s.name, s.args)

/-- The first signature of a key. -/
def first? (signatures : List Signature) (k : String × List DataType) : Option Signature :=
  signatures.find? fun s => s.key = k

theorem first?_append (first second : List Signature) (k : String × List DataType) :
    first? (first ++ second) k = (first? first k).or (first? second k) := List.find?_append

/-- There is a first signature with a key if there is any. -/
theorem exists_first?_iff {signatures : List Signature} {k : String × List DataType} :
    (∃ s, first? signatures k = some s) ↔ ∃ s ∈ signatures, s.key = k := by
  rw [← Option.isSome_iff_exists, first?, List.find?_isSome]
  simp

/-- If no key occurs twice, the first signature of a key is any of that key. -/
theorem first?_eq_some_iff {signatures : List Signature} (h : (signatures.map key).Nodup)
    {k : String × List DataType} {s : Signature} :
    first? signatures k = some s ↔ s ∈ signatures ∧ s.key = k := by
  constructor
  · intro hfirst
    exact ⟨List.mem_of_find?_eq_some hfirst, by simpa using List.find?_some hfirst⟩
  · rintro ⟨hmem, hkey⟩
    obtain ⟨s', hs'⟩ := exists_first?_iff.mpr ⟨s, hmem, hkey⟩
    have hkey' : s'.key = k := by simpa using List.find?_some hs'
    rw [hs',
      List.inj_on_of_nodup_map h (List.mem_of_find?_eq_some hs') hmem (hkey'.trans hkey.symm)]

/-- Without repeated keys the order does not matter. -/
theorem first?_perm {signatures reordered : List Signature} (h : signatures.Perm reordered)
    (distinct : (signatures.map key).Nodup) (k : String × List DataType) :
    first? reordered k = first? signatures k := by
  have distinct' : (reordered.map key).Nodup := (h.map key).nodup_iff.mp distinct
  refine Option.ext fun s => ?_
  rw [first?_eq_some_iff distinct, first?_eq_some_iff distinct', h.mem_iff]

end Signature

/-- Erasing repeated elements leaves none. -/
theorem nodup_eraseDups {α : Type} [BEq α] [LawfulBEq α] (l : List α) : l.eraseDups.Nodup := by
  induction hn : l.length using Nat.strongRecOn generalizing l with
  | ind n ih =>
    cases l with
    | nil => exact List.nodup_nil
    | cons a l =>
      have hshorter : (l.filter fun b => !b == a).length < n :=
        hn ▸ Nat.lt_succ_of_le (List.length_filter_le ..)
      have hnew : a ∉ (l.filter fun b => !b == a).eraseDups := by simp [List.mem_eraseDups]
      rw [List.eraseDups_cons, List.nodup_cons]
      exact ⟨hnew, ih _ hshorter _ rfl⟩

namespace Registry

open Signature (first? first?_append exists_first?_iff first?_eq_some_iff first?_perm)

variable {r r' : Registry} {name : String} {args : List DataType} {s : Signature}

/-! ## Reading -/

/-- The overloads of a name are the signatures with that name. -/
theorem mem_overloads_iff : s ∈ r.overloads name ↔ s ∈ r.signatures ∧ s.name = name := by
  rw [overloads, List.mem_filter, beq_iff_eq]

/-- A name is known if some signature has it. -/
theorem contains_iff : r.contains name = true ↔ ∃ s ∈ r.signatures, s.name = name := by
  simp only [contains, List.any_eq_true, beq_iff_eq]

/-- A name that is there has an overload. -/
theorem contains_iff_overloads : r.contains name = true ↔ r.overloads name ≠ [] := by
  simp only [contains_iff, ← mem_overloads_iff]
  exact ⟨fun ⟨_, hs⟩ => List.ne_nil_of_mem hs, List.exists_mem_of_ne_nil _⟩

/-- Searching the overloads of a name finds the first signature with the key. -/
theorem find?_overloads (r : Registry) (name : String) (args : List DataType) :
    (r.overloads name).find? (·.args == args) = first? r.signatures (name, args) := by
  rw [overloads, List.find?_filter, first?]
  refine congrArg (List.find? · r.signatures) (funext fun s => ?_)
  simp [Signature.key]

/-- A key that is not there is reported for the name or else for the operand types. -/
theorem resolve_eq (r : Registry) (name : String) (args : List DataType) :
    r.resolve name args =
      match first? r.signatures (name, args) with
      | some s => .ok s
      | none =>
        if r.contains name then .error (.noSignature name args (r.overloads name))
        else .error (.unknownFunction name) := by
  cases hfirst : first? r.signatures (name, args) with
  | none => simp only [resolve, find?_overloads, hfirst]
  | some s => simp only [resolve, find?_overloads, hfirst]

/-- A call resolves to the first signature with its key. -/
theorem resolve_eq_ok_iff_first? :
    r.resolve name args = .ok s ↔ first? r.signatures (name, args) = some s := by
  rw [resolve_eq_ok_iff, find?_overloads]

/-- Only a name that is not there is unknown. -/
theorem resolve_unknown_iff :
    (∃ e, r.resolve name args = .error e ∧ e.kind = .unknownFunction) ↔
      r.contains name = false := by
  rw [resolve_eq]
  cases hfirst : first? r.signatures (name, args) with
  | some s =>
    obtain ⟨s', hmem, hkey⟩ := exists_first?_iff.mp ⟨s, hfirst⟩
    have hname : r.contains name = true :=
      contains_iff.mpr ⟨s', hmem, congrArg Prod.fst hkey⟩
    simp [hname]
  | none =>
    cases r.contains name with
    | false => exact ⟨fun _ => rfl, fun _ => ⟨_, rfl, rfl⟩⟩
    | true => simp [Error.kind]

/-- A name that is there, but not with the operand types, is a mismatch of types. -/
theorem resolve_mismatch_iff :
    (∃ e, r.resolve name args = .error e ∧ e.kind = .typeMismatch) ↔
      r.contains name = true ∧ ∀ s ∈ r.overloads name, s.args ≠ args := by
  have hnone : (∀ s ∈ r.overloads name, s.args ≠ args) ↔
      first? r.signatures (name, args) = none := by
    rw [← find?_overloads, List.find?_eq_none]
    simp
  rw [hnone, resolve_eq]
  cases first? r.signatures (name, args) with
  | some s => simp
  | none =>
    cases r.contains name with
    | false => simp [Error.kind]
    | true => exact ⟨fun _ => ⟨rfl, rfl⟩, fun _ => ⟨_, rfl, rfl⟩⟩

/-- What is answered about a name depends on its overloads only. -/
theorem contains_congr (h : r'.overloads name = r.overloads name) :
    r'.contains name = r.contains name := by
  rw [Bool.eq_iff_iff, contains_iff_overloads, contains_iff_overloads, h]

/-- A call is resolved by the overloads of its name alone. -/
theorem resolve_congr (h : r'.overloads name = r.overloads name) (args : List DataType) :
    r'.resolve name args = r.resolve name args := by
  rw [resolve, resolve, h, contains_congr h]

/-- The names that are listed are those that are known. -/
theorem mem_names_iff : name ∈ r.names ↔ r.contains name = true := by
  rw [names, List.mem_mergeSort, List.mem_eraseDups, List.mem_map, contains_iff]

/-- No name is listed twice. -/
theorem nodup_names (r : Registry) : r.names.Nodup :=
  (List.mergeSort_perm _ _).nodup_iff.mpr (nodup_eraseDups _)

/-- Names are listed in strictly ascending order. -/
theorem pairwise_names (r : Registry) : r.names.Pairwise (· < ·) := by
  have hsorted : r.names.Pairwise fun a b => decide (a ≤ b) = true :=
    List.pairwise_mergeSort
      (fun a b c hab hbc => by
        rw [decide_eq_true_eq] at hab hbc ⊢
        exact String.le_trans hab hbc)
      (fun a b => by simpa using String.le_total a b) _
  refine hsorted.imp₂ (fun a b hle hne => ?_) r.nodup_names
  rw [decide_eq_true_eq] at hle
  exact String.not_le.mp fun hge => hne (String.le_antisymm hle hge)

/-- So the list of names is determined by which names are there. -/
theorem names_congr (h : ∀ name, r'.contains name = r.contains name) : r'.names = r.names := by
  have hperm : r'.names.Perm r.names :=
    (List.perm_ext_iff_of_nodup r'.nodup_names r.nodup_names).mpr fun name => by
      rw [mem_names_iff, mem_names_iff, h]
  refine hperm.eq_of_pairwise (fun a b _ _ hab hba => ?_) r'.pairwise_names r.pairwise_names
  exact absurd hba (String.lt_asymm hab)

/-! ## Registering -/

/-- A signature joins the others at their end, or it is refused because of its key. -/
theorem register_cases (r : Registry) (s : Signature) :
    ((∃ s' ∈ r.signatures, s'.key = s.key) ∧ r.register s = .error (.signatureTaken s)) ∨
      ((∀ s' ∈ r.signatures, s'.key ≠ s.key) ∧ r.register s = .ok ⟨r.signatures ++ [s]⟩) := by
  have htaken : (r.overloads s.name).any (·.args == s.args) = true ↔
      ∃ s' ∈ r.signatures, s'.key = s.key := by
    simp [List.any_eq_true, mem_overloads_iff, Signature.key, and_assoc]
  rw [register]
  by_cases h : (r.overloads s.name).any (·.args == s.args) = true
  · exact Or.inl ⟨htaken.mp h, if_pos h⟩
  · refine Or.inr ⟨fun s' hs' hkey => h (htaken.mpr ⟨s', hs', hkey⟩), if_neg h⟩

/-- The overloads after a signature was added. -/
theorem overloads_of_register (h : r.register s = .ok r') (name : String) :
    r'.overloads name = r.overloads name ++ if s.name = name then [s] else [] := by
  rw [overloads, signatures_of_register h, List.filter_append, ← overloads]
  by_cases hname : s.name = name
  · simp [hname]
  · simp [hname]

/-- A registration adds one overload, the last, to its name. -/
theorem overloads_of_register_self (h : r.register s = .ok r') :
    r'.overloads s.name = r.overloads s.name ++ [s] := by
  rw [overloads_of_register h, if_pos rfl]

/-- Nothing is added to other names. -/
theorem overloads_of_register_ne (h : r.register s = .ok r') (hname : name ≠ s.name) :
    r'.overloads name = r.overloads name := by
  rw [overloads_of_register h, if_neg hname.symm, List.append_nil]

/-- A registration is refused only if its key is taken. -/
theorem register_eq_error_iff {e : Error} :
    r.register s = .error e ↔ (∃ s' ∈ r.signatures, s'.key = s.key) ∧ e = .signatureTaken s := by
  rcases register_cases r s with ⟨htaken, h⟩ | ⟨hnew, h⟩
  · rw [h, Except.error.injEq]
    exact ⟨fun he => ⟨htaken, he.symm⟩, fun he => he.2.symm⟩
  · rw [h]
    constructor
    · nofun
    · rintro ⟨⟨s', hs', hkey⟩, -⟩
      exact absurd hkey (hnew s' hs')

/-- A key is taken if an overload of the name has the operand types. -/
theorem exists_key_iff : (∃ s' ∈ r.signatures, s'.key = s.key) ↔
    ∃ s' ∈ r.overloads s.name, s'.args = s.args := by
  simp [mem_overloads_iff, Signature.key, and_assoc]

/-- A registration adds its signature at the end, or it finds its key taken and changes nothing. -/
theorem attempt_cases (r : Registry) (s : Signature) :
    ((∃ s' ∈ r.signatures, s'.key = s.key) ∧ r.attempt s = r) ∨
      ((∀ s' ∈ r.signatures, s'.key ≠ s.key) ∧ r.attempt s = ⟨r.signatures ++ [s]⟩) := by
  rcases register_cases r s with ⟨htaken, h⟩ | ⟨hnew, h⟩
  · exact Or.inl ⟨htaken, by rw [attempt, h]⟩
  · exact Or.inr ⟨hnew, by rw [attempt, h]⟩

/-- For what is first, a refused signature might as well have come last. -/
theorem first?_attempt (r : Registry) (s : Signature) (k : String × List DataType) :
    first? (r.attempt s).signatures k = first? (r.signatures ++ [s]) k := by
  rcases attempt_cases r s with ⟨htaken, h⟩ | ⟨-, h⟩
  · rw [h, first?_append]
    by_cases hk : s.key = k
    · obtain ⟨found, hfound⟩ := exists_first?_iff.mpr (hk ▸ htaken)
      rw [hfound, Option.some_or]
    · have hnone : first? [s] k = none := by simp [first?, hk]
      rw [hnone, Option.or_none]
  · rw [h]

/-- **The first is kept**: after attempts to register several signatures, each key has the first of
them, unless the registry had one before. -/
theorem first?_registerAll (r : Registry) (signatures : List Signature)
    (k : String × List DataType) :
    first? (r.registerAll signatures).signatures k = first? (r.signatures ++ signatures) k := by
  induction signatures generalizing r with
  | nil => rw [List.append_nil]; rfl
  | cons s signatures ih =>
    have hstep : r.registerAll (s :: signatures) = (r.attempt s).registerAll signatures := rfl
    rw [hstep, ih, first?_append, first?_attempt, ← first?_append, List.append_assoc]
    rfl

/-! ## Keys -/

/-- No two signatures have a key in common. -/
def Keyed (r : Registry) : Prop := (r.signatures.map Signature.key).Nodup

theorem keyed_builtin : builtin.Keyed := by
  unfold Keyed
  decide +kernel

/-- A registration never makes two signatures with one key. -/
theorem Keyed.attempt (h : r.Keyed) (s : Signature) : (r.attempt s).Keyed := by
  rcases attempt_cases r s with ⟨-, heq⟩ | ⟨hnew, heq⟩
  · rw [heq]
    exact h
  · rw [heq, Keyed, List.map_append, List.nodup_append]
    refine ⟨h, List.nodup_singleton _, fun k hk k' hk' => ?_⟩
    obtain ⟨s', hs', rfl⟩ := List.mem_map.mp hk
    rw [List.mem_singleton.mp hk']
    exact hnew s' hs'

/-- No run of registrations makes two signatures with one key. -/
theorem Keyed.registerAll (h : r.Keyed) (signatures : List Signature) :
    (r.registerAll signatures).Keyed := by
  induction signatures generalizing r with
  | nil => exact h
  | cons s signatures ih => exact ih (h.attempt s)

/-- An overload is told from the others of its name by its operand types. -/
theorem Keyed.eq_of_args (h : r.Keyed) {s' : Signature} (hs : s ∈ r.overloads name)
    (hs' : s' ∈ r.overloads name) (hargs : s.args = s'.args) : s = s' := by
  rw [mem_overloads_iff] at hs hs'
  exact List.inj_on_of_nodup_map h hs.1 hs'.1 (Prod.ext (hs.2.trans hs'.2.symm) hargs)

/-- No two overloads of a name take the same operand types. -/
theorem Keyed.nodup_args (h : r.Keyed) (name : String) :
    ((r.overloads name).map (·.args)).Nodup := by
  have hdistinct : (r.overloads name).Nodup :=
    (List.Nodup.of_map _ h).sublist List.filter_sublist
  exact hdistinct.map_on fun s hs s' hs' hargs => h.eq_of_args hs hs' hargs

/-- A call resolves to the overload that takes its operand types. -/
theorem Keyed.resolve_eq_ok_iff (h : r.Keyed) :
    r.resolve name args = .ok s ↔ s ∈ r.overloads name ∧ s.args = args := by
  rw [resolve_eq_ok_iff_first?, first?_eq_some_iff h, mem_overloads_iff, Signature.key,
    Prod.mk.injEq, and_assoc]

/-- Keyed registries with the same first signature for every key have the same signatures. -/
theorem Keyed.perm_of_first? (h : r.Keyed) (h' : r'.Keyed)
    (hfirst : ∀ k, first? r'.signatures k = first? r.signatures k) :
    r.signatures.Perm r'.signatures := by
  refine (List.perm_ext_iff_of_nodup (.of_map _ h) (.of_map _ h')).mpr fun s => ?_
  have hmem := hfirst s.key
  rw [Option.ext_iff] at hmem
  simpa [first?_eq_some_iff h, first?_eq_some_iff h', iff_comm] using hmem s

theorem Keyed.contains_eq_of_first? (h : r.Keyed) (h' : r'.Keyed)
    (hfirst : ∀ k, first? r'.signatures k = first? r.signatures k) (name : String) :
    r'.contains name = r.contains name :=
  (h.perm_of_first? h' hfirst).any_eq.symm

end Registry

end RowFilter
