import Mathlib.Logic.Function.Basic
import RowFilter.Proofs.Registry.Keys

/-!
# A registry is a map

`Registry.table` is a registry by name: each name with an entry has the overloads stored there.
`Table.register` makes the entry before it looks for the operand types, which leaves no entry behind
without overloads (`register_table`). Main result: `isMap_registerAll`. Every registry there can be
is the map that its history says, with exact conditions for what is refused and for what is not
found, and signatures of different keys may be registered in any order.
-/

namespace RowFilter

namespace Registry

open Signature (first? first?_append exists_first?_iff first?_eq_some_iff first?_perm)

variable {r r' : Registry} {name : String} {args : List DataType} {s : Signature}

/-! ## By name -/

/-- The overloads stored for each name that has an entry. -/
abbrev Table := String → Option (List Signature)

/-- Adds an overload to those of its name. A name without an entry gets one before the operand types
are looked for, and also when the signature is refused then. -/
def Table.register (table : Table) (s : Signature) : Except Error Unit × Table :=
  let stored := (table s.name).getD []
  let entered := Function.update table s.name (some stored)
  if stored.any (·.args == s.args) then (.error (.signatureTaken s), entered)
  else (.ok (), Function.update entered s.name (some (stored ++ [s])))

def table (r : Registry) : Table := fun name =>
  if r.contains name then some (r.overloads name) else none

/-- No entry is without overloads. -/
theorem table_ne_some_nil (r : Registry) (name : String) : r.table name ≠ some [] := by
  rw [table]
  by_cases h : r.contains name = true
  · rw [if_pos h, ne_eq, Option.some_inj]
    exact contains_iff_overloads.mp h
  · rw [if_neg h]
    nofun

/-- A name without an entry has no overloads. -/
theorem getD_table (r : Registry) (name : String) :
    (r.table name).getD [] = r.overloads name := by
  rw [table]
  by_cases h : r.contains name = true
  · rw [if_pos h, Option.getD_some]
  · have hnone : r.overloads name = [] := by
      rwa [contains_iff_overloads, ne_eq, not_not] at h
    rw [if_neg h, Option.getD_none, hnone]

/-- A name with overloads has an entry. -/
theorem table_of_overloads (h : r.overloads name ≠ []) :
    r.table name = some (r.overloads name) := by
  rw [table, if_pos (contains_iff_overloads.mpr h)]

/-- **Registering by name**: a table answers as the registry does, and holds what that holds
afterwards. The name of a signature that is refused had an entry before. -/
theorem register_table (r : Registry) (s : Signature) :
    r.table.register s = ((r.register s).map fun _ => (), (r.attempt s).table) := by
  rw [Table.register, getD_table, attempt]
  by_cases htaken : (r.overloads s.name).any (·.args == s.args) = true
  · have hregister : r.register s = .error (.signatureTaken s) := if_pos htaken
    have hstored : r.overloads s.name ≠ [] := fun hnil => by simp [hnil] at htaken
    rw [if_pos htaken, hregister, ← table_of_overloads hstored, Function.update_eq_self]
    rfl
  · have hregister : r.register s = .ok ⟨r.signatures ++ [s]⟩ := if_neg htaken
    rw [if_neg htaken, hregister, Function.update_idem]
    refine Prod.ext rfl (funext fun name => ?_)
    dsimp only
    by_cases hname : name = s.name
    · have hover := overloads_of_register_self hregister
      rw [hname, Function.update_self, table_of_overloads (by simp [hover]), hover]
    · have hover := overloads_of_register_ne hregister hname
      rw [Function.update_of_ne hname, table, table, hover, contains_congr hover]

/-! ## The registries there can be -/

/-- Neither of the two registries to begin with has a key twice. -/
theorem keyed_of_initial (initial : r = empty ∨ r = builtin) : r.Keyed := by
  rcases initial with rfl | rfl
  · exact List.nodup_nil
  · exact keyed_builtin

theorem reachable_of_initial (initial : r = empty ∨ r = builtin) : r.Reachable := by
  rcases initial with rfl | rfl
  · exact .empty
  · exact .builtin

/-- Attempts to register signatures that were made lead to registries that there can be. -/
theorem Reachable.registerAll (h : r.Reachable) {attempts : List Signature}
    (made : ∀ s ∈ attempts, Signature.make s.name s.args s.ret s.kernel = .ok s) :
    (r.registerAll attempts).Reachable := by
  induction attempts generalizing r with
  | nil => exact h
  | cons s attempts ih =>
    rw [List.forall_mem_cons] at made
    refine ih ?_ made.2
    rw [attempt]
    cases registered : r.register s with
    | error e => exact h
    | ok r' => exact .register h made.1 registered

/-- A name is there just if it occurs in the history, if of that the registry has the first
signature of each key. -/
theorem contains_iff_of_first? {history : List Signature}
    (kept : ∀ k, first? r.signatures k = first? history k) :
    r.contains name = true ↔ ∃ s ∈ history, s.name = name := by
  have hkeys : ∀ signatures : List Signature, (∃ s ∈ signatures, s.name = name) ↔
      ∃ args s, first? signatures (name, args) = some s := by
    intro signatures
    simp only [exists_first?_iff, Signature.key, Prod.mk.injEq]
    constructor
    · rintro ⟨s, hs, hname⟩
      exact ⟨s.args, s, hs, hname, rfl⟩
    · rintro ⟨args, s, hs, hname, -⟩
      exact ⟨s, hs, hname⟩
  rw [contains_iff, hkeys, hkeys]
  simp only [kept]

/-- The registry is a map from names and operand types to signatures: of the signatures in its
history, which are those that it began with and those of all attempts since, it has the first of
each key. -/
structure IsMap (history : List Signature) (r : Registry) : Prop where
  /-- The overloads of a name differ in their operand types. -/
  distinct : ∀ name, ((r.overloads name).map (·.args)).Nodup
  /-- They have the name, and kernels that can run with their types. -/
  overload : ∀ name, ∀ s ∈ r.overloads name, s.name = name ∧ s.fits = true
  /-- A name that is there has an overload, also by name. -/
  nonempty : ∀ name, (r.contains name = true ↔ r.overloads name ≠ []) ∧ r.table name ≠ some []
  /-- By name, a signature is refused or added alike. -/
  by_name : ∀ s, r.table.register s = ((r.register s).map fun _ => (), (r.attempt s).table)
  /-- A signature is refused for an overload with its operand types, whatever else that has. -/
  refused_iff : ∀ s, (∃ e, r.register s = .error e ∧ e.kind = .invalidParameter) ↔
    ∃ s' ∈ r.overloads s.name, s'.args = s.args
  /-- There is no other reason to refuse one, and nothing that comes later shows that it was. -/
  refused : ∀ s e, r.register s = .error e → e.kind = .invalidParameter ∧
    ∀ later, (r.attempt s).registerAll later = r.registerAll later
  /-- A signature that is not refused is added to its name. -/
  added : ∀ s r', r.register s = .ok r' →
    r'.overloads s.name = r.overloads s.name ++ [s] ∧ r'.contains s.name = true ∧
      r'.resolve s.name s.args = .ok s
  /-- Nothing is changed about other names. -/
  framed : ∀ s r', r.register s = .ok r' → ∀ name, name ≠ s.name →
    r'.overloads name = r.overloads name ∧ r'.contains name = r.contains name ∧
      (∀ args, r'.resolve name args = r.resolve name args) ∧ (name ∈ r'.names ↔ name ∈ r.names)
  /-- Just the names that never occurred are unknown. -/
  unknown_iff : ∀ name args,
    (∃ e, r.resolve name args = .error e ∧ e.kind = .unknownFunction) ↔
      ∀ s ∈ history, s.name ≠ name
  /-- Other names are only known with certain operand types. -/
  mismatch_iff : ∀ name args,
    (∃ e, r.resolve name args = .error e ∧ e.kind = .typeMismatch) ↔
      (∃ s ∈ history, s.name = name) ∧ ∀ s ∈ r.overloads name, s.args ≠ args
  /-- What a call is resolved to is the one overload with its operand types. -/
  resolved_iff : ∀ name args s,
    r.resolve name args = .ok s ↔ s ∈ r.overloads name ∧ s.args = args
  unique : ∀ name, ∀ s ∈ r.overloads name, ∀ s' ∈ r.overloads name, s.args = s'.args → s = s'
  /-- It is the first of its key in the history. -/
  resolved_first : ∀ name args s,
    r.resolve name args = .ok s ↔ Signature.first? history (name, args) = some s
  ascending : r.names.Pairwise (· < ·)
  mem_names : ∀ name, name ∈ r.names ↔ r.contains name = true

/-- A registry without repeated keys is a map of whatever it keeps the first signatures of. -/
theorem Keyed.isMap (h : r.Keyed) (reachable : r.Reachable) {history : List Signature}
    (kept : ∀ k, first? r.signatures k = first? history k) : r.IsMap history where
  distinct := h.nodup_args
  overload name s hs := by
    rw [mem_overloads_iff] at hs
    exact ⟨hs.2, reachable.fits s hs.1⟩
  nonempty name := ⟨contains_iff_overloads, r.table_ne_some_nil name⟩
  by_name := r.register_table
  refused_iff s := by
    simp only [register_eq_error_iff, ← exists_key_iff]
    exact ⟨fun ⟨_, ⟨htaken, _⟩, _⟩ => htaken, fun htaken => ⟨_, ⟨htaken, rfl⟩, rfl⟩⟩
  refused s e he := by
    have hsame : r.attempt s = r := by rw [Registry.attempt, he]
    rw [register_eq_error_iff] at he
    exact ⟨by rw [he.2]; rfl, fun later => by rw [hsame]⟩
  added s r' hr' := by
    have hover := overloads_of_register_self hr'
    have hkeyed : r'.Keyed := by
      have hattempt := h.attempt s
      rwa [Registry.attempt, hr'] at hattempt
    have hmem : s ∈ r'.overloads s.name := by
      rw [hover]
      exact List.mem_append_right _ (List.mem_singleton_self s)
    exact ⟨hover, contains_iff_overloads.mpr (List.ne_nil_of_mem hmem),
      hkeyed.resolve_eq_ok_iff.mpr ⟨hmem, rfl⟩⟩
  framed s r' hr' name hname := by
    have hover := overloads_of_register_ne hr' hname
    have hcontains := contains_congr hover
    exact ⟨hover, hcontains, resolve_congr hover, by
      rw [mem_names_iff, mem_names_iff, hcontains]⟩
  unknown_iff name args := by
    rw [resolve_unknown_iff, ← Bool.not_eq_true, contains_iff_of_first? kept]
    simp only [not_exists, not_and, ne_eq]
  mismatch_iff name args := by
    rw [resolve_mismatch_iff, contains_iff_of_first? kept]
  resolved_iff name args s := h.resolve_eq_ok_iff
  unique name s hs s' hs' hargs := h.eq_of_args hs hs' hargs
  resolved_first name args s := by
    rw [resolve_eq_ok_iff_first?, kept]
  ascending := r.pairwise_names
  mem_names name := mem_names_iff

/-! ## The order of registration -/

/-- The registries answer alike, except that the overloads of a name may come in another order, also
in the wording of a mismatch of types, which lists them. -/
structure Agree (r r' : Registry) : Prop where
  contains_eq : ∀ name, r'.contains name = r.contains name
  overloads_perm : ∀ name, (r.overloads name).Perm (r'.overloads name)
  resolve_eq : ∀ name args,
    (r'.resolve name args).mapError Error.kind = (r.resolve name args).mapError Error.kind
  names_eq : r'.names = r.names

/-- Registries with the same signature for every key answer alike. -/
theorem Keyed.agree (h : r.Keyed) (h' : r'.Keyed)
    (hfirst : ∀ k, first? r'.signatures k = first? r.signatures k) : r.Agree r' where
  contains_eq := h.contains_eq_of_first? h' hfirst
  overloads_perm name := (h.perm_of_first? h' hfirst).filter _
  resolve_eq name args := by
    rw [Registry.resolve_eq, Registry.resolve_eq, hfirst, h.contains_eq_of_first? h' hfirst]
    cases first? r.signatures (name, args) with
    | some s => rfl
    | none =>
      cases r.contains name with
      | false => rfl
      | true => rfl
  names_eq := names_congr (h.contains_eq_of_first? h' hfirst)

/-- **A registry is a map**: whatever was registered or refused since it began without or with the
initial functions, it has the first signature of each key, and it answers for its names as
`Registry.IsMap` says. Signatures of which no two have one key may be registered in any order. -/
theorem isMap_registerAll {start : Registry} (initial : start = empty ∨ start = builtin)
    {attempts : List Signature}
    (made : ∀ s ∈ attempts, Signature.make s.name s.args s.ret s.kernel = .ok s) :
    (start.registerAll attempts).IsMap (start.signatures ++ attempts) ∧
      ∀ reordered, attempts.Perm reordered → (attempts.map Signature.key).Nodup →
        (start.registerAll attempts).Agree (start.registerAll reordered) := by
  have keyed := keyed_of_initial initial
  refine ⟨?_, fun reordered hperm distinct => ?_⟩
  · exact (keyed.registerAll attempts).isMap ((reachable_of_initial initial).registerAll made)
      (first?_registerAll start attempts)
  · refine (keyed.registerAll attempts).agree (keyed.registerAll reordered) fun k => ?_
    rw [first?_registerAll, first?_registerAll, first?_append, first?_append,
      first?_perm hperm distinct]

end Registry

/-- Another name for addition, and a second kernel for `add`. -/
def Sample.attempts : List Signature :=
  [⟨"plus", [.int64, .int64], .int64, .add⟩, ⟨"add", [.int64, .int64], .int64, .subtract⟩]

namespace Registry

/-- The alias is registered and `add` stays addition, in both orders. -/
theorem sample_map :
    (builtin.registerAll Sample.attempts).resolve "plus" [.int64, .int64] =
      .ok ⟨"plus", [.int64, .int64], .int64, .add⟩ ∧
    (builtin.registerAll Sample.attempts).resolve "add" [.int64, .int64] =
      .ok (builtinSignature .add [.int64, .int64] .int64) ∧
    (builtin.registerAll Sample.attempts).Agree (builtin.registerAll Sample.attempts.reverse) := by
  have made : ∀ s ∈ Sample.attempts, Signature.make s.name s.args s.ret s.kernel = .ok s := by
    simp only [Sample.attempts, List.forall_mem_cons]
    exact ⟨rfl, rfl, nofun⟩
  obtain ⟨hmap, hagree⟩ := isMap_registerAll (.inr rfl) made
  refine ⟨?_, ?_, hagree _ (List.reverse_perm _).symm (by decide)⟩
  · exact (hmap.resolved_first ..).mpr rfl
  · exact (hmap.resolved_first ..).mpr rfl

end Registry

end RowFilter
