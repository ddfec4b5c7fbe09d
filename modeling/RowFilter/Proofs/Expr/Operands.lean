import RowFilter.Proofs.Expr.Connectives
import RowFilter.Proofs.Registry.Map

/-!
# What the connectives take

A connective joins its operands by calls of its name, so an overload of that name for two numbers
lets it take numbers. `Builder.pairsUp` says when the types of several operands are right: two by
two from the left they are both boolean or both of one overloaded type, and an odd one out is
boolean. Main result: `connect_takes`. Two or more operands are joined just if their types are
right, and are otherwise refused for their types. So a connective takes boolean operands only, just
if no such overload was registered.
-/

namespace RowFilter

open Kernel

namespace Builder

/-! ## Levels of pairs -/

/-- Operands of these types are joined two by two, each two of one type that is boolean or one of
the `further` ones. An odd one out is boolean. -/
def pairsUp (further : DataType → Bool) : List DataType → Bool
  | l :: r :: rest => r == l && (l == .bool || further l) && pairsUp further rest
  | [t] => t == .bool
  | [] => true

theorem pairsUp_cons_cons_iff {further : DataType → Bool} {l r : DataType} {rest : List DataType} :
    pairsUp further (l :: r :: rest) = true ↔
      (r = l ∧ (l = .bool ∨ further l = true)) ∧ pairsUp further rest = true := by
  simp only [pairsUp, Bool.and_eq_true, Bool.or_eq_true, beq_iff_eq]

/-- The join takes any two operands of one type that is boolean or one of the `further` ones, and
no others. It makes a boolean expression of them. -/
structure JoinsPairs (join : Expr → Expr → Except Error Expr) (further : DataType → Bool) :
    Prop where
  joined_iff : ∀ l r : Expr, (∃ e, join l r = .ok e) ↔
    r.type = l.type ∧ (l.type = .bool ∨ further l.type = true)
  isBool : ∀ l r e, join l r = .ok e → e.type = .bool

section Levels

variable {join : Expr → Expr → Except Error Expr} {further : DataType → Bool}

/-- If all operands but the last are boolean, the last has nothing else to pair up with. -/
theorem isBool_of_pairsUp : ∀ {es : List Expr}, pairsUp further (es.map Expr.type) = true →
    (∀ a ∈ es.dropLast, a.type = .bool) → ∀ a ∈ es, a.type = .bool
  | [], _, _ => by simp
  | [e], h, _ => by simpa [pairsUp] using h
  | [l, r], h, hfront => by
    rw [List.map_cons, List.map_singleton, pairsUp_cons_cons_iff] at h
    have hl : l.type = .bool := hfront l (List.mem_singleton_self l)
    simpa using ⟨hl, h.1.1.trans hl⟩
  | l :: r :: e :: es, h, hfront => by
    rw [List.map_cons, List.map_cons, pairsUp_cons_cons_iff] at h
    rw [List.dropLast_cons_cons, List.dropLast_cons_cons, List.forall_mem_cons,
      List.forall_mem_cons] at hfront
    obtain ⟨hl, hr, hrest⟩ := hfront
    rw [List.forall_mem_cons, List.forall_mem_cons]
    exact ⟨hl, hr, isBool_of_pairsUp h.2 hrest⟩

/-- Without further types, only boolean ones pair up. -/
theorem pairsUp_iff_forall (h : ∀ t, further t = true → t = .bool) :
    ∀ {types : List DataType}, pairsUp further types = true ↔ ∀ t ∈ types, t = .bool
  | [] => by simp [pairsUp]
  | [t] => by simp [pairsUp]
  | l :: r :: rest => by
    have hl : l = .bool ∨ further l = true ↔ l = .bool := or_iff_left_of_imp (h l)
    rw [pairsUp_cons_cons_iff, pairsUp_iff_forall h, List.forall_mem_cons, List.forall_mem_cons, hl,
      ← and_assoc]
    refine and_congr_left fun _ => ?_
    constructor
    · rintro ⟨hsame, hbool⟩
      exact ⟨hbool, hsame.trans hbool⟩
    · rintro ⟨hbool, hbool'⟩
      exact ⟨hbool'.trans hbool.symm, hbool⟩

namespace JoinsPairs

variable (h : JoinsPairs join further)

include h

/-- A level of the right types is joined. -/
theorem exists_joinPairs : ∀ {es : List Expr}, pairsUp further (es.map Expr.type) = true →
    ∃ out, joinPairs join es = .ok out
  | [], _ => ⟨[], rfl⟩
  | [e], _ => ⟨[e], rfl⟩
  | l :: r :: rest, hpairs => by
    rw [List.map_cons, List.map_cons, pairsUp_cons_cons_iff] at hpairs
    obtain ⟨joined, hjoined⟩ := (h.joined_iff l r).mpr hpairs.1
    obtain ⟨joinedRest, hrest⟩ := exists_joinPairs hpairs.2
    refine ⟨joined :: joinedRest, ?_⟩
    rw [joinPairs, hjoined, hrest]
    rfl

/-- A level that was joined had the right types just if all of the next level is boolean. -/
theorem pairsUp_iff : ∀ {es out : List Expr}, joinPairs join es = .ok out →
    (pairsUp further (es.map Expr.type) = true ↔ ∀ a ∈ out, a.type = .bool)
  | [], out, hout => by
    cases hout
    simp [pairsUp]
  | [e], out, hout => by
    cases hout
    simp [pairsUp]
  | l :: r :: rest, out, hout => by
    obtain ⟨joined, joinedRest, hjoined, hrest, rfl⟩ := exists_of_joinPairs hout
    have hpair := (h.joined_iff l r).mp ⟨joined, hjoined⟩
    have hbool := h.isBool l r joined hjoined
    rw [List.map_cons, List.map_cons, pairsUp_cons_cons_iff, List.forall_mem_cons,
      pairsUp_iff hrest, iff_true_intro hpair, iff_true_intro hbool]

/-- Only an odd one out may be anything else. -/
theorem isBool_of_joinPairs : ∀ {es out : List Expr}, joinPairs join es = .ok out →
    ∀ a ∈ out.dropLast, a.type = .bool
  | [], out, hout => by
    cases hout
    simp
  | [e], out, hout => by
    cases hout
    simp
  | l :: r :: rest, out, hout => by
    obtain ⟨joined, joinedRest, hjoined, hrest, rfl⟩ := exists_of_joinPairs hout
    cases joinedRest with
    | nil => simp
    | cons e es =>
      rw [List.dropLast_cons_cons, List.forall_mem_cons]
      exact ⟨h.isBool l r joined hjoined, isBool_of_joinPairs hrest⟩

/-- All levels, from a boolean result back to the first one. -/
theorem pairsUp_of_joinAll {es : List Expr} {e : Expr} (he : joinAll join es = .ok (some e))
    (hbool : e.type = .bool) : pairsUp further (es.map Expr.type) = true := by
  refine joinAll_induct ?_ (fun l r rest next hpaired ih => ?_) he
  · simpa [pairsUp] using hbool
  · -- the next level is boolean but for an odd one out, and that pairs up with a boolean one or is
    -- alone, so it is boolean as well
    rw [h.pairsUp_iff hpaired]
    exact isBool_of_pairsUp ih (h.isBool_of_joinPairs hpaired)

/-- If the types are right, all levels but the first are boolean, so they can be joined. -/
theorem exists_joinAll_of_pairsUp {es : List Expr} (two : 2 ≤ es.length)
    (hpairs : pairsUp further (es.map Expr.type) = true) :
    ∃ e, joinAll join es = .ok (some e) := by
  have total : ∀ l r : Expr, l.type = .bool → r.type = .bool →
      ∃ e, join l r = .ok e ∧ e.type = .bool := by
    intro l r hl hr
    obtain ⟨e, he⟩ := (h.joined_iff l r).mpr ⟨hr.trans hl.symm, .inl hl⟩
    exact ⟨e, he, h.isBool l r e he⟩
  obtain ⟨next, hnext⟩ := h.exists_joinPairs hpairs
  have hall := (h.pairsUp_iff hnext).mp hpairs
  match es, two with
  | l :: r :: rest, _ =>
    obtain ⟨e, he, -⟩ := exists_joinAll total hall (ne_nil_of_joinPairs hnext)
    refine ⟨e, ?_⟩
    rw [joinAll_cons_cons, hnext]
    exact he

end JoinsPairs

end Levels

section Balanced

variable {b : Builder} {name : String} {operands : List Expr}

/-- What joins several operands is a call. -/
theorem type_of_balanced {e : Expr} (h : b.balanced name operands = .ok e) : e.type = .bool := by
  obtain ⟨two, hjoined⟩ := joined_of_balanced h
  cases hjoined with
  | single => exact absurd two (by simp)
  | node left right joined => exact Expr.type_of_call joined

/-- **Balancing takes pairs**: two or more operands are joined just if their types are right. -/
theorem exists_balanced_iff {further : DataType → Bool}
    (h : JoinsPairs (fun l r => b.call name [l, r] .bool) further) (two : 2 ≤ operands.length) :
    (∃ e, b.balanced name operands = .ok e) ↔
      pairsUp further (operands.map Expr.type) = true := by
  constructor
  · rintro ⟨e, he⟩
    exact h.pairsUp_of_joinAll (balanced_eq_ok_iff.mp he).2 (type_of_balanced he)
  · intro hpairs
    obtain ⟨e, he⟩ := h.exists_joinAll_of_pairsUp two hpairs
    exact ⟨e, balanced_eq_ok_iff.mpr ⟨two, he⟩⟩

/-- A call of a name that is there is only refused for the types of the operands or the result. -/
theorem kind_of_call_eq_error {args : List Expr} {ret : DataType} {err : Error}
    (stored : b.registry.contains name = true) (h : b.call name args ret = .error err) :
    err.kind = .typeMismatch := by
  rw [call, bind_eq_error_iff] at h
  obtain hresolve | ⟨s, -, h⟩ := h
  · rw [Registry.resolve_eq] at hresolve
    split at hresolve
    next => cases hresolve
    next =>
      rw [if_pos stored] at hresolve
      cases hresolve
      rfl
  · split at h
    next => cases h
    next =>
      cases h
      rfl

end Balanced

/-! ## Overloads of the connectives -/

/-- Of the signatures, the first one that has the name of the connective and takes two operands of
the type yields truth values. -/
def overloaded (signatures : List Signature) (d : Bool) (t : DataType) : Bool :=
  (Signature.first? signatures (Registry.builtinName (connective d), [t, t])).any (·.ret == .bool)

/-- A connective takes expressions that were built if there are at least two of them and all are
boolean. Two or more are refused for their types if any of them, wherever it stands, is not. -/
structure TakesBooleans (b : Builder) (d : Bool) : Prop where
  taken : ∀ operands : List Expr, (∀ a ∈ operands, a.Built) →
    ∀ e, b.connect d operands = .ok e → 2 ≤ operands.length ∧ ∀ a ∈ operands, a.type = .bool
  refused : ∀ operands : List Expr, (∀ a ∈ operands, a.Built) → 2 ≤ operands.length →
    (∃ a ∈ operands, a.type ≠ .bool) →
      ∃ err, b.connect d operands = .error err ∧ err.kind = .typeMismatch

section Attempts

variable {attempts : List Signature} {d : Bool} {t : DataType}

/-- From the start the connectives have overloads for boolean operands only. -/
theorem first?_builtin_connective (ht : t ≠ .bool) :
    Signature.first? Registry.builtin.signatures
      (Registry.builtinName (connective d), [t, t]) = none := by
  cases t with
  | bool => exact absurd rfl ht
  | null | int64 | float64 =>
    cases d with
    | false | true => rfl

/-- What joins two operands of another type is the first overload for them that was attempted. -/
theorem resolve_connective_iff (ht : t ≠ .bool) {s : Signature} :
    (extended attempts).registry.resolve (Registry.builtinName (connective d)) [t, t] = .ok s ↔
      Signature.first? attempts (Registry.builtinName (connective d), [t, t]) = some s := by
  rw [Registry.resolve_eq_ok_iff_first?, extended, Registry.first?_registerAll,
    Signature.first?_append, first?_builtin_connective ht, Option.none_or]

theorem contains_connective (attempts : List Signature) (d : Bool) :
    (extended attempts).registry.contains (Registry.builtinName (connective d)) = true := by
  obtain ⟨hmem, hname, -⟩ := Registry.mem_of_resolve (resolve_connective attempts d)
  exact Registry.contains_iff.mpr ⟨_, hmem, hname⟩

/-- Two or more operands are only refused for their types. -/
theorem kind_of_connect_eq_error {operands : List Expr} (two : 2 ≤ operands.length) {err : Error}
    (h : (extended attempts).connect d operands = .error err) : err.kind = .typeMismatch := by
  rw [connect_eq] at h
  obtain ⟨l, r, hcall⟩ := exists_of_balanced_eq_error two h
  exact kind_of_call_eq_error (contains_connective attempts d) hcall

variable (made : ∀ s ∈ attempts, Signature.make s.name s.args s.ret s.kernel = .ok s)

include made

/-- A signature that a call of two operands is resolved to takes them of one type. -/
theorem eq_of_resolve {name : String} {l r : DataType} {s : Signature}
    (h : (extended attempts).registry.resolve name [l, r] = .ok s) : r = l := by
  obtain ⟨hmem, -, hargs⟩ := Registry.mem_of_resolve h
  have hreachable := (Registry.reachable_of_initial (.inr rfl)).registerAll made
  have htyping := typing_of_accepts (hreachable.fits s hmem)
  rw [hargs] at htyping
  exact htyping.eq_of_pair

/-- The connectives join operands of one type that is boolean or overloaded. -/
theorem joinsPairs_extended (d : Bool) :
    JoinsPairs (fun l r => (extended attempts).call (Registry.builtinName (connective d)) [l, r]
      .bool) (overloaded attempts d) where
  joined_iff l r := by
    constructor
    · rintro ⟨e, he⟩
      obtain ⟨s, hresolve, hret, -⟩ := Expr.exists_of_call he
      rw [List.map_cons, List.map_singleton] at hresolve
      have hsame := eq_of_resolve made hresolve
      refine ⟨hsame, or_iff_not_imp_left.mpr fun hother => ?_⟩
      rw [hsame, resolve_connective_iff hother] at hresolve
      rw [overloaded, hresolve, Option.any_some, hret]
      rfl
    · rintro ⟨hsame, hjoined⟩
      by_cases hbool : l.type = .bool
      · exact ⟨_, call_connective hbool (hsame.trans hbool)⟩
      · have hover := hjoined.resolve_left hbool
        rw [overloaded, Option.any_eq_true] at hover
        obtain ⟨s, hfirst, hret⟩ := hover
        refine ⟨.call s [l, r], call_of_resolve ?_ (eq_of_beq hret)⟩
        rw [List.map_cons, List.map_singleton, hsame]
        exact (resolve_connective_iff hbool).mpr hfirst
  isBool l r e he := Expr.type_of_call he

/-- Whatever is joined has types that pair up. -/
theorem pairsUp_of_connect {operands : List Expr} {e : Expr}
    (h : (extended attempts).connect d operands = .ok e) :
    2 ≤ operands.length ∧ e.type = .bool ∧
      pairsUp (overloaded attempts d) (operands.map Expr.type) = true := by
  rw [connect_eq] at h
  have two := (balanced_eq_ok_iff.mp h).1
  exact ⟨two, type_of_balanced h, (exists_balanced_iff (joinsPairs_extended made d) two).mp ⟨e, h⟩⟩

theorem exists_connect_of_pairsUp {operands : List Expr} (two : 2 ≤ operands.length)
    (h : pairsUp (overloaded attempts d) (operands.map Expr.type) = true) :
    ∃ e, (extended attempts).connect d operands = .ok e := by
  rw [connect_eq]
  exact (exists_balanced_iff (joinsPairs_extended made d) two).mpr h

/-- A connective takes boolean operands only, if it is overloaded for no other type. -/
theorem takesBooleans_of_not_overloaded (h : ∀ t, overloaded attempts d t = true → t = .bool) :
    (extended attempts).TakesBooleans d where
  taken operands _ e he := by
    obtain ⟨two, -, hpairs⟩ := pairsUp_of_connect made he
    exact ⟨two, List.forall_mem_map.mp ((pairsUp_iff_forall h).mp hpairs)⟩
  refused operands _ two hother := by
    cases hconnect : (extended attempts).connect d operands with
    | error err => exact ⟨err, rfl, kind_of_connect_eq_error two hconnect⟩
    | ok e =>
      obtain ⟨a, ha, hne⟩ := hother
      obtain ⟨-, -, hpairs⟩ := pairsUp_of_connect made hconnect
      exact absurd (List.forall_mem_map.mp ((pairsUp_iff_forall h).mp hpairs) a ha) hne

/-- Two operands of an overloaded type are joined. -/
theorem exists_connect_pair {l r : Expr} (hl : overloaded attempts d l.type = true)
    (hr : r.type = l.type) : ∃ e, (extended attempts).connect d [l, r] = .ok e := by
  refine exists_connect_of_pairsUp made (Nat.le_refl 2) ?_
  rw [List.map_cons, List.map_singleton, pairsUp_cons_cons_iff]
  exact ⟨⟨hr, .inr hl⟩, rfl⟩

/-- Columns may have any type, so an overloaded one is boolean if nothing else is taken. -/
theorem TakesBooleans.eq_of_overloaded (h : (extended attempts).TakesBooleans d)
    (ht : overloaded attempts d t = true) : t = .bool := by
  obtain ⟨e, he⟩ := exists_connect_pair made (l := .field ⟨"x", t, true⟩)
    (r := .field ⟨"y", t, true⟩) ht rfl
  refine (h.taken _ ?_ e he).2 _ (List.mem_cons_self ..)
  simp only [List.forall_mem_cons]
  exact ⟨.field _, .field _, nofun⟩

end Attempts

/-- **What the connectives take**: fewer than two operands are refused. Whatever was registered
besides the initial functions, two or more are joined to a boolean expression if their types pair
up, and otherwise they are refused for their types. So only boolean operands are taken, just if the
connective is overloaded for no other type. -/
theorem connect_takes {attempts : List Signature}
    (made : ∀ s ∈ attempts, Signature.make s.name s.args s.ret s.kernel = .ok s) (d : Bool) :
    (∀ operands : List Expr, operands.length < 2 →
      ∃ err, (extended attempts).connect d operands = .error err ∧ err.kind = .invalidParameter) ∧
    (∀ operands : List Expr, 2 ≤ operands.length →
      (pairsUp (overloaded attempts d) (operands.map Expr.type) = true →
        ∃ e, (extended attempts).connect d operands = .ok e ∧ e.type = .bool) ∧
      (pairsUp (overloaded attempts d) (operands.map Expr.type) = false →
        ∃ err, (extended attempts).connect d operands = .error err ∧ err.kind = .typeMismatch)) ∧
    ((extended attempts).TakesBooleans d ↔ ∀ t, overloaded attempts d t = true → t = .bool) := by
  refine ⟨fun operands few => ?_, fun operands two => ⟨fun hpairs => ?_, fun hpairs => ?_⟩, ?_⟩
  · refine ⟨.tooFewOperands (Registry.builtinName (connective d)) operands.length, ?_, rfl⟩
    rw [connect_eq, balanced, if_pos few]
  · obtain ⟨e, he⟩ := exists_connect_of_pairsUp made two hpairs
    exact ⟨e, he, (pairsUp_of_connect made he).2.1⟩
  · cases hconnect : (extended attempts).connect d operands with
    | ok e =>
      rw [(pairsUp_of_connect made hconnect).2.2] at hpairs
      cases hpairs
    | error err => exact ⟨err, rfl, kind_of_connect_eq_error two hconnect⟩
  · exact ⟨fun h t ht => h.eq_of_overloaded made ht, takesBooleans_of_not_overloaded made⟩

end Builder

namespace Sample

/-- An overload of `and` for integers. -/
def integerEquality : Signature := ⟨"and", [.int64, .int64], .bool, .equal⟩

def integer (n : Int64) : Expr := .literal (.int64 n) .int64

end Sample

namespace Builder

/-- With the overload, two integers have a conjunction, but not three, which leave one that has to
be joined with a truth value. They have no disjunction, and without the overload no conjunction
either. -/
theorem sample_takes :
    (∃ e, (extended [Sample.integerEquality]).conjunction [Sample.integer 1, Sample.integer 2] =
      .ok e ∧ e.type = .bool) ∧
    (∃ err, (extended [Sample.integerEquality]).conjunction
      [Sample.integer 1, Sample.integer 2, Sample.integer 3] = .error err ∧
        err.kind = .typeMismatch) ∧
    (extended [Sample.integerEquality]).TakesBooleans true ∧ standard.TakesBooleans false := by
  have made : ∀ s ∈ [Sample.integerEquality],
      Signature.make s.name s.args s.ret s.kernel = .ok s := by
    simp only [List.forall_mem_cons]
    exact ⟨rfl, nofun⟩
  obtain ⟨-, hand, -⟩ := connect_takes made false
  obtain ⟨-, -, hor⟩ := connect_takes made true
  have made' : ∀ s ∈ ([] : List Signature),
      Signature.make s.name s.args s.ret s.kernel = .ok s := nofun
  obtain ⟨-, -, hstandard⟩ := connect_takes made' false
  have two : 2 ≤ [Sample.integer 1, Sample.integer 2].length := by decide
  have three : 2 ≤ [Sample.integer 1, Sample.integer 2, Sample.integer 3].length := by decide
  refine ⟨(hand _ two).1 rfl, (hand _ three).2 rfl, hor.mpr ?_, hstandard.mpr nofun⟩
  intro t ht
  cases t with
  | bool => rfl
  | null | int64 | float64 => cases ht

/-- Two integers that were built have a conjunction, after an overload was registered for them. -/
theorem conjunction_integers :
    Signature.make "and" [.int64, .int64] .bool .equal = .ok Sample.integerEquality ∧
    (∀ a ∈ [Sample.integer 1, Sample.integer 2], a.Built ∧ a.type ≠ .bool) ∧
    (extended [Sample.integerEquality]).conjunction [Sample.integer 1, Sample.integer 2] =
      .ok (.call Sample.integerEquality [Sample.integer 1, Sample.integer 2]) ∧
    ¬(extended [Sample.integerEquality]).TakesBooleans false := by
  have built : ∀ a ∈ [Sample.integer 1, Sample.integer 2], a.Built ∧ a.type ≠ .bool := by
    simp only [List.forall_mem_cons]
    exact ⟨⟨.literal (v := .int64 1) rfl, nofun⟩, ⟨.literal (v := .int64 2) rfl, nofun⟩, nofun⟩
  have hcall : (extended [Sample.integerEquality]).call "and" [Sample.integer 1, Sample.integer 2]
      .bool = .ok (.call Sample.integerEquality [Sample.integer 1, Sample.integer 2]) :=
    call_of_resolve rfl rfl
  have hjoined : (extended [Sample.integerEquality]).conjunction
      [Sample.integer 1, Sample.integer 2] =
        .ok (.call Sample.integerEquality [Sample.integer 1, Sample.integer 2]) := by
    refine balanced_eq_ok_iff.mpr ⟨Nat.le_refl 2, ?_⟩
    rw [joinAll_cons_cons, joinPairs, Registry.builtinName, hcall]
    simp only [joinPairs, ok_bind, pure_bind, joinAll]
  refine ⟨rfl, built, hjoined, fun h => ?_⟩
  have htaken := (h.taken _ (fun a ha => (built a ha).1) _ hjoined).2
  exact (built _ (List.mem_cons_self ..)).2 (htaken _ (List.mem_cons_self ..))

end Builder

end RowFilter
