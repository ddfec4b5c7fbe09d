import RowFilter.Expr.Builder
import RowFilter.Proofs.Fault
import Mathlib.Data.List.Forall2

/-!
# Balanced joins

Joining neighbours level by level is a way of putting brackets: `Builder.Joined join es e` holds if
`e` comes from the list `es`, without a change of order, by joining two at a time. Main result:
`joined_of_balanced`. Whatever the levels look like, this is how conjunctions and disjunctions of
many operands relate to their operands. Balancing succeeds if every two operands can be joined
(`exists_balanced`), and is refused only because some two cannot (`exists_of_balanced_eq_error`).
-/

namespace RowFilter

namespace Builder

/-- The expression comes from the list by joins of two parts that are next to each other. -/
inductive Joined (join : Expr → Expr → Except Error Expr) : List Expr → Expr → Prop
  | single (e : Expr) : Joined join [e] e
  | node {ls rs : List Expr} {l r e : Expr} (left : Joined join ls l) (right : Joined join rs r)
      (joined : join l r = .ok e) : Joined join (ls ++ rs) e

variable {join : Expr → Expr → Except Error Expr}

/-- What every join keeps holds of the result if it holds of the operands. -/
theorem Joined.induct {P : Expr → Prop} (step : ∀ l r e, P l → P r → join l r = .ok e → P e)
    {es : List Expr} {e : Expr} (h : Joined join es e) (hall : ∀ a ∈ es, P a) : P e := by
  induction h with
  | single e => exact hall e (List.mem_singleton_self e)
  | node left right joined ihl ihr =>
    refine step _ _ _ (ihl fun a ha => hall a ?_) (ihr fun a ha => hall a ?_) joined
    · exact List.mem_append_left _ ha
    · exact List.mem_append_right _ ha

/-- Two expressions and more are joined to one and what is joined of the others. -/
theorem exists_of_joinPairs {l r : Expr} {rest out : List Expr}
    (h : joinPairs join (l :: r :: rest) = .ok out) :
    ∃ joined joinedRest, join l r = .ok joined ∧ joinPairs join rest = .ok joinedRest ∧
      out = joined :: joinedRest := by
  rw [joinPairs] at h
  obtain ⟨joined, hjoined, h⟩ := bind_eq_ok_iff.mp h
  obtain ⟨joinedRest, hrest, h⟩ := bind_eq_ok_iff.mp h
  cases h
  exact ⟨joined, joinedRest, hjoined, hrest, rfl⟩

/-- One level: if every expression comes from a segment of a list, so does every expression of the
next level, and the segments still make up the list. -/
theorem joined_of_joinPairs : ∀ {segments : List (List Expr)} {es out : List Expr},
    List.Forall₂ (Joined join) segments es → joinPairs join es = .ok out →
      ∃ coarser, List.Forall₂ (Joined join) coarser out ∧ coarser.flatten = segments.flatten
  | segments, [], out, h, hout => by
    cases hout
    exact ⟨segments, h, rfl⟩
  | segments, [e], out, h, hout => by
    cases hout
    exact ⟨segments, h, rfl⟩
  | ls :: rs :: segments, l :: r :: rest, out, .cons hl (.cons hr h), hout => by
    obtain ⟨joined, joinedRest, hjoined, hrest, rfl⟩ := exists_of_joinPairs hout
    obtain ⟨coarser, hcoarser, hflatten⟩ := joined_of_joinPairs h hrest
    refine ⟨(ls ++ rs) :: coarser, .cons (.node hl hr hjoined) hcoarser, ?_⟩
    rw [List.flatten_cons, List.flatten_cons, List.flatten_cons, hflatten, List.append_assoc]

/-- Two or more expressions are joined level by level. -/
theorem joinAll_cons_cons (join : Expr → Expr → Except Error Expr) (l r : Expr)
    (rest : List Expr) :
    joinAll join (l :: r :: rest) = joinPairs join (l :: r :: rest) >>= joinAll join := by
  rw [joinAll]
  split
  next err herr => rw [herr]; rfl
  next next hnext =>
    show joinAll join next = _
    rw [hnext, ok_bind]

/-- What holds of a list of the result alone, and of each level if it does of the next one, holds of
all that was joined. -/
@[elab_as_elim]
theorem joinAll_induct {motive : List Expr → Prop} {es : List Expr} {e : Expr}
    (single : motive [e])
    (level : ∀ l r rest next, joinPairs join (l :: r :: rest) = .ok next → motive next →
      motive (l :: r :: rest))
    (he : joinAll join es = .ok (some e)) : motive es := by
  induction es using joinAll.induct join with
  | case1 =>
    rw [joinAll] at he
    cases he
  | case2 e' =>
    rw [joinAll] at he
    cases he
    exact single
  | case3 l r rest err hpaired =>
    rw [joinAll_cons_cons, hpaired] at he
    cases he
  | case4 l r rest next hpaired _ ih =>
    rw [joinAll_cons_cons, hpaired, ok_bind] at he
    exact level l r rest next hpaired (ih he)

/-- All levels. -/
theorem joined_of_joinAll {segments : List (List Expr)} {es : List Expr} {e : Expr}
    (h : List.Forall₂ (Joined join) segments es) (he : joinAll join es = .ok (some e)) :
    Joined join segments.flatten e := by
  have hall : ∀ segments, List.Forall₂ (Joined join) segments es →
      Joined join segments.flatten e := by
    refine joinAll_induct ?_ (fun l r rest next hpaired ih => ?_) he
    · intro segments h
      obtain ⟨segment, rest, hsegment, hrest, rfl⟩ := List.forall₂_cons_right_iff.mp h
      rw [List.forall₂_nil_right_iff.mp hrest, List.flatten_singleton]
      exact hsegment
    · intro segments h
      obtain ⟨coarser, hcoarser, hflatten⟩ := joined_of_joinPairs h hpaired
      rw [← hflatten]
      exact ih coarser hcoarser
  exact hall segments h

/-- Two or more operands have a result if the levels end with one. -/
theorem balanced_eq_ok_iff {b : Builder} {name : String} {operands : List Expr} {e : Expr} :
    b.balanced name operands = .ok e ↔
      2 ≤ operands.length ∧
        joinAll (fun l r => b.call name [l, r] .bool) operands = .ok (some e) := by
  rw [balanced]
  by_cases hfew : operands.length < 2
  · rw [if_pos hfew]
    exact ⟨nofun, fun ⟨two, _⟩ => absurd hfew (Nat.not_lt.mpr two)⟩
  · rw [if_neg hfew, bind_eq_ok_iff]
    constructor
    · rintro ⟨found, hfound, h⟩
      cases found with
      | none => cases h
      | some e' =>
        cases h
        exact ⟨Nat.not_lt.mp hfew, hfound⟩
    · rintro ⟨-, hfound⟩
      exact ⟨some e, hfound, rfl⟩

/-- **Balancing only puts brackets**: the result comes from the operands, of which there are at
least two, in their order, by calls of the binary function. -/
theorem joined_of_balanced {b : Builder} {name : String} {operands : List Expr} {e : Expr}
    (h : b.balanced name operands = .ok e) :
    2 ≤ operands.length ∧ Joined (fun l r => b.call name [l, r] .bool) operands e := by
  obtain ⟨two, hfound⟩ := balanced_eq_ok_iff.mp h
  -- to begin with, every operand makes up a segment of its own
  have hsingles : List.Forall₂ (Joined fun l r => b.call name [l, r] .bool)
      (operands.map ([·])) operands := by
    rw [List.forall₂_map_left_iff, List.forall₂_same]
    intro a _
    exact .single a
  have hjoined := joined_of_joinAll hsingles hfound
  rw [← List.flatMap_def, List.flatMap_singleton'] at hjoined
  exact ⟨two, hjoined⟩

/-! ## Balancing succeeds -/

section Total

variable {P : Expr → Prop}

/-- One level of joins that cannot fail. -/
theorem exists_joinPairs (total : ∀ l r, P l → P r → ∃ e, join l r = .ok e ∧ P e) :
    ∀ {es : List Expr}, (∀ a ∈ es, P a) →
      ∃ out, joinPairs join es = .ok out ∧ ∀ a ∈ out, P a
  | [], hall => ⟨[], rfl, hall⟩
  | [e], hall => ⟨[e], rfl, hall⟩
  | l :: r :: rest, hall => by
    simp only [List.forall_mem_cons] at hall
    obtain ⟨hl, hr, hrest⟩ := hall
    obtain ⟨joined, hjoined, hP⟩ := total l r hl hr
    obtain ⟨joinedRest, hjoinedRest, hPs⟩ := exists_joinPairs total hrest
    refine ⟨joined :: joinedRest, ?_, List.forall_mem_cons.mpr ⟨hP, hPs⟩⟩
    rw [joinPairs, hjoined, hjoinedRest]
    rfl

/-- A level is never joined to nothing. -/
theorem ne_nil_of_joinPairs {l r : Expr} {rest out : List Expr}
    (h : joinPairs join (l :: r :: rest) = .ok out) : out ≠ [] := by
  have hlength := length_joinPairs h
  rintro rfl
  simp at hlength
  omega

/-- All levels. -/
theorem exists_joinAll (total : ∀ l r, P l → P r → ∃ e, join l r = .ok e ∧ P e) {es : List Expr}
    (hall : ∀ a ∈ es, P a) (hne : es ≠ []) : ∃ e, joinAll join es = .ok (some e) ∧ P e := by
  induction es using joinAll.induct join with
  | case1 => exact absurd rfl hne
  | case2 e =>
    refine ⟨e, ?_, hall e (List.mem_singleton_self e)⟩
    rw [joinAll]
  | case3 l r rest err hpaired =>
    obtain ⟨out, hout, -⟩ := exists_joinPairs total hall
    rw [hpaired] at hout
    cases hout
  | case4 l r rest next hpaired _ ih =>
    obtain ⟨out, hout, hP⟩ := exists_joinPairs total hall
    rw [hpaired] at hout
    cases hout
    obtain ⟨e, he, hPe⟩ := ih hP (ne_nil_of_joinPairs hpaired)
    refine ⟨e, ?_, hPe⟩
    rw [joinAll_cons_cons, hpaired]
    exact he

/-- **Balancing succeeds** with at least two operands of some kind, if any two of the kind can be
joined and the result is of the kind again. -/
theorem exists_balanced {b : Builder} {name : String} {operands : List Expr}
    (total : ∀ l r, P l → P r → ∃ e, b.call name [l, r] .bool = .ok e ∧ P e)
    (hall : ∀ a ∈ operands, P a) (two : 2 ≤ operands.length) :
    ∃ e, b.balanced name operands = .ok e ∧ P e := by
  have hne : operands ≠ [] := by
    rintro rfl
    cases two
  obtain ⟨e, he, hP⟩ := exists_joinAll total hall hne
  exact ⟨e, balanced_eq_ok_iff.mpr ⟨two, he⟩, hP⟩

end Total

/-! ## Refusals -/

/-- A level is refused for a join in it. -/
theorem exists_of_joinPairs_eq_error {err : Error} : ∀ {es : List Expr},
    joinPairs join es = .error err → ∃ l r, join l r = .error err
  | [], h => by cases h
  | [e], h => by cases h
  | l :: r :: rest, h => by
    rw [joinPairs, bind_eq_error_iff] at h
    obtain hjoin | ⟨joined, -, h⟩ := h
    · exact ⟨l, r, hjoin⟩
    · obtain hrest | ⟨joinedRest, -, h⟩ := bind_eq_error_iff.mp h
      · exact exists_of_joinPairs_eq_error hrest
      · cases h

/-- All levels. -/
theorem exists_of_joinAll_eq_error {es : List Expr} {err : Error}
    (h : joinAll join es = .error err) : ∃ l r, join l r = .error err := by
  induction es using joinAll.induct join with
  | case1 =>
    rw [joinAll] at h
    cases h
  | case2 e =>
    rw [joinAll] at h
    cases h
  | case3 l r rest err' hpaired =>
    rw [joinAll_cons_cons, hpaired] at h
    cases h
    exact exists_of_joinPairs_eq_error hpaired
  | case4 l r rest next hpaired _ ih =>
    rw [joinAll_cons_cons, hpaired, ok_bind] at h
    exact ih h

/-- Only of nothing is nothing left. -/
theorem eq_nil_of_joinAll_eq_none {es : List Expr} (h : joinAll join es = .ok none) : es = [] := by
  induction es using joinAll.induct join with
  | case1 => rfl
  | case2 e =>
    rw [joinAll] at h
    cases h
  | case3 l r rest err hpaired =>
    rw [joinAll_cons_cons, hpaired] at h
    cases h
  | case4 l r rest next hpaired _ ih =>
    rw [joinAll_cons_cons, hpaired, ok_bind] at h
    exact absurd (ih h) (ne_nil_of_joinPairs hpaired)

/-- **Balancing is refused for a call**: two or more operands are only refused because some call of
the binary function is. -/
theorem exists_of_balanced_eq_error {b : Builder} {name : String} {operands : List Expr}
    {err : Error} (two : 2 ≤ operands.length) (h : b.balanced name operands = .error err) :
    ∃ l r, b.call name [l, r] .bool = .error err := by
  rw [balanced, if_neg (Nat.not_lt.mpr two)] at h
  obtain hlevels | ⟨found, hfound, h⟩ := bind_eq_error_iff.mp h
  · exact exists_of_joinAll_eq_error hlevels
  · cases found with
    | none =>
      rw [eq_nil_of_joinAll_eq_none hfound] at two
      cases two
    | some e => cases h

end Builder

end RowFilter
