/-!
# Checks that report the first fault

Binding an expression and looking up columns go through their input once and stop at the first
thing that is wrong. Both are proved to be a check that may find a fault followed by a
computation that cannot fail: `unlessFault fault a`. `mapM_eq_unlessFault` is the law for lists:
the first fault of the list decides, and without one every element is computed.
-/

namespace RowFilter

variable {α β ε : Type}

/-- The value, unless there is a fault. -/
def unlessFault (fault : Option ε) (a : α) : Except ε α :=
  match fault with
  | some e => .error e
  | none => .ok a

@[simp] theorem unlessFault_some (e : ε) (a : α) : unlessFault (some e) a = .error e := rfl

@[simp] theorem unlessFault_none (a : α) : unlessFault (none : Option ε) a = .ok a := rfl

theorem unlessFault_eq_ok_iff {fault : Option ε} {a b : α} :
    unlessFault fault a = .ok b ↔ fault = none ∧ a = b := by
  cases fault with
  | none => simp
  | some e => simp

theorem unlessFault_eq_error_iff {fault : Option ε} {a : α} {e : ε} :
    unlessFault fault a = .error e ↔ fault = some e := by
  cases fault with
  | none => simp
  | some e' => simp

/-- One computation after another: the fault of the first comes first. -/
theorem unlessFault_bind (fault : Option ε) (a : α) (f : α → Except ε β) :
    (unlessFault fault a >>= f) = fault.elim (f a) .error := by
  cases fault with
  | none => rfl
  | some e => rfl

/-- A list of computations stops at the first fault. -/
theorem mapM_eq_unlessFault {f : α → Except ε β} {fault : α → Option ε} {g : α → β} :
    ∀ {l : List α}, (∀ a ∈ l, f a = unlessFault (fault a) (g a)) →
      l.mapM f = unlessFault (l.findSome? fault) (l.map g) := by
  intro l
  induction l with
  | nil => intro _; rfl
  | cons a l ih =>
    intro h
    have ha : f a = unlessFault (fault a) (g a) := h a (List.mem_cons_self ..)
    have hl := ih fun b hb => h b (List.mem_cons_of_mem _ hb)
    rw [List.mapM_cons, ha, hl, List.findSome?_cons]
    cases fault a with
    | some e => rfl
    | none =>
      cases l.findSome? fault with
      | some e => rfl
      | none => rfl

/-- A list of computations that all succeed. -/
theorem mapM_eq_ok {f : α → Except ε β} {g : α → β} {l : List α} (h : ∀ a ∈ l, f a = .ok (g a)) :
    l.mapM f = .ok (l.map g) := by
  have hnone : l.findSome? (fun _ => (none : Option ε)) = none :=
    List.findSome?_eq_none_iff.mpr fun _ _ => rfl
  rw [@mapM_eq_unlessFault _ _ _ f (fun _ => none) g l h, hnone, unlessFault_none]

/-- Computations that all succeed leave their values. -/
theorem exists_map_eq_map_ok {f : α → Except ε β} {l : List α} (h : ∀ a ∈ l, ∃ b, f a = .ok b) :
    ∃ bs : List β, l.map f = bs.map .ok := by
  induction l with
  | nil => exact ⟨[], rfl⟩
  | cons a l ih =>
    obtain ⟨b, hb⟩ := h a (List.mem_cons_self ..)
    obtain ⟨bs, hbs⟩ := ih fun a ha => h a (List.mem_cons_of_mem _ ha)
    exact ⟨b :: bs, by rw [List.map_cons, hb, hbs]; rfl⟩

/-- Values that are all there. -/
theorem mapM_id_map_ok (l : List α) : (l.map Except.ok).mapM id = (.ok l : Except ε (List α)) := by
  induction l with
  | nil => rfl
  | cons a l ih =>
    rw [List.map_cons, List.mapM_cons, ih]
    rfl

@[simp] theorem ok_bind (a : α) (f : α → Except ε β) : ((.ok a : Except ε α) >>= f) = f a := rfl

/-- A computation in two steps succeeds when both steps do. -/
theorem bind_eq_ok_iff {x : Except ε α} {f : α → Except ε β} {b : β} :
    (x >>= f) = .ok b ↔ ∃ a, x = .ok a ∧ f a = .ok b := by
  cases x with
  | error e => simp [bind, Except.bind]
  | ok a => simp [bind, Except.bind]

/-- It is refused by the first step, or by the second one after that. -/
theorem bind_eq_error_iff {x : Except ε α} {f : α → Except ε β} {e : ε} :
    (x >>= f) = .error e ↔ x = .error e ∨ ∃ a, x = .ok a ∧ f a = .error e := by
  cases x with
  | error e' => simp [bind, Except.bind]
  | ok a => simp [bind, Except.bind]

theorem toOption_eq_some_iff {x : Except ε α} {a : α} : x.toOption = some a ↔ x = .ok a := by
  cases x with
  | error e => simp [Except.toOption]
  | ok b => simp [Except.toOption]

/-- A computation in two steps yields a value when both steps do. -/
@[simp] theorem toOption_bind (x : Except ε α) (f : α → Except ε β) :
    (x >>= f).toOption = x.toOption.bind fun a => (f a).toOption := by
  cases x with
  | error e => rfl
  | ok a => rfl

end RowFilter
