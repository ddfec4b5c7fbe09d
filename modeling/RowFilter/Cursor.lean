/-!
# Cursors

A `Cursor` reads what has a length and an item at every position below it, one item at each step
and from front to back. `Cursor.toList` is the run to the end, `Cursor.take` one that may stop
before. The selection or source that is read does not change; only the position does.
-/

namespace RowFilter

/-- A position in something that can be read at every position below its length. -/
structure Cursor (α : Type) where
  read? : Nat → Option α
  length : Nat
  read?_eq_none_iff : ∀ i, read? i = none ↔ length ≤ i
  /-- Where the next item is read. -/
  position : Nat

namespace Cursor

variable {α : Type}

/-- The count of items still to come. -/
def remaining (c : Cursor α) : Nat := c.length - c.position

/-- The cursor one position further on. -/
def advance (c : Cursor α) : Cursor α := { c with position := c.position + 1 }

/-- The next item and the cursor behind it. At the end there is none, and the cursor stays. -/
def next? (c : Cursor α) : Option (α × Cursor α) :=
  (c.read? c.position).map fun a => (a, c.advance)

/-- What a step yields is read at the position, which moves on by one. -/
theorem next?_eq_some_iff {c rest : Cursor α} {a : α} :
    c.next? = some (a, rest) ↔ c.read? c.position = some a ∧ c.advance = rest := by
  simp only [next?, Option.map_eq_some_iff, Prod.mk.injEq]
  constructor
  · rintro ⟨_, hread, rfl, rfl⟩
    exact ⟨hread, rfl⟩
  · rintro ⟨hread, rfl⟩
    exact ⟨a, hread, rfl, rfl⟩

/-- There is no step just if no item is left. -/
theorem next?_eq_none_iff {c : Cursor α} : c.next? = none ↔ c.remaining = 0 := by
  rw [next?, Option.map_eq_none_iff, c.read?_eq_none_iff, remaining, Nat.sub_eq_zero_iff_le]

/-- A step that yields an item leaves one less to come. -/
theorem remaining_of_next? {c rest : Cursor α} {a : α} (h : c.next? = some (a, rest)) :
    c.remaining = rest.remaining + 1 := by
  obtain ⟨hread, rfl⟩ := next?_eq_some_iff.mp h
  have hlt : ¬ c.length ≤ c.position := fun hle => by
    rw [(c.read?_eq_none_iff _).mpr hle] at hread
    cases hread
  simp only [remaining, advance]
  omega

/-- The items from here to the end. -/
def toList (c : Cursor α) : List α :=
  match h : c.next? with
  | none => []
  | some (a, rest) =>
    have := remaining_of_next? h
    a :: rest.toList
termination_by c.remaining

/-- The items of so many steps, or of all that are left if they are fewer, and the cursor after
them. -/
def take : Nat → Cursor α → List α × Cursor α
  | 0, c => ([], c)
  | n + 1, c =>
    match c.next? with
    | none => ([], c)
    | some (a, rest) =>
      let after := take n rest
      (a :: after.1, after.2)

end Cursor

end RowFilter
