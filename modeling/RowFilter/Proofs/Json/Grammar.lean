import RowFilter.Proofs.Json.Reading

/-!
# Values nobody asked for

`Valid` is the grammar of JSON as a relation between a text that begins with a value and the rest of
it. Numbers may be of any size, strings may hold halves of characters, and keys may be repeated.
Main result: `Valid.skipValue`. Whatever a text begins with by this grammar is skipped, however deep
it is nested, because the bound on the steps grows with the text.
-/

namespace RowFilter.Json

open Reader

/-! ## The grammar -/

mutual

/-- A text begins with a value and goes on with the rest. There may be blanks before every mark and
every value. -/
inductive Valid : List Char → List Char → Prop
  | word {w s t : List Char}
      (hw : w ∈ [['n', 'u', 'l', 'l'], ['t', 'r', 'u', 'e'], ['f', 'a', 'l', 's', 'e']])
      (h : skipBlanks s = w ++ t) : Valid s t
  | number {x s t : List Char} (hx : IsNumber x) (h : skipBlanks s = x ++ t) : Valid s t
  | string {x cs s t : List Char} (hx : Spelled false x cs)
      (h : skipBlanks s = '"' :: (x ++ '"' :: t)) : Valid s t
  | emptyArray {s t u : List Char} (opened : skipBlanks s = '[' :: t)
      (closed : skipBlanks t = ']' :: u) : Valid s u
  | array {s t u : List Char} (opened : skipBlanks s = '[' :: t) (h : ItemsValid t u) : Valid s u
  | emptyObject {s t u : List Char} (opened : skipBlanks s = '\x7b' :: t)
      (closed : skipBlanks t = '\x7d' :: u) : Valid s u
  | object {s t u : List Char} (opened : skipBlanks s = '\x7b' :: t) (h : MembersValid t u) :
      Valid s u

/-- A text begins with the items of an array, of which there is one, and its closing bracket. -/
inductive ItemsValid : List Char → List Char → Prop
  | last {s t u : List Char} (h : Valid s t) (closed : skipBlanks t = ']' :: u) : ItemsValid s u
  | cons {s t u v : List Char} (h : Valid s t) (comma : skipBlanks t = ',' :: u)
      (more : ItemsValid u v) : ItemsValid s v

/-- A text begins with the members of an object, of which there is one, and its closing brace. -/
inductive MembersValid : List Char → List Char → Prop
  | last {s t u : List Char} (h : MemberValid s t) (closed : skipBlanks t = '\x7d' :: u) :
      MembersValid s u
  | cons {s t u v : List Char} (h : MemberValid s t) (comma : skipBlanks t = ',' :: u)
      (more : MembersValid u v) : MembersValid s v

/-- A text begins with a key and its value. -/
inductive MemberValid : List Char → List Char → Prop
  | member {key cs s t u v : List Char} (hkey : Spelled false key cs)
      (h : skipBlanks s = '"' :: (key ++ '"' :: t)) (colon : skipBlanks t = ':' :: u)
      (value : Valid u v) : MemberValid s v

end

/-- A string in quotes takes at least one character. -/
theorem lt_of_quoted {x s t : List Char} (h : skipBlanks s = '"' :: (x ++ '"' :: t)) :
    t.length < s.length := by
  rw [List.append_cons] at h
  exact lt_of_skipBlanks h

/-- A number begins with a minus sign or a digit. -/
theorem IsNumber.exists_cons {x : List Char} (h : IsNumber x) :
    ∃ c cs, x = c :: cs ∧ (c = '-' ∨ c.isDigit = true) := by
  cases h with
  | intro hsign hwhole =>
    obtain ⟨c, cs, rfl, hc⟩ := hwhole.exists_cons
    obtain rfl | rfl := by simpa using hsign
    · exact ⟨c, _, rfl, Or.inr hc⟩
    · exact ⟨'-', _, rfl, Or.inl rfl⟩

/-- No value begins with a closing bracket. -/
theorem Valid.head {s t : List Char} (h : Valid s t) : ∃ c u, skipBlanks s = c :: u ∧ c ≠ ']' := by
  cases h with
  | word hw h =>
    simp only [List.mem_cons, List.not_mem_nil, or_false] at hw
    obtain rfl | rfl | rfl := hw
    · exact ⟨_, _, h, by decide⟩
    · exact ⟨_, _, h, by decide⟩
    · exact ⟨_, _, h, by decide⟩
  | number hx h =>
    obtain ⟨c, cs, rfl, hc⟩ := hx.exists_cons
    refine ⟨c, _, h, ?_⟩
    rintro rfl
    exact absurd hc (by decide)
  | string hx h => exact ⟨_, _, h, by decide⟩
  | emptyArray opened => exact ⟨_, _, opened, by decide⟩
  | array opened => exact ⟨_, _, opened, by decide⟩
  | emptyObject opened => exact ⟨_, _, opened, by decide⟩
  | object opened => exact ⟨_, _, opened, by decide⟩

/-- A member begins with the quote of its key. -/
theorem MemberValid.head {s t : List Char} (h : MemberValid s t) :
    ∃ u, skipBlanks s = '"' :: u := by
  cases h with
  | member hkey h => exact ⟨_, h⟩

/-- Items do not begin with a closing bracket, which would make the array empty. -/
theorem ItemsValid.head {s t : List Char} (h : ItemsValid s t) :
    ∃ c u, skipBlanks s = c :: u ∧ c ≠ ']' := by
  cases h with
  | last h => exact h.head
  | cons h => exact h.head

/-- Members begin with the quote of the first key. -/
theorem MembersValid.head {s t : List Char} (h : MembersValid s t) :
    ∃ u, skipBlanks s = '"' :: u := by
  cases h with
  | last h => exact h.head
  | cons h => exact h.head

mutual

/-- A value takes at least one character. -/
theorem Valid.lt {s t : List Char} : Valid s t → t.length < s.length
  | .word hw h => by
    simp only [List.mem_cons, List.not_mem_nil, or_false] at hw
    obtain rfl | rfl | rfl := hw
    · exact lt_of_skipBlanks h
    · exact lt_of_skipBlanks h
    · exact lt_of_skipBlanks h
  | .number hx h => by
    obtain ⟨c, cs, rfl, -⟩ := hx.exists_cons
    exact lt_of_skipBlanks h
  | .string _ h => lt_of_quoted h
  | .emptyArray opened closed => by
    have := @lt_of_skipBlanks _ _ _ [] opened
    have := @lt_of_skipBlanks _ _ _ [] closed
    omega
  | .array opened h => by
    have := @lt_of_skipBlanks _ _ _ [] opened
    have := h.lt
    omega
  | .emptyObject opened closed => by
    have := @lt_of_skipBlanks _ _ _ [] opened
    have := @lt_of_skipBlanks _ _ _ [] closed
    omega
  | .object opened h => by
    have := @lt_of_skipBlanks _ _ _ [] opened
    have := h.lt
    omega

/-- Items take at least one character. -/
theorem ItemsValid.lt {s t : List Char} : ItemsValid s t → t.length < s.length
  | .last h closed => by
    have := h.lt
    have := @lt_of_skipBlanks _ _ _ [] closed
    omega
  | .cons h comma more => by
    have := h.lt
    have := @lt_of_skipBlanks _ _ _ [] comma
    have := more.lt
    omega

/-- Members take at least one character. -/
theorem MembersValid.lt {s t : List Char} : MembersValid s t → t.length < s.length
  | .last h closed => by
    have := h.lt
    have := @lt_of_skipBlanks _ _ _ [] closed
    omega
  | .cons h comma more => by
    have := h.lt
    have := @lt_of_skipBlanks _ _ _ [] comma
    have := more.lt
    omega

/-- A key and its value take at least one character. -/
theorem MemberValid.lt {s t : List Char} : MemberValid s t → t.length < s.length
  | .member hkey h colon value => by
    have := lt_of_quoted h
    have := @lt_of_skipBlanks _ _ _ [] colon
    have := value.lt
    omega

end

/-! ## Skipping -/

/-- Behind a value comes a mark, so a number ends there. -/
theorem ends_of_skipBlanks {c : Char} {s t : List Char} (h : skipBlanks s = c :: t)
    (hc : c ∈ [',', ']', '\x7d']) : Ends s := by
  intro d hd
  cases s with
  | nil => cases hd
  | cons d' s =>
    cases hd
    by_cases hblank : isBlank d = true
    · simp only [isBlank, Bool.or_eq_true, beq_iff_eq] at hblank
      obtain ((rfl | rfl) | rfl) | rfl := hblank
      all_goals exact ⟨rfl, by decide⟩
    · rw [skipBlanks_cons (Bool.not_eq_true _ ▸ hblank)] at h
      cases h
      simp only [List.mem_cons, List.not_mem_nil, or_false] at hc
      obtain rfl | rfl | rfl := hc
      all_goals exact ⟨rfl, by decide⟩

namespace Skip

variable {s t u : List Char} {steps : Nat}

/-- Blanks before a value do not matter. -/
theorem value_skipBlanks (steps : Nat) (s : List Char) :
    value steps (skipBlanks s) = value steps s := by
  cases steps with
  | zero => rfl
  | succ steps =>
    unfold value
    rw [skipBlanks_skipBlanks]

/-- Blanks before items do not matter. -/
theorem items_skipBlanks (steps : Nat) (s : List Char) :
    items steps (skipBlanks s) = items steps s := by
  cases steps with
  | zero => rfl
  | succ steps =>
    unfold items
    rw [value_skipBlanks]

/-- Blanks before members do not matter. -/
theorem members_skipBlanks (steps : Nat) (s : List Char) :
    members steps (skipBlanks s) = members steps s := by
  cases steps with
  | zero => rfl
  | succ steps =>
    unfold members
    rw [skipBlanks_skipBlanks]

/-- A word is skipped if the text begins with it. -/
theorem word_apply (cs : List Char) : word cs (cs ++ t) = .ok t := by
  rw [word, Reader.word_apply]
  rfl

/-- A string is skipped up to its closing quote, even if it holds halves of characters. -/
theorem string_apply {x cs : List Char} (h : Spelled false x cs) :
    string (x ++ '"' :: t) = .ok t := by
  rw [string, stringBody_spelled h]
  rfl

/-- Null and the two truths are skipped as words. -/
theorem value_word {w : List Char}
    (hw : w ∈ [['n', 'u', 'l', 'l'], ['t', 'r', 'u', 'e'], ['f', 'a', 'l', 's', 'e']])
    (h : skipBlanks s = w ++ t) : value (steps + 1) s = .ok t := by
  unfold value
  rw [h]
  simp only [List.mem_cons, List.not_mem_nil, or_false] at hw
  obtain rfl | rfl | rfl := hw
  · exact word_apply ['u', 'l', 'l']
  · exact word_apply ['r', 'u', 'e']
  · exact word_apply ['a', 'l', 's', 'e']

/-- A number is skipped if the text behind it ends it. -/
theorem value_number {x : List Char} (hx : IsNumber x) (h : skipBlanks s = x ++ t) (ht : Ends t) :
    value (steps + 1) s = .ok t := by
  cases hx with
  | intro hsign hwhole hzero hfraction hexponent =>
    have hnumber := number_apply hwhole hzero hfraction hexponent ht
    unfold value
    rw [h]
    simp only [List.append_assoc]
    obtain rfl | rfl := by simpa using hsign
    · obtain ⟨c, cs, rfl, hc⟩ := hwhole.exists_cons
      rw [List.nil_append]
      split
      case h_1 hs => cases hs
      case h_9 hs =>
        cases hs
        rw [if_pos hc]
        exact hnumber
      -- no digit begins another sort of value
      all_goals
        rename_i hs
        cases hs
        cases hc
    · exact hnumber

theorem value_string {x cs : List Char} (hx : Spelled false x cs)
    (h : skipBlanks s = '"' :: (x ++ '"' :: t)) : value (steps + 1) s = .ok t := by
  unfold value
  rw [h]
  exact string_apply hx

theorem value_emptyArray (opened : skipBlanks s = '[' :: t) (closed : skipBlanks t = ']' :: u) :
    value (steps + 1) s = .ok u := by
  simp only [value, opened, closed]

theorem value_emptyObject (opened : skipBlanks s = '\x7b' :: t)
    (closed : skipBlanks t = '\x7d' :: u) : value (steps + 1) s = .ok u := by
  simp only [value, opened, closed]

/-- An array that does not end at once has items. -/
theorem value_array {c : Char} (opened : skipBlanks s = '[' :: t) (ht : skipBlanks t = c :: u)
    (hc : c ≠ ']') : value (steps + 1) s = items steps t := by
  rw [← items_skipBlanks, ht]
  simp only [value, opened, ht]
  split
  next hs =>
    cases hs
    exact absurd rfl hc
  next hs => cases hs
  next => rfl

/-- An object that is not empty is skipped as its members. -/
theorem value_object (opened : skipBlanks s = '\x7b' :: t) (ht : skipBlanks t = '"' :: u) :
    value (steps + 1) s = members steps t := by
  rw [← members_skipBlanks, ht]
  simp only [value, opened, ht]
  rfl

/-- The last item has the closing bracket behind it. -/
theorem items_last (h : value steps s = .ok t) (closed : skipBlanks t = ']' :: u) :
    items (steps + 1) s = .ok u := by
  rw [items, h, ok_bind, closed]
  rfl

/-- Behind any other item the next one is skipped. -/
theorem items_cons (h : value steps s = .ok t) (comma : skipBlanks t = ',' :: u) :
    items (steps + 1) s = items steps u := by
  rw [items, h, ok_bind, comma]
  rfl

section Member

variable {key cs x y : List Char} (hkey : Spelled false key cs)
  (h : skipBlanks s = '"' :: (key ++ '"' :: x)) (colon : skipBlanks x = ':' :: y)
  (hvalue : value steps y = .ok t)

include hkey h colon hvalue

theorem members_last (closed : skipBlanks t = '\x7d' :: u) : members (steps + 1) s = .ok u := by
  simp only [members, h, string_apply hkey, ok_bind, colon, hvalue, closed]
  rfl

theorem members_cons (comma : skipBlanks t = ',' :: u) :
    members (steps + 1) s = members steps u := by
  rw [members]
  simp only [h, string_apply hkey, ok_bind, colon, hvalue, comma]

end Member

end Skip

mutual

/-- A value is skipped in twice as many steps as it has characters. -/
theorem Valid.skip {s t : List Char} : Valid s t → Ends t →
    ∀ {steps : Nat}, 2 * s.length ≤ steps + 2 * t.length → Skip.value steps s = .ok t := by
  intro h ht steps hsteps
  have hlt := h.lt
  obtain ⟨steps, rfl⟩ : ∃ n, steps = n + 1 := ⟨steps - 1, by omega⟩
  match h with
  | .word hw h => exact Skip.value_word hw h
  | .number hx h => exact Skip.value_number hx h ht
  | .string hx h => exact Skip.value_string hx h
  | .emptyArray opened closed => exact Skip.value_emptyArray opened closed
  | .array opened h =>
    have hopened := @lt_of_skipBlanks _ _ _ [] opened
    obtain ⟨c, u, hu, hc⟩ := h.head
    rw [Skip.value_array opened hu hc]
    exact h.skip (by omega)
  | .emptyObject opened closed => exact Skip.value_emptyObject opened closed
  | .object opened h =>
    have hopened := @lt_of_skipBlanks _ _ _ [] opened
    obtain ⟨u, hu⟩ := h.head
    rw [Skip.value_object opened hu]
    exact h.skip (by omega)

/-- The items take one step more. -/
theorem ItemsValid.skip {s t : List Char} : ItemsValid s t →
    ∀ {steps : Nat}, 2 * s.length < steps + 2 * t.length → Skip.items steps s = .ok t := by
  intro h steps hsteps
  have hlt := h.lt
  obtain ⟨steps, rfl⟩ : ∃ n, steps = n + 1 := ⟨steps - 1, by omega⟩
  match h with
  | .last h closed =>
    have hclosed := @lt_of_skipBlanks _ _ _ [] closed
    exact Skip.items_last (h.skip (ends_of_skipBlanks closed (by decide)) (by omega)) closed
  | .cons h comma more =>
    have hcomma := @lt_of_skipBlanks _ _ _ [] comma
    have hless := h.lt
    have hmore := more.lt
    rw [Skip.items_cons (h.skip (ends_of_skipBlanks comma (by decide)) (by omega)) comma]
    exact more.skip (by omega)

/-- Members are skipped if there are two steps for each of their characters. -/
theorem MembersValid.skip {s t : List Char} : MembersValid s t →
    ∀ {steps : Nat}, 2 * s.length < steps + 2 * t.length → Skip.members steps s = .ok t := by
  intro h steps hsteps
  have hlt := h.lt
  obtain ⟨steps, rfl⟩ : ∃ n, steps = n + 1 := ⟨steps - 1, by omega⟩
  match h with
  | .last (.member hkey h colon value) closed =>
    have hclosed := @lt_of_skipBlanks _ _ _ [] closed
    have hcolon := @lt_of_skipBlanks _ _ _ [] colon
    have hstring := lt_of_quoted h
    have hvalue : Skip.value steps _ = .ok _ :=
      value.skip (ends_of_skipBlanks closed (by decide)) (by omega)
    exact Skip.members_last hkey h colon hvalue closed
  | .cons (.member hkey h colon value) comma more =>
    have hcolon := @lt_of_skipBlanks _ _ _ [] colon
    have hcomma := @lt_of_skipBlanks _ _ _ [] comma
    have hless := value.lt
    have hmore := more.lt
    have hstring := lt_of_quoted h
    have hvalue : Skip.value steps _ = .ok _ :=
      value.skip (ends_of_skipBlanks comma (by decide)) (by omega)
    rw [Skip.members_cons hkey h colon hvalue comma]
    exact more.skip (by omega)

end

/-- **Unknown values are skipped**, whatever they are. -/
theorem Valid.skipValue {s t : List Char} (h : Valid s t) (ht : Ends t) :
    skipValue s = .ok ((), t) := by
  rw [Reader.skipValue, h.skip ht (by omega)]
  rfl

end RowFilter.Json
