import RowFilter.Proofs.Json.Grammar

/-!
# The texts of a record

The keys of a record come in any order, those with a default may be left out, and unknown ones with
any value may come between them. `Derived` says that of a text, for the entries of a record. Main
result: `Derived.record`. If every entry is read into the record in whatever order they come
(`Gathers`), all these texts are read as the same record. The text that is written is one of them
(`derived_pretty`).
-/

namespace RowFilter.Json

open Reader

/-- A key of a record, the texts of its value, and whether it may be left out. -/
structure Entry where
  key : String
  Text : List Char → List Char → Prop
  Omissible : Prop

/-- The texts of the value of a key. An unknown key has any value. -/
def ValueOf (entries : List Entry) (key : String) (s t : List Char) : Prop :=
  (∃ e ∈ entries, e.key = key ∧ e.Text s t) ∨ (∀ e ∈ entries, e.key ≠ key) ∧ Valid s t

/-- A text begins with a key and a value for it. -/
def Pair (Text : String → List Char → List Char → Prop) (key : String) (s t : List Char) : Prop :=
  ∃ u v, Spells key s u ∧ skipBlanks u = ':' :: v ∧ Text key v t

/-- A text begins with members that have the keys, and the closing brace. -/
inductive Pairs (Text : String → List Char → List Char → Prop) :
    Bool → List String → List Char → List Char → Prop
  | nil {isFirst : Bool} {s t : List Char} (closed : skipBlanks s = '\x7d' :: t) :
      Pairs Text isFirst [] s t
  | cons {isFirst : Bool} {key : String} {keys : List String} {s t u v : List Char}
      (separated : Separated isFirst s t) (h : Pair Text key t u)
      (more : Pairs Text false keys u v) : Pairs Text isFirst (key :: keys) s v

/-- A text begins with a record that has the entries: no key of theirs is repeated, and the ones
that are missing may be left out. -/
def Derived (entries : List Entry) (s t : List Char) : Prop :=
  ∃ keys u, skipBlanks s = '\x7b' :: u ∧ Pairs (ValueOf entries) true keys u t ∧
    ∀ e ∈ entries, keys.count e.key ≤ 1 ∧ (e.Omissible ∨ e.key ∈ keys)

/-! ## Reading -/

variable {σ α : Type} {members : List (Reader.Member σ)} {entries : List Entry}
  {after : List String → σ} {s t : List Char}

/-- The members of a record gather its entries: `after keys` is the record once the entries with
these keys are read, and keys of no entry are unknown and change nothing. -/
structure Gathers (members : List (Reader.Member σ)) (entries : List Entry)
    (after : List String → σ) : Prop where
  shrinks : ∀ e ∈ entries, ∀ s t, e.Text s t → t.length ≤ s.length
  known : ∀ e ∈ entries, ∀ keys, e.key ∉ keys →
    ∃ m, members.find? (·.key == e.key) = some m ∧ m.isThere (after keys) = false ∧
      ∀ s t, e.Text s t → Ends t → m.read (after keys) s = .ok (after (e.key :: keys), t)
  unknown : ∀ key, (∀ e ∈ entries, e.key ≠ key) →
    members.find? (·.key == key) = none ∧ ∀ keys, after (key :: keys) = after keys

/-- A record of one key. -/
theorem gathers_singleton {β : Type} {key : String} {Text : List Char → List Char → Prop}
    {omissible : Prop} {r : Reader β} {v : β} (shrinks : ∀ s t, Text s t → t.length ≤ s.length)
    (hread : ∀ s t, Text s t → Ends t → r s = .ok (v, t)) :
    Gathers [{ key := key, isThere := Option.isSome, read := fun _ => some <$> r }]
      [⟨key, Text, omissible⟩] fun keys => if key ∈ keys then some v else none := by
  constructor
  case shrinks =>
    intro e he
    cases List.mem_singleton.mp he
    exact shrinks
  case known =>
    intro e he keys hnew
    cases List.mem_singleton.mp he
    refine ⟨_, List.find?_cons_of_pos (beq_self_eq_true key), ?_, fun s t h ht => ?_⟩
    · rw [if_neg hnew]
      rfl
    · rw [if_pos (List.mem_cons_self ..)]
      exact map_apply (hread s t h ht)
  case unknown =>
    intro key' hkey
    have hne : key ≠ key' := hkey _ (List.mem_singleton_self _)
    refine ⟨List.find?_cons_of_neg (by simpa using hne), fun keys => ?_⟩
    simp only [List.mem_cons, hne, false_or]

/-- A string takes at least one character. -/
theorem Spells.lt {x : String} (h : Spells x s t) : t.length < s.length := by
  obtain ⟨code, hs, -⟩ := h
  exact lt_of_quoted hs

/-- A member takes at least one character if no value takes less than none. -/
theorem Pair.lt (shrinks : ∀ e ∈ entries, ∀ s t, e.Text s t → t.length ≤ s.length) {key : String}
    (h : Pair (ValueOf entries) key s t) : t.length < s.length := by
  obtain ⟨u, v, hkey, colon, hvalue⟩ := h
  have hkeylt := hkey.lt
  have hcolon := @lt_of_skipBlanks _ _ _ [] colon
  obtain ⟨e, he, -, htext⟩ | ⟨-, hvalid⟩ := hvalue
  · have := shrinks e he _ _ htext
    omega
  · have := hvalid.lt
    omega

/-- There are fewer keys than characters before the rest, so a bound on the characters also bounds
the members. -/
theorem Pairs.lt (shrinks : ∀ e ∈ entries, ∀ s t, e.Text s t → t.length ≤ s.length)
    {isFirst : Bool} {keys : List String} (h : Pairs (ValueOf entries) isFirst keys s t) :
    keys.length + t.length < s.length := by
  induction h with
  | nil closed =>
    have := @lt_of_skipBlanks _ _ _ [] closed
    rw [List.length_nil]
    omega
  | cons separated h _ ih =>
    have := le_of_separated separated
    have := h.lt shrinks
    rw [List.length_cons]
    omega

/-- A number before more members ends. -/
theorem Pairs.ends {Text : String → List Char → List Char → Prop} {keys : List String}
    (h : Pairs Text false keys s t) : Ends s := by
  cases h with
  | nil closed => exact ends_of_skipBlanks closed (by decide)
  | cons separated =>
    have comma : skipBlanks s = ',' :: _ := separated
    exact ends_of_skipBlanks comma (by decide)

/-- Pairs are read one after another. The induction is on the members, and no key of an entry may
be both among those that are read already and among those that follow. -/
theorem Gathers.keyed_apply (h : Gathers members entries after) {isFirst : Bool}
    {keys : List String} (hs : Pairs (ValueOf entries) isFirst keys s t) :
    ∀ {most : Nat} {seen : List String}, keys.length < most →
      (∀ e ∈ entries, seen.count e.key + keys.count e.key ≤ 1) →
      keyed members most isFirst (after seen) s =
        .ok (after (keys.reverse ++ seen), '\x7d' :: t) := by
  induction hs with
  | nil closed =>
    intro most seen hmost _
    cases most with
    | zero => omega
    | succ most => exact keyed_closed closed
  | @cons isFirst key keys s t u v separated hmember more ih =>
    intro most seen hmost once
    cases most with
    | zero => omega
    | succ most =>
      obtain ⟨x, y, hkey, colon, hvalue⟩ := hmember
      have once' : ∀ e ∈ entries, (key :: seen).count e.key + keys.count e.key ≤ 1 := by
        intro e he
        have := once e he
        rw [List.count_cons] at this ⊢
        omega
      have hrest := ih (Nat.lt_of_succ_lt_succ hmost) once'
      have hkeys : keys.reverse ++ key :: seen = (key :: keys).reverse ++ seen := by
        rw [List.reverse_cons, List.append_assoc, List.singleton_append]
      rw [hkeys] at hrest
      obtain ⟨e, he, rfl, htext⟩ | ⟨hnone, hvalid⟩ := hvalue
      · have hnew : e.key ∉ seen := by
          have := once e he
          rw [List.count_cons_self] at this
          exact List.count_eq_zero.mp (by omega)
        obtain ⟨m, hfound, hthere, hread⟩ := h.known e he seen hnew
        rw [keyed_known separated hkey colon hfound hthere (hread _ _ htext more.ends), hrest]
      · obtain ⟨hfound, hsame⟩ := h.unknown key hnone
        rw [hsame] at hrest
        rw [keyed_unknown separated hkey colon hfound (hvalid.skipValue more.ends), hrest]

/-- **Records are read from all their texts**: order, unknown keys and missing defaults do not
matter. -/
theorem Derived.record (hs : Derived entries s t) (h : Gathers members entries after)
    {finish : σ → Except Fault α} {v : α}
    (hfinish : ∀ keys, (∀ e ∈ entries, e.Omissible ∨ e.key ∈ keys) → finish (after keys) = .ok v) :
    record members (after []) finish s = .ok (v, t) := by
  obtain ⟨keys, u, opened, hmembers, hkeys⟩ := hs
  have hcount := hmembers.lt h.shrinks
  have hread : keyed members (u.length + 1) true (after []) u =
      .ok (after (keys.reverse ++ []), '\x7d' :: t) := by
    refine h.keyed_apply hmembers (by omega) fun e he => ?_
    rw [List.count_nil, Nat.zero_add]
    exact (hkeys e he).1
  refine record_apply opened hread (hfinish _ fun e he => ?_)
  rw [List.append_nil, List.mem_reverse]
  exact (hkeys e he).2

/-- A record takes at least one character. -/
theorem Derived.lt (hs : Derived entries s t)
    (shrinks : ∀ e ∈ entries, ∀ s t, e.Text s t → t.length ≤ s.length) : t.length < s.length := by
  obtain ⟨keys, u, opened, hmembers, -⟩ := hs
  have := @lt_of_skipBlanks _ _ _ [] opened
  have := hmembers.lt shrinks
  omega

/-! ## Writing -/

/-- Blanks before a record do not matter. -/
theorem Derived.congr {s' : List Char} (h : Derived entries s t)
    (hs : skipBlanks s' = skipBlanks s) : Derived entries s' t := by
  obtain ⟨keys, u, opened, hmembers, hkeys⟩ := h
  exact ⟨keys, u, hs.trans opened, hmembers, hkeys⟩

/-- A record that is written with all its entries, and with no other keys, is one of its texts. -/
theorem derived_pretty {js : List (String × Json)} {indent : Nat}
    (hkeys : ∀ e ∈ entries, (js.map Prod.fst).count e.key = 1)
    (hvalue : ∀ m ∈ js, ∀ t,
      ValueOf entries m.1 (' ' :: ((m.2.prettyAt (indent + 2)).toList ++ t)) t) (t : List Char) :
    Derived entries (((Json.object js).prettyAt indent).toList ++ t) t := by
  rw [prettyAt, prettyMembers_eq, block_eq]
  simp only [String.toList_append, List.append_assoc]
  refine ⟨js.map Prod.fst, _, skipBlanks_cons rfl, ?_, fun e he => ?_⟩
  · refine @listed_of_enclosed _
      (fun isFirst js => Pairs (ValueOf entries) isFirst (js.map Prod.fst))
      (fun m => Pair (ValueOf entries) m.1) .cons _ _ _ _ _ rfl .nil (isBlank_newLine _) js ?_
    intro m hm t
    simp only [String.toList_append, List.append_assoc]
    refine ⟨_, _, spells_of_quote ?_, skipBlanks_cons rfl, hvalue m hm t⟩
    rw [skipBlanks_append (isBlank_newLine _), skipBlanks_quote]
    rfl
  · have hcount := hkeys e he
    exact ⟨Nat.le_of_eq hcount, Or.inr (List.count_pos_iff.mp (by omega))⟩

end RowFilter.Json
