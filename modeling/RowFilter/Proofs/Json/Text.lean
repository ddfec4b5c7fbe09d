import RowFilter.Proofs.Json.Spelling

/-!
# What the text of a document looks like

`Json.Begins` says that a text begins with a document, blanks apart, and goes on with the rest.
Both ways to write a document, on one line and with one member to a line, begin with it
(`Json.Legible`), so whatever reads any text that begins with a document reads what was written.
-/

namespace RowFilter.Json

open Reader

/-! ## Blanks -/

/-- Blanks in front of a text are skipped. -/
theorem skipBlanks_append {w s : List Char} (h : w.all isBlank = true) :
    skipBlanks (w ++ s) = skipBlanks s :=
  List.dropWhile_append_of_pos (List.all_eq_true.mp h)

/-- Nothing is skipped before a character that is no blank. -/
theorem skipBlanks_cons {c : Char} {s : List Char} (h : isBlank c = false) :
    skipBlanks (c :: s) = c :: s :=
  List.dropWhile_cons_of_neg (by rw [h]; exact Bool.false_ne_true)

theorem skipBlanks_blank {c : Char} {s : List Char} (h : isBlank c = true) :
    skipBlanks (c :: s) = skipBlanks s :=
  List.dropWhile_cons_of_pos h

/-- What follows the blanks is no blank. -/
theorem isBlank_of_skipBlanks {c : Char} {s t : List Char} (h : skipBlanks s = c :: t) :
    isBlank c = false := by
  have hne : s.dropWhile isBlank ≠ [] := by
    rw [skipBlanks] at h
    rw [h]
    exact List.cons_ne_nil c t
  have := List.head_dropWhile_not isBlank hne
  simp only [skipBlanks] at h
  simpa [h] using this

/-- Behind the blanks there are none to skip. -/
theorem skipBlanks_skipBlanks (s : List Char) : skipBlanks (skipBlanks s) = skipBlanks s := by
  cases h : skipBlanks s with
  | nil => rfl
  | cons c t => exact skipBlanks_cons (isBlank_of_skipBlanks h)

/-- Skipping blanks leaves no more text. -/
theorem length_skipBlanks_le (s : List Char) : (skipBlanks s).length ≤ s.length :=
  (List.dropWhile_suffix _).length_le

/-! ## Documents -/

/-- A comma comes before each part of an array or an object but the first. -/
def Separated (isFirst : Bool) (s t : List Char) : Prop :=
  if isFirst then s = t else skipBlanks s = ',' :: t

mutual

/-- A text begins with a document and goes on with the rest. There may be blanks before every mark
and every value. Numbers are left out, because where they end depends on the rest. -/
inductive Begins : Json → List Char → List Char → Prop
  | null {s t : List Char} (h : skipBlanks s = ['n', 'u', 'l', 'l'] ++ t) : Begins .null s t
  | yes {s t : List Char} (h : skipBlanks s = ['t', 'r', 'u', 'e'] ++ t) : Begins (.bool true) s t
  | no {s t : List Char} (h : skipBlanks s = ['f', 'a', 'l', 's', 'e'] ++ t) :
      Begins (.bool false) s t
  | string {x : String} {s t : List Char} (h : skipBlanks s = (quote x).toList ++ t) :
      Begins (.string x) s t
  | array {items : List Json} {s t u : List Char} (opened : skipBlanks s = '[' :: t)
      (h : ItemsBegin true items t u) : Begins (.array items) s u
  | object {members : List (String × Json)} {s t u : List Char}
      (opened : skipBlanks s = '\x7b' :: t) (h : MembersBegin true members t u) :
      Begins (.object members) s u

/-- A text begins with the items of an array and its closing bracket. -/
inductive ItemsBegin : Bool → List Json → List Char → List Char → Prop
  | nil {isFirst : Bool} {s t : List Char} (closed : skipBlanks s = ']' :: t) :
      ItemsBegin isFirst [] s t
  | cons {isFirst : Bool} {j : Json} {js : List Json} {s t u v : List Char}
      (separated : Separated isFirst s t) (h : Begins j t u) (more : ItemsBegin false js u v) :
      ItemsBegin isFirst (j :: js) s v

/-- A text begins with the members of an object and its closing brace. -/
inductive MembersBegin : Bool → List (String × Json) → List Char → List Char → Prop
  | nil {isFirst : Bool} {s t : List Char} (closed : skipBlanks s = '\x7d' :: t) :
      MembersBegin isFirst [] s t
  | cons {isFirst : Bool} {m : String × Json} {ms : List (String × Json)} {s t u v : List Char}
      (separated : Separated isFirst s t) (h : MemberBegins m t u)
      (more : MembersBegin false ms u v) : MembersBegin isFirst (m :: ms) s v

/-- A text begins with a key and its value. -/
inductive MemberBegins : String × Json → List Char → List Char → Prop
  | member {m : String × Json} {s t u v : List Char} (hkey : skipBlanks s = (quote m.1).toList ++ t)
      (hcolon : skipBlanks t = ':' :: u) (h : Begins m.2 u v) : MemberBegins m s v

end

/-- A string has no blanks before its opening quote. -/
theorem skipBlanks_quote (x : String) (t : List Char) :
    skipBlanks ((quote x).toList ++ t) = (quote x).toList ++ t := by
  rw [toList_quote, List.cons_append, skipBlanks_cons rfl]

/-- Every part of an array or object but the first takes a comma. -/
theorem le_of_separated {isFirst : Bool} {s t : List Char} (h : Separated isFirst s t) :
    t.length + (if isFirst then 0 else 1) ≤ s.length := by
  cases isFirst with
  | true =>
    have hs : s = t := h
    rw [hs]
    exact Nat.le_refl _
  | false =>
    have hs : skipBlanks s = ',' :: t := h
    have hle := length_skipBlanks_le s
    rw [hs] at hle
    exact hle

/-- What has a character in front of the rest is longer than the rest. -/
theorem lt_of_skipBlanks {c : Char} {s t u : List Char} (h : skipBlanks s = c :: (u ++ t)) :
    t.length < s.length := by
  have hle := length_skipBlanks_le s
  rw [h, List.length_cons, List.length_append] at hle
  omega

mutual

/-- A document takes at least one character. -/
theorem Begins.lt {j : Json} {s t : List Char} : Begins j s t → t.length < s.length
  | .null h => lt_of_skipBlanks h
  | .yes h => lt_of_skipBlanks h
  | .no h => lt_of_skipBlanks h
  | .string h => by
    rw [toList_quote, List.cons_append] at h
    exact lt_of_skipBlanks h
  | .array opened h => by
    have hopened := @lt_of_skipBlanks _ _ _ [] opened
    have := h.lt
    omega
  | .object opened h => by
    have hopened := @lt_of_skipBlanks _ _ _ [] opened
    have := h.lt
    omega

/-- Every item takes at least one character, and so does the bracket. -/
theorem ItemsBegin.lt {isFirst : Bool} {items : List Json} {s t : List Char} :
    ItemsBegin isFirst items s t → items.length + t.length < s.length
  | .nil closed => by
    have := @lt_of_skipBlanks _ _ _ [] closed
    rw [List.length_nil]
    omega
  | .cons separated h more => by
    have := le_of_separated separated
    have := h.lt
    have := more.lt
    rw [List.length_cons]
    omega

/-- Every member takes at least one character, and so does the brace. -/
theorem MembersBegin.lt {isFirst : Bool} {members : List (String × Json)} {s t : List Char} :
    MembersBegin isFirst members s t → members.length + t.length < s.length
  | .nil closed => by
    have := @lt_of_skipBlanks _ _ _ [] closed
    rw [List.length_nil]
    omega
  | .cons separated h more => by
    have := le_of_separated separated
    have := h.lt
    have := more.lt
    rw [List.length_cons]
    omega

/-- A key and its value take at least one character. -/
theorem MemberBegins.lt {m : String × Json} {s t : List Char} :
    MemberBegins m s t → t.length < s.length
  | .member hkey hcolon h => by
    rw [toList_quote, List.cons_append] at hkey
    have := lt_of_skipBlanks hkey
    have := @lt_of_skipBlanks _ _ _ [] hcolon
    have := h.lt
    omega

end

/-- Blanks before a document do not matter. -/
theorem Begins.congr {j : Json} {s s' t : List Char} (h : Begins j s t)
    (hs : skipBlanks s' = skipBlanks s) : Begins j s' t := by
  cases h with
  | null h => exact .null (hs.trans h)
  | yes h => exact .yes (hs.trans h)
  | no h => exact .no (hs.trans h)
  | string h => exact .string (hs.trans h)
  | array opened h => exact .array (hs.trans opened) h
  | object opened h => exact .object (hs.trans opened) h

/-- No document begins with a closing bracket. -/
theorem Begins.head {j : Json} {s t : List Char} (h : Begins j s t) :
    ∃ c u, skipBlanks s = c :: u ∧ c ≠ ']' := by
  cases h with
  | null h => exact ⟨_, _, h, by decide⟩
  | yes h => exact ⟨_, _, h, by decide⟩
  | no h => exact ⟨_, _, h, by decide⟩
  | string h =>
    rw [toList_quote, List.cons_append] at h
    exact ⟨_, _, h, by decide⟩
  | array opened h => exact ⟨_, _, opened, by decide⟩
  | object opened h => exact ⟨_, _, opened, by decide⟩

/-! ## Written documents -/

/-- Parts between brackets, with the same blanks before each of them and others after the last. -/
def enclosed (before after : String) (parts : List String) : String :=
  if parts.isEmpty then "" else before ++ ("," ++ before).intercalate parts ++ after

/-- On one line there are only commas between the parts. -/
theorem enclosed_empty (parts : List String) : enclosed "" "" parts = ",".intercalate parts := by
  cases parts with
  | nil => rfl
  | cons part parts => exact (String.append_empty).trans String.empty_append

/-- A block is what it encloses on lines of its own. -/
theorem block_eq (opening closing : String) (indent : Nat) (lines : List String) :
    block opening closing indent lines =
      opening ++ enclosed (newLine (indent + 2)) (newLine indent) lines ++ closing := by
  rw [block, enclosed]
  split
  next => rw [String.append_empty]
  next => simp only [String.append_assoc]

section Lists

-- the parts are items or members, and `Listed` is `ItemsBegin` or `MembersBegin`
variable {α : Type} {Listed : Bool → List α → List Char → List Char → Prop}
  {Part : α → List Char → List Char → Prop}
  (cons : ∀ {isFirst a as s t u v}, Separated isFirst s t → Part a t u → Listed false as u v →
    Listed isFirst (a :: as) s v)
  {before after : String} {line : α → String} {s t : List Char}

include cons

/-- A text with commas between its parts begins with them all. The same blanks stand before each
part. The induction is on the parts after the first, each of which follows a comma. -/
theorem listed_of_separated (last : Listed false [] s t) :
    ∀ {as : List α} {a : α} {isFirst : Bool} {u : List Char},
      (∀ b ∈ a :: as, ∀ t, Part b (before.toList ++ ((line b).toList ++ t)) t) →
      Separated isFirst u
        (before.toList ++ ((("," ++ before).intercalate ((a :: as).map line)).toList ++ s)) →
      Listed isFirst (a :: as) u t := by
  intro as
  induction as with
  | nil =>
    intro a isFirst u hpart hu
    rw [List.map_singleton, String.intercalate_singleton] at hu
    exact cons hu (hpart a (List.mem_singleton_self a) s) last
  | cons b as ih =>
    intro a isFirst u hpart hu
    rw [List.map_cons, List.map_cons, String.intercalate_cons_cons, ← List.map_cons] at hu
    simp only [String.toList_append, List.append_assoc] at hu
    refine cons hu (hpart a (List.mem_cons_self ..) _) ?_
    refine ih (fun c hc => hpart c (List.mem_cons_of_mem _ hc)) ?_
    exact skipBlanks_cons rfl

/-- Enclosed parts, of which there may be none, are followed by the closing mark. -/
theorem listed_of_enclosed {closing : Char} (hclosing : isBlank closing = false)
    (nil : ∀ {isFirst s}, skipBlanks s = closing :: t → Listed isFirst [] s t)
    (hafter : after.toList.all isBlank = true) {as : List α}
    (hpart : ∀ a ∈ as, ∀ t, Part a (before.toList ++ ((line a).toList ++ t)) t) :
    Listed true as ((enclosed before after (as.map line)).toList ++ closing :: t) t := by
  cases as with
  | nil => exact nil (skipBlanks_cons hclosing)
  | cons a as =>
    have last : Listed false [] (after.toList ++ closing :: t) t :=
      nil ((skipBlanks_append hafter).trans (skipBlanks_cons hclosing))
    refine listed_of_separated cons last hpart ?_
    simp only [enclosed, List.map_cons, List.isEmpty_cons, Bool.false_eq_true, if_false,
      String.toList_append, List.append_assoc]
    rfl

end Lists

/-- An array is told by its text if its items are. -/
theorem begins_array {before after : String} (hbefore : before.toList.all isBlank = true)
    (hafter : after.toList.all isBlank = true) {write : Json → String} {items : List Json}
    (h : ∀ j ∈ items, ∀ t, Begins j ((write j).toList ++ t) t) (t : List Char) :
    Begins (.array items) (("[" ++ enclosed before after (items.map write) ++ "]").toList ++ t)
      t := by
  simp only [String.toList_append, List.append_assoc]
  refine .array (skipBlanks_cons rfl) (listed_of_enclosed .cons rfl .nil hafter ?_)
  intro j hj t
  exact (h j hj t).congr (skipBlanks_append hbefore)

/-- An object is told by its text if its values are. -/
theorem begins_object {before after gap : String} (hbefore : before.toList.all isBlank = true)
    (hafter : after.toList.all isBlank = true) (hgap : gap.toList.all isBlank = true)
    {write : Json → String} {members : List (String × Json)}
    (h : ∀ m ∈ members, ∀ t, Begins m.2 ((write m.2).toList ++ t) t) (t : List Char) :
    Begins (.object members)
      (("\x7b"
        ++ enclosed before after (members.map fun m => quote m.1 ++ (":" ++ gap) ++ write m.2)
        ++ "\x7d").toList ++ t) t := by
  simp only [String.toList_append, List.append_assoc]
  refine .object (skipBlanks_cons rfl) (listed_of_enclosed .cons rfl .nil hafter ?_)
  intro m hm t
  simp only [String.toList_append, List.append_assoc]
  refine .member ?_ (skipBlanks_cons rfl) ((h m hm t).congr (skipBlanks_append hgap))
  rw [skipBlanks_append hbefore, skipBlanks_quote]
  rfl

/-- A document is written so that it can be told where its text ends, in either way of writing. -/
structure Legible (j : Json) : Prop where
  compact : ∀ t, Begins j (j.compact.toList ++ t) t
  pretty : ∀ indent t, Begins j ((j.prettyAt indent).toList ++ t) t

/-- Truths are legible as their words. -/
theorem legible_bool (b : Bool) : Legible (.bool b) := by
  have h : ∀ t, Begins (.bool b) ((Json.bool b).compact.toList ++ t) t := by
    intro t
    cases b with
    | true => exact .yes rfl
    | false => exact .no rfl
  exact ⟨h, fun _ => h⟩

/-- Strings are legible in quotes. -/
theorem legible_string (s : String) : Legible (.string s) := by
  have h : ∀ t, Begins (.string s) ((Json.string s).compact.toList ++ t) t := by
    intro t
    exact .string (skipBlanks_quote s t)
  exact ⟨h, fun _ => h⟩

/-- On one line every item is written compactly. -/
theorem compactItems_eq (items : List Json) : compactItems items = items.map compact := by
  induction items with
  | nil => rfl
  | cons j js ih => rw [compactItems, ih, List.map_cons]

/-- On one line every member is a key, a colon and a value. -/
theorem compactMembers_eq (members : List (String × Json)) :
    compactMembers members = members.map fun m => quote m.1 ++ (":" ++ "") ++ m.2.compact := by
  induction members with
  | nil => rfl
  | cons m ms ih =>
    rw [compactMembers, ih, List.map_cons]
    rfl

/-- Items on lines of their own are written at the same indentation. -/
theorem prettyItems_eq (indent : Nat) (items : List Json) :
    prettyItems indent items = items.map (prettyAt indent) := by
  induction items with
  | nil => rfl
  | cons j js ih => rw [prettyItems, ih, List.map_cons]

/-- Members on lines of their own have a blank behind the colon. -/
theorem prettyMembers_eq (indent : Nat) (members : List (String × Json)) :
    prettyMembers indent members =
      members.map fun m => quote m.1 ++ (":" ++ " ") ++ m.2.prettyAt indent := by
  induction members with
  | nil => rfl
  | cons m ms ih =>
    rw [prettyMembers, ih, List.map_cons]
    rfl

/-- A new line and its indentation are blanks. -/
theorem isBlank_newLine (indent : Nat) : (newLine indent).toList.all isBlank = true := by
  rw [newLine, String.toList_append, List.all_append,
    String.toList_ofList (l := List.replicate _ _), List.all_replicate, Bool.and_eq_true]
  exact ⟨rfl, ite_self _⟩

/-- An array of legible items is legible. -/
theorem legible_array {items : List Json} (h : ∀ j ∈ items, Legible j) :
    Legible (.array items) := by
  constructor
  · intro t
    rw [compact, compactItems_eq, ← enclosed_empty]
    exact begins_array rfl rfl (fun j hj => (h j hj).compact) t
  · intro indent t
    rw [prettyAt, prettyItems_eq, block_eq]
    exact begins_array (isBlank_newLine _) (isBlank_newLine _) (fun j hj => (h j hj).pretty _) t

/-- An object of legible values is legible. -/
theorem legible_object {members : List (String × Json)} (h : ∀ m ∈ members, Legible m.2) :
    Legible (.object members) := by
  constructor
  · intro t
    rw [compact, compactMembers_eq, ← enclosed_empty]
    exact begins_object rfl rfl rfl (fun m hm => (h m hm).compact) t
  · intro indent t
    rw [prettyAt, prettyMembers_eq, block_eq]
    exact begins_object (isBlank_newLine _) (isBlank_newLine _) rfl
      (fun m hm => (h m hm).pretty _) t

end RowFilter.Json
