import RowFilter.Json.TypedReader
import RowFilter.Proofs.Json.Numeral
import RowFilter.Proofs.Json.Text

/-!
# Reading what was written

`Reads r j v` says that a reader takes any text that begins with the document `j` for the value `v`
and leaves the rest. The steps of a reader come first. Then there is a rule for each way to build
one: lists (`Reader.reads_list`), records (`Reader.reads_record`) and alternatives
(`Reader.reads_oneOf`).
-/

namespace RowFilter.Json

open Reader

/-! ## Steps -/

namespace Reader

variable {α β σ : Type} {s t u : List Char}

/-- One reader after another. -/
theorem bind_apply {x : Reader α} {f : α → Reader β} {a : α} (h : x s = .ok (a, t)) :
    (x >>= f) s = f a t := by
  show (x s >>= fun p => f p.1 p.2) = f a t
  rw [h]
  rfl

/-- Both have to succeed. -/
theorem bind_apply_eq_ok_iff {x : Reader α} {f : α → Reader β} {b : β} :
    (x >>= f) s = .ok (b, u) ↔ ∃ a t, x s = .ok (a, t) ∧ f a t = .ok (b, u) := by
  show (x s >>= fun p => f p.1 p.2) = .ok (b, u) ↔ _
  rw [bind_eq_ok_iff, Prod.exists]

theorem skip_apply {c : Char} : skip (c :: t) = .ok ((), t) := rfl

/-- What was read is changed, and the rest is left. -/
theorem map_apply {x : Reader α} {f : α → β} {a : α} (h : x s = .ok (a, t)) :
    (f <$> x) s = .ok (f a, t) := by
  show ((x >>= fun a => pure (f a)) : Reader β) s = _
  rw [bind_apply h]
  rfl

/-- Blanks are taken, and the character behind them stays. -/
theorem next_apply {c : Char} (h : skipBlanks s = c :: t) : next s = .ok (c, c :: t) := by
  have hnext : next? s = .ok (some c, c :: t) := by
    rw [next?, h]
    rfl
  rw [next, bind_apply hnext]
  rfl

/-- A mark is taken with the blanks before it. -/
theorem mark_apply {c : Char} (h : skipBlanks s = c :: t) : mark c s = .ok ((), t) := by
  rw [mark, bind_apply (next_apply h), if_pos rfl]
  rfl

/-- A word is taken if the text begins with it. -/
theorem word_apply (cs : List Char) : word cs (cs ++ t) = .ok ((), t) := by
  induction cs with
  | nil => rfl
  | cons c cs ih =>
    show (if c = c then word cs (cs ++ t) else _) = _
    rw [if_pos rfl, ih]

/-- A string is read from any spelling. -/
theorem string_apply {x : String} (h : Spells x s t) : string s = .ok (x, t) := by
  obtain ⟨code, hs, spelled⟩ := h
  rw [string, bind_apply (next_apply hs), if_pos rfl]
  exact stringRest_apply spelled t

theorem null_apply (h : skipBlanks s = ['n', 'u', 'l', 'l'] ++ t) : null s = .ok ((), t) := by
  rw [null, bind_apply (next_apply h), if_pos rfl]
  exact word_apply ['n', 'u', 'l', 'l']

/-- A number below `2 ^ 64` is read from its decimal digits. -/
theorem natural_apply {n : Nat} (hn : n < 0x10000000000000000)
    (h : skipBlanks s = Nat.toDigits 10 n ++ t) (ht : Ends t) : natural s = .ok (n, t) := by
  have hread := Number.read_toDigits hn ht
  obtain ⟨c, cs, hcons, hc⟩ := (isDigits_toDigits n).exists_cons
  rw [hcons, List.cons_append] at h hread
  have hnumber : number s = .ok (.natural n, t) := by
    rw [number, bind_apply (next_apply h), hc, Bool.or_true, if_pos rfl]
    exact hread
  rw [natural, bind_apply hnumber]
  rfl

/-- A value is no null if it begins with another letter. -/
theorem option_apply {r : Reader α} {a : α} {c : Char} (h : skipBlanks s = c :: u) (hc : c ≠ 'n')
    (hread : r (c :: u) = .ok (a, t)) : option r s = .ok (some a, t) := by
  rw [option, bind_apply (next_apply h), if_neg hc]
  exact map_apply hread

/-- Null is read as no value. -/
theorem option_null {r : Reader α} (h : skipBlanks s = ['n', 'u', 'l', 'l'] ++ t) :
    option r s = .ok (none, t) := by
  rw [option, bind_apply (next_apply h), if_pos rfl]
  exact bind_apply (null_apply (skipBlanks_cons rfl))

/-- There is an item if something else than a bracket follows. -/
theorem hasItem_apply {isFirst : Bool} {c : Char} (separated : Separated isFirst s t)
    (h : skipBlanks t = c :: u) (hc : c ≠ ']') : hasItem isFirst s = .ok (true, c :: u) := by
  cases isFirst with
  | true =>
    have hst : s = t := separated
    rw [hasItem, hst, bind_apply (next_apply h), if_neg hc, if_pos rfl]
    rfl
  | false =>
    have hcomma : skipBlanks s = ',' :: t := separated
    rw [hasItem, bind_apply (next_apply hcomma)]
    show (next >>= fun c => if c = ']' then fail .malformed else pure true) t = _
    rw [bind_apply (next_apply h), if_neg hc]
    rfl

/-- There is no item before the closing bracket. -/
theorem hasItem_closed {isFirst : Bool} (closed : skipBlanks s = ']' :: t) :
    hasItem isFirst s = .ok (false, ']' :: t) := by
  rw [hasItem, bind_apply (next_apply closed), if_pos rfl]
  rfl

/-- The key of the next member is read from any spelling. -/
theorem key?_apply {isFirst : Bool} {key : String} (separated : Separated isFirst s t)
    (h : Spells key t u) : key? isFirst s = .ok (some key, u) := by
  obtain ⟨code, ht, spelled⟩ := h
  have hread : ∀ s, skipBlanks s = skipBlanks t →
      (next >>= fun c => if c = '"' then skip >>= fun _ => some <$> stringRest
        else fail .malformed) s = .ok (some key, u) := by
    intro s hs
    rw [bind_apply (next_apply (hs.trans ht)), if_pos rfl]
    exact map_apply (stringRest_apply spelled u)
  cases isFirst with
  | true =>
    have hst : s = t := separated
    rw [key?, hst, bind_apply (next_apply ht), if_neg (by decide)]
    refine hread _ ?_
    rw [← ht, skipBlanks_skipBlanks]
  | false =>
    have hcomma : skipBlanks s = ',' :: t := separated
    rw [key?, bind_apply (next_apply hcomma)]
    exact hread t rfl

/-- There is no key before the closing brace. -/
theorem key?_closed {isFirst : Bool} (closed : skipBlanks s = '\x7d' :: t) :
    key? isFirst s = .ok (none, '\x7d' :: t) := by
  rw [key?, bind_apply (next_apply closed), if_pos rfl]
  rfl

section Record

variable {members : List (Member σ)} {most : Nat} {isFirst : Bool} {key : String} {start last : σ}
  {u v w x : List Char}

/-- Without another member the record is complete. -/
theorem keyed_closed (closed : skipBlanks s = '\x7d' :: t) :
    keyed members (most + 1) isFirst last s = .ok (last, '\x7d' :: t) := by
  rw [keyed, bind_apply (key?_closed closed)]
  rfl

/-- A key of the record comes first, with its value. -/
theorem keyed_known {m : Member σ} {next : σ} (separated : Separated isFirst s u)
    (hkey : Spells key u v) (colon : skipBlanks v = ':' :: w)
    (found : members.find? (·.key == key) = some m) (isNew : m.isThere start = false)
    (hread : m.read start w = .ok (next, x)) :
    keyed members (most + 1) isFirst start s = keyed members most false next x := by
  rw [keyed, bind_apply (key?_apply separated hkey)]
  simp only [found, isNew, Bool.false_eq_true, if_false]
  rw [bind_apply (mark_apply colon), bind_apply hread]

/-- An unknown key comes first, with any value. -/
theorem keyed_unknown (separated : Separated isFirst s u) (hkey : Spells key u v)
    (colon : skipBlanks v = ':' :: w) (unknown : members.find? (·.key == key) = none)
    (hskip : skipValue w = .ok ((), x)) :
    keyed members (most + 1) isFirst start s = keyed members most false start x := by
  rw [keyed, bind_apply (key?_apply separated hkey)]
  simp only [unknown]
  rw [bind_apply (mark_apply colon), bind_apply hskip]

/-- What the members have filled in is finished. -/
theorem record_apply {finish : σ → Except Fault α} {a : α} (opened : skipBlanks s = '\x7b' :: u)
    (hread : keyed members (u.length + 1) true start u = .ok (last, '\x7d' :: t))
    (hfinish : finish last = .ok a) : record members start finish s = .ok (a, t) := by
  have hlift : (liftM (finish last) : Reader α) ('\x7d' :: t) = .ok (a, '\x7d' :: t) := by
    rw [hfinish]
    rfl
  rw [record, bind_apply (next_apply opened)]
  refine (bind_apply skip_apply).trans ((bind_apply rfl).trans ?_)
  rw [bind_apply hread, bind_apply hlift, bind_apply (mark_apply (skipBlanks_cons rfl))]
  rfl

end Record

/-! ## Documents -/

/-- A reader takes any text of the document for the value, and leaves the rest. -/
def Reads (r : Reader α) (j : Json) (v : α) : Prop :=
  ∀ ⦃s t : List Char⦄, Begins j s t → r s = .ok (v, t)

theorem Reads.map {r : Reader α} {j : Json} {v : α} (h : Reads r j v) (f : α → β) :
    Reads (f <$> r) j (f v) :=
  fun _ _ hs => map_apply (h hs)

theorem Reads.bind_pure {r : Reader α} {j : Json} {v : α} (h : Reads r j v) (f : α → β) :
    Reads (r >>= fun v => pure (f v)) j (f v) :=
  fun _ _ hs => bind_apply (h hs)

/-- Truths are read from their words. -/
theorem reads_bool (b : Bool) : Reads bool (.bool b) b := by
  intro s t hs
  cases hs with
  | yes h =>
    have hword : word ['t', 'r', 'u', 'e'] (['t', 'r', 'u', 'e'] ++ t) = .ok ((), t) :=
      word_apply _
    rw [bool, bind_apply (next_apply h)]
    exact bind_apply hword
  | no h =>
    have hword : word ['f', 'a', 'l', 's', 'e'] (['f', 'a', 'l', 's', 'e'] ++ t) = .ok ((), t) :=
      word_apply _
    rw [bool, bind_apply (next_apply h)]
    exact bind_apply hword

/-- A string is read as it is written. -/
theorem reads_string (x : String) : Reads string (.string x) x := by
  intro s t hs
  cases hs with
  | string h => exact string_apply (spells_of_quote h)

/-- Items are read one after another. The induction is on the values, and the bound on their count
goes down with them. -/
theorem itemsFrom_apply {item : Reader α} {toJson : α → Json} {vs : List α} :
    (∀ v ∈ vs, Reads item (toJson v) v) →
    ∀ {isFirst : Bool} {most : Nat} {s t : List Char}, ItemsBegin isFirst (vs.map toJson) s t →
      vs.length < most → itemsFrom item most isFirst s = .ok (vs, ']' :: t) := by
  induction vs with
  | nil =>
    intro _ isFirst most s t hs hmost
    cases most with
    | zero => omega
    | succ most =>
      cases hs with
      | nil closed =>
        rw [itemsFrom, bind_apply (hasItem_closed closed)]
        rfl
  | cons v vs ih =>
    intro h isFirst most s t hs hmost
    cases most with
    | zero => omega
    | succ most =>
      cases hs with
      | @cons _ _ _ _ x _ _ separated hv hvs =>
        obtain ⟨c, u, hc, hne⟩ := hv.head
        -- the item is read from behind the blanks before it
        have hblanks : skipBlanks (c :: u) = skipBlanks x := by rw [← hc, skipBlanks_skipBlanks]
        have hread := h v (List.mem_cons_self ..) (hv.congr hblanks)
        have hrest := ih (fun w hw => h w (List.mem_cons_of_mem _ hw)) hvs
          (Nat.lt_of_succ_lt_succ hmost)
        rw [itemsFrom, bind_apply (hasItem_apply separated hc hne), if_pos rfl]
        rw [bind_apply hread, bind_apply hrest]
        rfl

/-- A list is read if every item is. -/
theorem reads_list {item : Reader α} {toJson : α → Json} {vs : List α}
    (h : ∀ v ∈ vs, Reads item (toJson v) v) :
    Reads (list item) (.array (vs.map toJson)) vs := by
  intro s t hs
  cases hs with
  | @array _ _ u _ opened hitems =>
    have hcount := hitems.lt
    rw [List.length_map] at hcount
    have hread : itemsFrom item (u.length + 1) true u = .ok (vs, ']' :: t) :=
      itemsFrom_apply h hitems (by omega)
    rw [list, bind_apply (next_apply opened), if_pos rfl]
    refine (bind_apply skip_apply).trans ((bind_apply rfl).trans ?_)
    rw [bind_apply hread, bind_apply (mark_apply (skipBlanks_cons rfl))]
    rfl

/-- The members of an object take a record to another. -/
inductive Fills (members : List (Member σ)) : σ → List (String × Json) → σ → Prop
  | nil {record : σ} : Fills members record [] record
  | cons {record next last : σ} {m : Member σ} {key : String} {j : Json}
      {js : List (String × Json)} (found : members.find? (·.key == key) = some m)
      (isNew : m.isThere record = false) (hread : Reads (m.read record) j next)
      (more : Fills members next js last) : Fills members record ((key, j) :: js) last

/-- Members are read one after another. The induction is on how they fill the record, and the bound
on their count goes down with them. -/
theorem keyed_apply {members : List (Member σ)} {js : List (String × Json)} {start last : σ}
    (h : Fills members start js last) :
    ∀ {isFirst : Bool} {most : Nat} {s t : List Char}, MembersBegin isFirst js s t →
      js.length < most → keyed members most isFirst start s = .ok (last, '\x7d' :: t) := by
  induction h with
  | nil =>
    intro isFirst most s t hs hmost
    cases most with
    | zero => omega
    | succ most =>
      cases hs with
      | nil closed => exact keyed_closed closed
  | cons found isNew hread _ ih =>
    intro isFirst most s t hs hmost
    cases most with
    | zero => omega
    | succ most =>
      cases hs with
      | cons separated hmember hmembers =>
        cases hmember with
        | member hkey colon hvalue =>
          rw [keyed_known separated (spells_of_quote hkey) colon found isNew (hread hvalue)]
          exact ih hmembers (Nat.lt_of_succ_lt_succ hmost)

/-- A record is read if its members fill in what can be finished to the value. -/
theorem reads_record {members : List (Member σ)} {js : List (String × Json)} {start last : σ}
    {finish : σ → Except Fault α} {v : α} (h : Fills members start js last)
    (hfinish : finish last = .ok v) : Reads (record members start finish) (.object js) v := by
  intro s t hs
  cases hs with
  | @object _ _ u _ opened hmembers =>
    have hcount := hmembers.lt
    have hread : keyed members (u.length + 1) true start u = .ok (last, '\x7d' :: t) :=
      keyed_apply h hmembers (by omega)
    exact record_apply opened hread hfinish

/-- An alternative that carries nothing is read from any spelling of its name. -/
theorem oneOf_apply {alternatives : List (Alternative α)} {a : Alternative α} {v : α}
    (found : alternatives.find? (·.name == a.name) = some a) (alone : a.alone = some v)
    (h : Spells a.name s t) : oneOf alternatives s = .ok (v, t) := by
  obtain ⟨code, hs, spelled⟩ := h
  rw [oneOf, bind_apply (next_apply hs)]
  refine (bind_apply skip_apply).trans ?_
  rw [bind_apply (stringRest_apply spelled t)]
  simp only [found]
  refine (bind_apply rfl).trans ?_
  rw [alone]
  rfl

/-- An alternative that carries nothing is read from its name. -/
theorem reads_oneOf {alternatives : List (Alternative α)} {a : Alternative α} {v : α}
    (found : alternatives.find? (·.name == a.name) = some a) (alone : a.alone = some v) :
    Reads (oneOf alternatives) (.string a.name) v := by
  intro s t hs
  cases hs with
  | string h => exact oneOf_apply found alone (spells_of_quote h)

/-! ## Whole texts -/

/-- A value is the whole text if only blanks are left. -/
theorem run_eq_ok_iff {r : Reader α} {text : String} {v : α} :
    r.run text = .ok v ↔ ∃ rest, r text.toList = .ok (v, rest) ∧ skipBlanks rest = [] := by
  rw [run, StateT.run, bind_eq_ok_iff]
  constructor
  · intro h
    obtain ⟨⟨w, rest⟩, hread, hrest⟩ := h
    dsimp only at hrest
    by_cases hblanks : (skipBlanks rest).isEmpty = true
    · rw [if_pos hblanks] at hrest
      cases hrest
      exact ⟨rest, hread, List.isEmpty_iff.mp hblanks⟩
    · rw [if_neg hblanks] at hrest
      cases hrest
  · intro h
    obtain ⟨rest, hread, hblanks⟩ := h
    refine ⟨(v, rest), hread, ?_⟩
    dsimp only
    rw [if_pos (List.isEmpty_iff.mpr hblanks)]
    rfl

/-- What is written on one line is read back. -/
theorem Reads.run_compact {r : Reader α} {j : Json} {v : α} (h : Reads r j v) (hj : j.Legible) :
    r.run j.compact = .ok v := by
  have hbegins := hj.compact []
  rw [List.append_nil] at hbegins
  exact run_eq_ok_iff.mpr ⟨[], h hbegins, rfl⟩

/-- What is written with one member to a line is read back. -/
theorem Reads.run_pretty {r : Reader α} {j : Json} {v : α} (h : Reads r j v) (hj : j.Legible) :
    r.run j.pretty = .ok v := by
  have hbegins := hj.pretty 0 []
  rw [List.append_nil] at hbegins
  exact run_eq_ok_iff.mpr ⟨[], h hbegins, rfl⟩

end Reader

end RowFilter.Json
