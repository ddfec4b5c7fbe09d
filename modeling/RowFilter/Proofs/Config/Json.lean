import RowFilter.Config
import RowFilter.Proofs.Json.Records

/-!
# Configurations survive being written

`Config.Text` says which texts stand for a configuration: both sections and their keys come in any
order, each of them may be left out if it has its default, and unknown keys have any value. Main
result: `Config.faithful`. All these texts are read as the configuration, and the one that is
written is among them.
-/

namespace RowFilter

open Json Reader

/-! ## Texts -/

/-- The texts of how selections are allocated. -/
def SelectionConfig.Text (c : SelectionConfig) : List Char → List Char → Prop :=
  Derived [⟨"index_width", Spells c.indexWidth.name, c.indexWidth = .auto⟩]

/-- A limit is null or a decimal number. -/
def MemoryConfig.LimitText (limit : Option Nat) (s t : List Char) : Prop :=
  skipBlanks s = limit.elim ['n', 'u', 'l', 'l'] (Nat.toDigits 10) ++ t

/-- The texts of how much memory may be reserved. -/
def MemoryConfig.Text (c : MemoryConfig) : List Char → List Char → Prop :=
  Derived [⟨"limit", LimitText c.limit, c.limit = none⟩]

namespace Config

/-- The texts of a configuration. -/
def Text (c : Config) : List Char → List Char → Prop :=
  Derived [⟨"selection", c.selection.Text, c.selection = {}⟩,
    ⟨"memory", c.memory.Text, c.memory = {}⟩]

/-- The whole text stands for the configuration, blanks apart. -/
def Stands (c : Config) (text : String) : Prop :=
  ∃ rest, c.Text text.toList rest ∧ skipBlanks rest = []

end Config

/-! ## Reading -/

/-- A width is read from any spelling of its name. -/
theorem IndexWidth.reader_apply {w : IndexWidth} {s t : List Char} (h : Spells w.name s t) :
    reader s = .ok (w, t) := by
  have found : (all.map fun w => Alternative.plain w.name w).find? (·.name == w.name) =
      some (.plain w.name w) := by
    cases w with
    | auto | int16 | int32 | int64 => rfl
  exact oneOf_apply (a := .plain w.name w) found rfl h

/-- What is not read has the default. -/
theorem getD_of_default {α : Type} {key : String} {keys : List String} {v default : α}
    (h : v = default ∨ key ∈ keys) : (if key ∈ keys then some v else none).getD default = v := by
  by_cases hmem : key ∈ keys
  · rw [if_pos hmem]
    rfl
  · rw [if_neg hmem]
    exact (h.resolve_right hmem).symm

namespace SelectionConfig

variable {c : SelectionConfig} {s t : List Char}

/-- The one key of the section is read into it, or left to its default. -/
theorem gathers (c : SelectionConfig) :
    Gathers members [⟨"index_width", Spells c.indexWidth.name, c.indexWidth = .auto⟩]
      fun keys => if "index_width" ∈ keys then some c.indexWidth else none :=
  gathers_singleton (fun _ _ h => Nat.le_of_lt h.lt) fun _ _ h _ => IndexWidth.reader_apply h

/-- A section takes at least one character. -/
theorem lt_of_text (h : c.Text s t) : t.length < s.length := Derived.lt h c.gathers.shrinks

/-- All texts of the section are read as it. -/
theorem reader_apply (h : c.Text s t) : reader s = .ok (c, t) := by
  refine h.record c.gathers fun keys hkeys => ?_
  rw [getD_of_default (hkeys _ (List.mem_singleton_self _))]

end SelectionConfig

namespace MemoryConfig

variable {limit : Option Nat} {s t : List Char}

/-- A limit that fits 64 bits is read. -/
theorem limit_apply (fits : ∀ n, limit = some n → n < 0x10000000000000000)
    (h : LimitText limit s t) (ht : Ends t) : option natural s = .ok (limit, t) := by
  cases limit with
  | none => exact option_null h
  | some n =>
    have hs : skipBlanks s = Nat.toDigits 10 n ++ t := h
    obtain ⟨c, cs, hcons, hc⟩ := (isDigits_toDigits n).exists_cons
    have hne : c ≠ 'n' := by
      rintro rfl
      cases hc
    -- the number is read from behind the blanks before it
    have hdigits : skipBlanks (c :: (cs ++ t)) = Nat.toDigits 10 n ++ t := by
      rw [← List.cons_append, ← hcons, ← hs, skipBlanks_skipBlanks]
    rw [hcons, List.cons_append] at hs
    exact option_apply hs hne (natural_apply (fits n rfl) hdigits ht)

/-- A limit takes at least one character, whether it is null or a number. -/
theorem lt_of_limitText (h : LimitText limit s t) : t.length < s.length := by
  cases limit with
  | none => exact lt_of_skipBlanks h
  | some n =>
    have hs : skipBlanks s = Nat.toDigits 10 n ++ t := h
    obtain ⟨c, cs, hcons, -⟩ := (isDigits_toDigits n).exists_cons
    rw [hcons] at hs
    exact lt_of_skipBlanks hs

variable {c : MemoryConfig} (fits : ∀ n, c.limit = some n → n < 0x10000000000000000)

include fits

/-- The one key of the section is read if its number fits 64 bits. -/
theorem gathers :
    Gathers members [⟨"limit", LimitText c.limit, c.limit = none⟩]
      fun keys => if "limit" ∈ keys then some c.limit else none :=
  gathers_singleton (fun _ _ h => Nat.le_of_lt (lt_of_limitText h)) fun _ _ h ht =>
    limit_apply fits h ht

theorem lt_of_text (h : c.Text s t) : t.length < s.length := Derived.lt h (gathers fits).shrinks

/-- All texts of the section are read as it if its limit fits 64 bits. -/
theorem reader_apply (h : c.Text s t) : reader s = .ok (c, t) := by
  refine h.record (gathers fits) fun keys hkeys => ?_
  rw [getD_of_default (hkeys _ (List.mem_singleton_self _))]

end MemoryConfig

namespace Config

variable {c : Config} {s t : List Char}

/-- Both sections are read into the configuration, in either order. -/
theorem gathers (fits : ∀ n, c.memory.limit = some n → n < 0x10000000000000000) :
    Gathers members
      [⟨"selection", c.selection.Text, c.selection = {}⟩, ⟨"memory", c.memory.Text, c.memory = {}⟩]
      fun keys =>
        { selection := if "selection" ∈ keys then some c.selection else none
          memory := if "memory" ∈ keys then some c.memory else none } := by
  constructor
  case shrinks =>
    intro e he s t h
    simp only [List.mem_cons, List.not_mem_nil, or_false] at he
    obtain rfl | rfl := he
    · exact Nat.le_of_lt (SelectionConfig.lt_of_text h)
    · exact Nat.le_of_lt (MemoryConfig.lt_of_text fits h)
  case known =>
    intro e he keys hnew
    simp only [List.mem_cons, List.not_mem_nil, or_false] at he
    obtain rfl | rfl := he
    · refine ⟨_, rfl, ?_, fun s t h _ => ?_⟩
      · simp only [hnew, if_false, Option.isSome_none]
      · have hread := SelectionConfig.reader_apply h
        refine (bind_apply hread).trans ?_
        simp only [List.mem_cons, String.reduceEq, false_or, true_or, if_true]
        rfl
    · refine ⟨_, rfl, ?_, fun s t h _ => ?_⟩
      · simp only [hnew, if_false, Option.isSome_none]
      · have hread := MemoryConfig.reader_apply fits h
        refine (bind_apply hread).trans ?_
        simp only [List.mem_cons, String.reduceEq, false_or, true_or, if_true]
        rfl
  case unknown =>
    intro key hkey
    have hselection : "selection" ≠ key := hkey _ (List.mem_cons_self ..)
    have hmemory : "memory" ≠ key := hkey _ (List.mem_cons_of_mem _ (List.mem_singleton_self _))
    refine ⟨?_, fun keys => ?_⟩
    · simp [members, hselection, hmemory]
    · simp only [List.mem_cons, hselection, hmemory, false_or]

/-- All texts of a configuration are read as it. -/
theorem reader_apply (fits : ∀ n, c.memory.limit = some n → n < 0x10000000000000000)
    (h : c.Text s t) : reader s = .ok (c, t) := by
  refine h.record (gathers fits) fun keys hkeys => ?_
  rw [getD_of_default (hkeys _ (List.mem_cons_self ..)),
    getD_of_default (hkeys _ (List.mem_cons_of_mem _ (List.mem_singleton_self _)))]

end Config

/-! ## Writing -/

/-- What is written for the section is one of its texts. -/
theorem SelectionConfig.text_pretty (c : SelectionConfig) (indent : Nat) (t : List Char) :
    c.Text
      (((Json.object [("index_width", .string c.indexWidth.name)]).prettyAt indent).toList ++ t)
      t := by
  refine derived_pretty (fun e he => ?_) (fun m hm t => ?_) t
  · cases List.mem_singleton.mp he
    rfl
  · cases List.mem_singleton.mp hm
    have hblank : skipBlanks (' ' :: ((quote c.indexWidth.name).toList ++ t)) =
        (quote c.indexWidth.name).toList ++ t :=
      (skipBlanks_blank rfl).trans (skipBlanks_quote _ t)
    exact Or.inl ⟨_, List.mem_singleton_self _, rfl, spells_of_quote hblank⟩

/-- What is written for a limit is its text. -/
theorem MemoryConfig.limitText_pretty (limit : Option Nat) (indent : Nat) (t : List Char) :
    LimitText limit
      (' ' :: (((limit.elim Json.null fun n => .integer n).prettyAt indent).toList ++ t)) t := by
  rw [LimitText]
  cases limit with
  | none =>
    have hnull : (Json.null.prettyAt indent).toList = ['n', 'u', 'l', 'l'] := by
      simp [prettyAt, compact]
    show skipBlanks (' ' :: ((Json.null.prettyAt indent).toList ++ t)) = ['n', 'u', 'l', 'l'] ++ t
    rw [hnull]
    rfl
  | some n =>
    have hdigits : ((Json.integer n).prettyAt indent).toList = Nat.toDigits 10 n := Nat.toList_repr
    show skipBlanks (' ' :: (((Json.integer n).prettyAt indent).toList ++ t)) =
      Nat.toDigits 10 n ++ t
    obtain ⟨c, cs, hcons, hc⟩ := (isDigits_toDigits n).exists_cons
    rw [hdigits, hcons, List.cons_append]
    exact (skipBlanks_blank rfl).trans (skipBlanks_cons (isBlank_of_isDigit hc))

/-- What is written for the section is one of its texts. -/
theorem MemoryConfig.text_pretty (c : MemoryConfig) (indent : Nat) (t : List Char) :
    c.Text
      (((Json.object [("limit", c.limit.elim .null fun n => .integer n)]).prettyAt indent).toList ++
        t) t := by
  refine derived_pretty (fun e he => ?_) (fun m hm t => ?_) t
  · cases List.mem_singleton.mp he
    rfl
  · cases List.mem_singleton.mp hm
    exact Or.inl ⟨_, List.mem_singleton_self _, rfl, limitText_pretty c.limit _ t⟩

namespace Config

/-- What is written stands for the configuration. -/
theorem stands_toText (c : Config) : c.Stands c.toText := by
  have htext : c.Text (c.toText.toList ++ []) [] := by
    refine derived_pretty (fun e he => ?_) (fun m hm t => ?_) []
    · simp only [List.mem_cons, List.not_mem_nil, or_false] at he
      obtain rfl | rfl := he
      · rfl
      · rfl
    · simp only [List.mem_cons, List.not_mem_nil, or_false] at hm
      obtain rfl | rfl := hm
      · refine Or.inl ⟨_, List.mem_cons_self .., rfl, ?_⟩
        exact (c.selection.text_pretty (0 + 2) t).congr (skipBlanks_blank rfl)
      · refine Or.inl ⟨_, List.mem_cons_of_mem _ (List.mem_singleton_self _), rfl, ?_⟩
        exact (c.memory.text_pretty (0 + 2) t).congr (skipBlanks_blank rfl)
  rw [List.append_nil] at htext
  exact ⟨[], htext, rfl⟩

/-- **A configuration survives being written**, if its limit fits 64 bits: it is read from what is
written, and from every text that leaves out what has its default, has the keys in another order or
has unknown keys. -/
theorem faithful (c : Config) (fits : ∀ n, c.memory.limit = some n → n < 0x10000000000000000) :
    ofText c.toText = .ok c ∧ c.Stands c.toText ∧ ∀ text, c.Stands text → ofText text = .ok c := by
  have hread : ∀ text, c.Stands text → ofText text = .ok c := by
    rintro text ⟨rest, htext, hblanks⟩
    exact run_eq_ok_iff.mpr ⟨rest, reader_apply fits htext, hblanks⟩
  exact ⟨hread _ c.stands_toText, c.stands_toText, hread⟩

/-! ### A text with another order -/

def Sample.config : Config := { memory := { limit := some 512 } }

/-- `selection` is missing, and each of the records has a key nobody asked for. -/
def Sample.text : String :=
  "\x7b\"note\": [null], \"memory\": \x7b\"unit\": \"B\", \"limit\": 512\x7d\x7d"

theorem Sample.memory_text :
    config.memory.Text " \x7b\"unit\": \"B\", \"limit\": 512\x7d\x7d".toList ['\x7d'] := by
  have hvalue : Valid " \"B\", \"limit\": 512\x7d\x7d".toList ", \"limit\": 512\x7d\x7d".toList :=
    .string (.cons (.plain (by decide) (by decide) (by decide)) .nil) rfl
  refine ⟨["unit", "limit"], "\"unit\": \"B\", \"limit\": 512\x7d\x7d".toList, rfl, ?_,
    fun e he => ?_⟩
  · refine .cons rfl ⟨": \"B\", \"limit\": 512\x7d\x7d".toList, _, spells_of_quote rfl, rfl,
      Or.inr ⟨by simp, hvalue⟩⟩ ?_
    refine .cons rfl ⟨": 512\x7d\x7d".toList, _, spells_of_quote rfl, rfl,
      Or.inl ⟨_, List.mem_singleton_self _, rfl, rfl⟩⟩ ?_
    exact .nil rfl
  · cases List.mem_singleton.mp he
    exact ⟨by decide, Or.inr (by decide)⟩

theorem Sample.stands : config.Stands text := by
  have hvalue : Valid " [null], \"memory\": \x7b\"unit\": \"B\", \"limit\": 512\x7d\x7d".toList
      ", \"memory\": \x7b\"unit\": \"B\", \"limit\": 512\x7d\x7d".toList :=
    .array rfl (.last (.word (List.mem_cons_self ..) rfl) rfl)
  refine ⟨[], ⟨["note", "memory"], _, rfl, ?_, fun e he => ?_⟩, rfl⟩
  · refine .cons rfl ⟨": [null], \"memory\": \x7b\"unit\": \"B\", \"limit\": 512\x7d\x7d".toList, _,
      spells_of_quote rfl, rfl, Or.inr ⟨by simp, hvalue⟩⟩ ?_
    refine .cons rfl ⟨": \x7b\"unit\": \"B\", \"limit\": 512\x7d\x7d".toList, _,
      spells_of_quote rfl, rfl,
      Or.inl ⟨_, List.mem_cons_of_mem _ (List.mem_singleton_self _), rfl, memory_text⟩⟩ ?_
    exact .nil rfl
  · simp only [List.mem_cons, List.not_mem_nil, or_false] at he
    obtain rfl | rfl := he
    · exact ⟨by decide, Or.inl rfl⟩
    · exact ⟨by decide, Or.inr (by decide)⟩

theorem sample_faithful :
    ofText Sample.config.toText = .ok Sample.config ∧ ofText Sample.text = .ok Sample.config := by
  have fits : ∀ n, Sample.config.memory.limit = some n → n < 0x10000000000000000 := by
    intro n h
    cases h
    decide
  obtain ⟨hwritten, -, hread⟩ := faithful Sample.config fits
  exact ⟨hwritten, hread _ Sample.stands⟩

end Config

end RowFilter
