import Mathlib.Tactic.SplitIfs
import RowFilter.Json
import RowFilter.Json.StringReader
import RowFilter.Proofs.Fault

/-!
# How strings are spelled

A character of a string is written as itself or as an escape, and most can be escaped in more than
one way. `Spelled` relates what stands between the quotes of a string to the characters of the
string. Main result: `stringBody_spelled`. Every spelling is read as its characters, and
`Json.quote` writes one of them (`spelled_escape`).
-/

namespace RowFilter.Json

/-! ## Spellings -/

/-- The letters behind a backslash that stand for a character. -/
def shortEscapes : List (Char × Char) :=
  [('"', '"'), ('\\', '\\'), ('/', '/'), ('b', Char.ofNat 8), ('f', Char.ofNat 12), ('n', '\n'),
    ('r', '\r'), ('t', '\t')]

/-- Four hexadecimal digits make a number. -/
inductive IsHex : List Char → Nat → Prop
  | intro {a b c d : Char} {w x y z : Nat} (ha : hexValue? a = some w) (hb : hexValue? b = some x)
      (hc : hexValue? c = some y) (hd : hexValue? d = some z) :
      IsHex [a, b, c, d] (((w * 16 + x) * 16 + y) * 16 + z)

/-- What stands for a character in a string. A text that is only skipped may have halves of
characters, and then it does not matter which character is meant. -/
inductive Stands (strict : Bool) : List Char → Char → Prop
  | plain {c : Char} (hquote : c ≠ '"') (hbackslash : c ≠ '\\') (hcontrol : ¬c.toNat < 32) :
      Stands strict [c] c
  | short {letter c : Char} (h : (letter, c) ∈ shortEscapes) : Stands strict ['\\', letter] c
  | numbered {digits : List Char} {n : Nat} (hex : IsHex digits n)
      (whole : strict = true → isLowHalf n = false ∧ isHighHalf n = false) :
      Stands strict ('\\' :: 'u' :: digits) (Char.ofNat n)
  | halves {digits more : List Char} {high low : Nat} (isStrict : strict = true)
      (hex : IsHex digits high) (hexLow : IsHex more low) (isHigh : isHighHalf high = true)
      (isLow : isLowHalf low = true) :
      Stands strict ('\\' :: 'u' :: (digits ++ '\\' :: 'u' :: more)) (joinHalves high low)

/-- What stands between the quotes of a string with the given characters. -/
inductive Spelled (strict : Bool) : List Char → List Char → Prop
  | nil : Spelled strict [] []
  | cons {code text cs : List Char} {c : Char} (h : Stands strict code c)
      (more : Spelled strict text cs) : Spelled strict (code ++ text) (c :: cs)

/-- A text begins with a string, however it is spelled, and goes on with the rest. There may be
blanks before it. -/
def Spells (x : String) (s t : List Char) : Prop :=
  ∃ code, Reader.skipBlanks s = '"' :: (code ++ '"' :: t) ∧ Spelled true code x.toList

/-! ## Reading a spelling -/

section Reading

variable {strict : Bool} {c : Char} {s rest : List Char}

/-- An escape gives its character, and reading goes on behind it. -/
theorem stringBody_of_unescape (h : unescape strict s = .ok (c, rest)) :
    stringBody strict ('\\' :: s) = (stringBody strict rest).map fun p => (c :: p.1, p.2) := by
  rw [stringBody]
  split
  next e he =>
    rw [h] at he
    cases he
  next c' rest' hok =>
    rw [h] at hok
    cases hok
    cases stringBody strict rest with
    | error e => rfl
    | ok p => rfl

/-- A character that needs no escape stands for itself. -/
theorem stringBody_plain (hquote : c ≠ '"') (hbackslash : c ≠ '\\') (h : ¬c.toNat < 32) :
    stringBody strict (c :: s) = (stringBody strict s).map fun p => (c :: p.1, p.2) := by
  rw [stringBody, if_neg h]
  · cases stringBody strict s with
    | error e => rfl
    | ok p => rfl
  · exact hquote
  · exact hbackslash

/-- Four hexadecimal digits give their number. -/
theorem hexNumber_append {digits : List Char} {n : Nat} (h : IsHex digits n) (s : List Char) :
    hexNumber (digits ++ s) = .ok (n, s) := by
  cases h with
  | intro ha hb hc hd =>
    show hexNumber (_ :: _ :: _ :: _ :: s) = _
    simp only [hexNumber, ha, hb, hc, hd]

/-- No number is both halves of a character. -/
theorem isLowHalf_of_isHighHalf {n : Nat} (h : isHighHalf n = true) : isLowHalf n = false := by
  rw [isHighHalf, decide_eq_true_iff] at h
  exact decide_eq_false (by omega)

/-- A number that is no half of a character is the character, and is not looked at if the text is
only skipped. -/
theorem numbered_eq {n : Nat}
    (whole : strict = true → isLowHalf n = false ∧ isHighHalf n = false) (s : List Char) :
    numbered strict n s = .ok (Char.ofNat n, s) := by
  cases strict with
  | false => rfl
  | true =>
    obtain ⟨hlow, hhigh⟩ := whole rfl
    simp only [numbered, hlow, hhigh, Bool.not_true, Bool.false_eq_true, if_false]

/-- What stands for a character is read as that character. -/
theorem stringBody_stands {code : List Char} (h : Stands strict code c) (s : List Char) :
    stringBody strict (code ++ s) = (stringBody strict s).map fun p => (c :: p.1, p.2) := by
  cases h with
  | plain hquote hbackslash hcontrol => exact stringBody_plain hquote hbackslash hcontrol
  | @short letter _ h =>
    have hread : unescape strict (letter :: s) = .ok (c, s) := by
      simp only [shortEscapes, List.mem_cons, Prod.mk.injEq, List.not_mem_nil, or_false] at h
      obtain ⟨rfl, rfl⟩ | ⟨rfl, rfl⟩ | ⟨rfl, rfl⟩ | ⟨rfl, rfl⟩ | ⟨rfl, rfl⟩ | ⟨rfl, rfl⟩ |
        ⟨rfl, rfl⟩ | ⟨rfl, rfl⟩ := h
      all_goals rfl
    exact stringBody_of_unescape hread
  | @numbered digits n hex whole =>
    have hread : unescape strict ('u' :: (digits ++ s)) = .ok (Char.ofNat n, s) := by
      show (hexNumber (digits ++ s) >>= fun p => numbered strict p.1 p.2) = _
      rw [hexNumber_append hex, ok_bind, numbered_eq whole]
    exact stringBody_of_unescape hread
  | @halves digits more high low isStrict hex hexLow isHigh isLow =>
    subst isStrict
    have hlow : lowHalf high ('\\' :: 'u' :: (more ++ s)) = .ok (joinHalves high low, s) := by
      show (hexNumber (more ++ s) >>= fun p =>
        if isLowHalf p.1 then pure (joinHalves high p.1, p.2) else throw .malformed) = _
      rw [hexNumber_append hexLow, ok_bind, if_pos isLow]
      rfl
    have hread : unescape true ('u' :: (digits ++ '\\' :: 'u' :: (more ++ s))) =
        .ok (joinHalves high low, s) := by
      show (hexNumber (digits ++ _) >>= fun p => numbered true p.1 p.2) = _
      rw [hexNumber_append hex, ok_bind]
      simp only [numbered, isHigh, isLowHalf_of_isHighHalf isHigh, Bool.not_true,
        Bool.false_eq_true, if_false, if_true, hlow]
    rw [List.cons_append, List.cons_append, List.append_assoc]
    exact stringBody_of_unescape hread

/-- **Every spelling is read**: what is spelled up to the closing quote is read as its
characters. -/
theorem stringBody_spelled {text cs : List Char} (h : Spelled strict text cs) (t : List Char) :
    stringBody strict (text ++ '"' :: t) = .ok (cs, t) := by
  induction h with
  | nil => rw [List.nil_append, stringBody]
  | cons h _ ih =>
    rw [List.append_assoc, stringBody_stands h, ih]
    rfl

end Reading

/-- A string is read from any spelling, up to its closing quote. -/
theorem Reader.stringRest_apply {x : String} {code : List Char} (h : Spelled true code x.toList)
    (t : List Char) : stringRest (code ++ '"' :: t) = .ok (x, t) := by
  rw [stringRest, stringBody_spelled h, ok_bind]
  show Except.ok (String.ofList x.toList, t) = _
  rw [String.ofList_toList]

/-! ## The spelling that is written -/

/-- A digit that is written is read back. -/
theorem hexValue?_hexDigit : ∀ n < 16, hexValue? (hexDigit n) = some n := by decide

/-- A control character is spelled by its number. -/
theorem stands_control {c : Char} (h : c.toNat < 32) :
    Stands true ['\\', 'u', '0', '0', hexDigit (c.toNat / 16), hexDigit (c.toNat % 16)] c := by
  have hzero : hexValue? '0' = some 0 := rfl
  have hex := IsHex.intro hzero hzero (hexValue?_hexDigit (c.toNat / 16) (by omega))
    (hexValue?_hexDigit (c.toNat % 16) (by omega))
  have hnumber : ((0 * 16 + 0) * 16 + c.toNat / 16) * 16 + c.toNat % 16 = c.toNat := by omega
  rw [hnumber] at hex
  have hstands : Stands true _ (Char.ofNat c.toNat) := .numbered hex fun _ =>
    ⟨decide_eq_false (by omega), decide_eq_false (by omega)⟩
  rwa [Char.ofNat_toNat] at hstands

/-- The escape of a character stands for it. -/
theorem stands_escape (c : Char) : Stands true (escape c) c := by
  have short : ∀ letter n, (letter, Char.ofNat n) ∈ shortEscapes → c.toNat = n →
      Stands true ['\\', letter] c := by
    intro letter n h hn
    rw [← hn, Char.ofNat_toNat] at h
    exact .short h
  unfold escape
  split_ifs with hquote hbackslash h8 h9 h10 h12 h13 hcontrol
  · exact short '"' 34 (by decide) (by rw [hquote]; rfl)
  · exact short '\\' 92 (by decide) (by rw [hbackslash]; rfl)
  · exact short 'b' 8 (by decide) h8
  · exact short 't' 9 (by decide) h9
  · exact short 'n' 10 (by decide) h10
  · exact short 'f' 12 (by decide) h12
  · exact short 'r' 13 (by decide) h13
  · exact stands_control hcontrol
  · exact .plain hquote hbackslash hcontrol

/-- What is written for a string spells it. -/
theorem spelled_escape (cs : List Char) : Spelled true (cs.flatMap escape) cs := by
  induction cs with
  | nil => exact .nil
  | cons c cs ih =>
    rw [List.flatMap_cons]
    exact .cons (stands_escape c) ih

theorem toList_quote (s : String) : (quote s).toList = '"' :: (s.toList.flatMap escape ++ ['"']) :=
  String.toList_ofList

/-- A string in quotes is one of its spellings. -/
theorem spells_of_quote {x : String} {s t : List Char}
    (h : Reader.skipBlanks s = (quote x).toList ++ t) : Spells x s t := by
  rw [toList_quote, List.cons_append, List.append_assoc] at h
  exact ⟨_, h, spelled_escape x.toList⟩

end RowFilter.Json
