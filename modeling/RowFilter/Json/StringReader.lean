import RowFilter.Json.Reader

/-!
# Reading strings

A string is read from behind its opening quote, as `serde_json` reads it. Escapes are replaced by
what they stand for; two escapes that are halves of one character count as that character, and a
half alone is refused. A string that is only skipped may hold such halves.
-/

namespace RowFilter.Json

/-- The value of a hexadecimal digit. -/
def hexValue? (c : Char) : Option Nat :=
  if '0' ≤ c ∧ c ≤ '9' then some (c.toNat - '0'.toNat)
  else if 'a' ≤ c ∧ c ≤ 'f' then some (c.toNat - 'a'.toNat + 10)
  else if 'A' ≤ c ∧ c ≤ 'F' then some (c.toNat - 'A'.toNat + 10)
  else none

/-- The number of four hexadecimal digits. The text ends too early if it has fewer than four bytes
left. -/
def hexNumber (s : List Char) : Except Fault (Nat × List Char) :=
  match s with
  | a :: b :: c :: d :: rest =>
    match hexValue? a, hexValue? b, hexValue? c, hexValue? d with
    | some a, some b, some c, some d => .ok (((a * 16 + b) * 16 + c) * 16 + d, rest)
    | _, _, _, _ => .error .malformed
  | short => .error (if (String.ofList short).utf8ByteSize < 4 then .ended else .malformed)

/-- The first of the two numbers that together stand for a character beyond `U+FFFF`. -/
def isHighHalf (n : Nat) : Bool := decide (0xD800 ≤ n ∧ n ≤ 0xDBFF)

/-- The second of them. -/
def isLowHalf (n : Nat) : Bool := decide (0xDC00 ≤ n ∧ n ≤ 0xDFFF)

/-- The character of two halves. -/
def joinHalves (high low : Nat) : Char :=
  Char.ofNat (0x10000 + (high - 0xD800) * 0x400 + (low - 0xDC00))

/-- The second half, which must follow as an escape of its own. -/
def lowHalf (high : Nat) : List Char → Except Fault (Char × List Char)
  | [] => .error .ended
  | '\\' :: [] => .error .ended
  | '\\' :: 'u' :: s => do
    let (low, s) ← hexNumber s
    if isLowHalf low then return (joinHalves high low, s) else throw .malformed
  | _ => .error .malformed

/-- The character that a number stands for, with the other half if it is one. A text that is only
skipped is not looked at for halves. -/
def numbered (strict : Bool) (n : Nat) (s : List Char) : Except Fault (Char × List Char) :=
  if !strict then .ok (Char.ofNat n, s)
  else if isLowHalf n then .error .malformed
  else if isHighHalf n then lowHalf n s
  else .ok (Char.ofNat n, s)

/-- What an escape stands for, read from behind its backslash. -/
def unescape (strict : Bool) (s : List Char) : Except Fault (Char × List Char) :=
  match s with
  | [] => .error .ended
  | '"' :: s => .ok ('"', s)
  | '\\' :: s => .ok ('\\', s)
  | '/' :: s => .ok ('/', s)
  | 'b' :: s => .ok (Char.ofNat 8, s)
  | 'f' :: s => .ok (Char.ofNat 12, s)
  | 'n' :: s => .ok ('\n', s)
  | 'r' :: s => .ok ('\r', s)
  | 't' :: s => .ok ('\t', s)
  | 'u' :: s => do
    let (n, s) ← hexNumber s
    numbered strict n s
  | _ => .error .malformed

/-- Four digits are taken. -/
theorem length_of_hexNumber {s rest : List Char} {n : Nat} (h : hexNumber s = .ok (n, rest)) :
    rest.length + 4 = s.length := by
  unfold hexNumber at h
  split at h
  · split at h
    · simp only [Except.ok.injEq, Prod.mk.injEq] at h
      simp [← h.2]
    · cases h
  · cases h

/-- The second half of a character takes some of the text. -/
theorem length_of_lowHalf {high : Nat} {s rest : List Char} {c : Char}
    (h : lowHalf high s = .ok (c, rest)) : rest.length < s.length := by
  unfold lowHalf at h
  split at h
  · cases h
  · cases h
  · rename_i s
    cases hex : hexNumber s with
    | error e => simp [hex, bind, Except.bind] at h
    | ok p =>
      have := length_of_hexNumber (hex.trans rfl)
      simp only [hex, bind, Except.bind] at h
      split at h
      · simp only [pure, Except.pure, Except.ok.injEq, Prod.mk.injEq] at h
        simp [← h.2]
        omega
      · cases h
  · cases h

/-- What is left behind an escape by number is no longer than before. -/
theorem length_of_numbered {strict : Bool} {n : Nat} {s rest : List Char} {c : Char}
    (h : numbered strict n s = .ok (c, rest)) : rest.length ≤ s.length := by
  unfold numbered at h
  split at h
  · simp_all
  · split at h
    · cases h
    · split at h
      · exact Nat.le_of_lt (length_of_lowHalf h)
      · simp_all

/-- An escape takes at least one character. -/
theorem length_of_unescape {strict : Bool} {s rest : List Char} {c : Char}
    (h : unescape strict s = .ok (c, rest)) : rest.length < s.length := by
  unfold unescape at h
  split at h
  case h_1 => cases h
  case h_10 =>
    rename_i s
    cases hex : hexNumber s with
    | error e => simp [hex, bind, Except.bind] at h
    | ok p =>
      have := length_of_hexNumber (hex.trans rfl)
      simp only [hex, bind, Except.bind] at h
      have := length_of_numbered h
      simp
      omega
  case h_11 => cases h
  all_goals simp_all

/-- The characters of a string, up to its closing quote, which is taken too. -/
def stringBody (strict : Bool) (s : List Char) : Except Fault (List Char × List Char) :=
  match s with
  | [] => .error .ended
  | '"' :: s => .ok ([], s)
  | '\\' :: s =>
    match escaped : unescape strict s with
    | .error e => .error e
    | .ok (c, rest) =>
      have := length_of_unescape escaped
      match stringBody strict rest with
      | .error e => .error e
      | .ok (cs, rest) => .ok (c :: cs, rest)
  | c :: s =>
    if c.toNat < 32 then .error .malformed
    else match stringBody strict s with
      | .error e => .error e
      | .ok (cs, rest) => .ok (c :: cs, rest)
termination_by s.length

/-- Reads a string from behind its opening quote. -/
def Reader.stringRest : Reader String := fun s => do
  let (cs, rest) ← stringBody true s
  return (String.ofList cs, rest)

end RowFilter.Json
