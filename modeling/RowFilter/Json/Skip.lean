import RowFilter.Json.StringReader

/-!
# Skipping values

A value nobody asked for must be JSON, but its numbers may be of any size and its strings may hold
halves of characters. A number that breaks off is malformed here even where the text ends. All this
is how `serde_json` ignores a value.
-/

namespace RowFilter.Json

namespace Skip

/-- Digits, of which there must be one. -/
def digits (s : List Char) : Except Fault (List Char) :=
  match s with
  | c :: _ => if c.isDigit then .ok (s.dropWhile Char.isDigit) else .error .malformed
  | [] => .error .malformed

/-- An exponent, if there is one. -/
def exponent (s : List Char) : Except Fault (List Char) :=
  match s with
  | 'e' :: s | 'E' :: s => digits (match s with
    | '+' :: s => s
    | '-' :: s => s
    | s => s)
  | s => .ok s

/-- A number behind its minus sign. -/
def number (s : List Char) : Except Fault (List Char) := do
  let rest ← digits s
  if s.head? = some '0' ∧ ((s.drop 1).head?.any Char.isDigit) = true then throw .malformed
  else match rest with
    | '.' :: s => exponent (← digits s)
    | s => exponent s

/-- Given characters. -/
def word (cs : List Char) (s : List Char) : Except Fault (List Char) :=
  (Reader.word cs s).map Prod.snd

/-- A string behind its opening quote. -/
def string (s : List Char) : Except Fault (List Char) := (stringBody false s).map Prod.snd

mutual

/-- A value. The first argument bounds the count of steps. -/
def value : Nat → List Char → Except Fault (List Char)
  | 0, _ => .error .ended
  | steps + 1, s =>
    match Reader.skipBlanks s with
    | [] => .error .ended
    | 'n' :: s => word ['u', 'l', 'l'] s
    | 't' :: s => word ['r', 'u', 'e'] s
    | 'f' :: s => word ['a', 'l', 's', 'e'] s
    | '"' :: s => string s
    | '-' :: s => number s
    | '[' :: s =>
      match Reader.skipBlanks s with
      | ']' :: s => .ok s
      | [] => .error .ended
      | s => items steps s
    | '\x7b' :: s =>
      match Reader.skipBlanks s with
      | '\x7d' :: s => .ok s
      | s => members steps s
    | c :: s => if c.isDigit then number (c :: s) else .error .malformed

/-- The items of an array, of which there is one, up to the closing bracket. -/
def items : Nat → List Char → Except Fault (List Char)
  | 0, _ => .error .ended
  | steps + 1, s => do
    let s ← value steps s
    match Reader.skipBlanks s with
    | ',' :: s => items steps s
    | ']' :: s => return s
    | [] => throw .ended
    | _ => throw .malformed

/-- The members of an object, of which there is one, up to the closing brace. -/
def members : Nat → List Char → Except Fault (List Char)
  | 0, _ => .error .ended
  | steps + 1, s =>
    match Reader.skipBlanks s with
    | '"' :: s => do
      let s ← string s
      match Reader.skipBlanks s with
      | ':' :: s => do
        let s ← value steps s
        match Reader.skipBlanks s with
        | ',' :: s => members steps s
        | '\x7d' :: s => return s
        | [] => throw .ended
        | _ => throw .malformed
      | [] => throw .ended
      | _ => throw .malformed
    | [] => .error .ended
    | _ => .error .malformed

end

end Skip

/-- Skips a value. Each step but the last takes a character or opens a value, so twice the length
of the text is enough steps. -/
def Reader.skipValue : Reader Unit := fun s =>
  (Skip.value (2 * s.length + 2) s).map fun rest => ((), rest)

end RowFilter.Json
