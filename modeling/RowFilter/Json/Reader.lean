import RowFilter.Error

/-!
# Reading text from left to right

A `Reader` takes what it reads from the front of the text and leaves the rest. The first thing that
is wrong ends the reading, with a `Fault` that says of what sort it is.

The readers here and in the modules that build on this one follow `serde_json`. They take the same
texts for the same values, and they find the same first fault; its categories syntax, end of file
and data are `malformed`, `ended` and `unsuitable`.
-/

namespace RowFilter.Json

/-- What is wrong with a text. -/
inductive Fault
  /-- It is no JSON. -/
  | malformed
  /-- It ends too early. -/
  | ended
  /-- It is JSON so far, but not for a value of the wanted type. -/
  | unsuitable
  /-- The value that was read breaks a rule. -/
  | refused (why : Error)

/-- Reads a value from the front of a text. -/
abbrev Reader (α : Type) := StateT (List Char) (Except Fault) α

namespace Reader

def fail {α : Type} (f : Fault) : Reader α := throw f

/-! ## Characters -/

def isBlank (c : Char) : Bool := c == ' ' || c == '\n' || c == '\t' || c == '\r'

def skipBlanks (s : List Char) : List Char := s.dropWhile isBlank

/-- The next character that is no blank, which stays in the text. -/
def next? : Reader (Option Char) := fun s =>
  let s := skipBlanks s
  .ok (s.head?, s)

/-- The next character that is no blank; the text must not end before it. -/
def next : Reader Char := do
  match ← next? with
  | some c => return c
  | none => fail .ended

/-- Takes one character, whatever it is. -/
def skip : Reader Unit := modify List.tail

/-- Takes the given characters. -/
def word : List Char → Reader Unit
  | [] => pure ()
  | c :: cs => fun s =>
    match s with
    | [] => .error .ended
    | d :: s => if d = c then word cs s else .error .malformed

/-- Takes one mark, after blanks. -/
def mark (c : Char) : Reader Unit := do
  if (← next) = c then skip else fail .malformed

/-! ## Whole texts -/

/-- Reads a value that is the whole text. -/
def run {α : Type} (r : Reader α) (text : String) : Except Fault α := do
  let (v, rest) ← StateT.run r text.toList
  if (skipBlanks rest).isEmpty then return v else throw .malformed

end Reader

end RowFilter.Json
