import RowFilter.Decimal.Layout

/-!
# JSON documents and their text

A `Json` is a document. It is written either on one line without blanks (`Json.compact`) or with
one member to a line (`Json.pretty`), as `serde_json` writes it: with its escapes, its indentation,
the shortest digits of doubles, and null for a double that is no number.
-/

namespace RowFilter

inductive Json
  | null
  | bool (b : Bool)
  | integer (n : Int)
  | double (x : Binary64)
  | string (s : String)
  | array (items : List Json)
  | object (members : List (String × Json))

namespace Json

/-! ## Strings -/

def hexDigit (n : Nat) : Char := (Nat.digitChar n)

/-- How a character stands in a string: quotes, backslashes and control characters are escaped. -/
def escape (c : Char) : List Char :=
  if c = '"' then ['\\', '"']
  else if c = '\\' then ['\\', '\\']
  else if c.toNat = 8 then ['\\', 'b']
  else if c.toNat = 9 then ['\\', 't']
  else if c.toNat = 10 then ['\\', 'n']
  else if c.toNat = 12 then ['\\', 'f']
  else if c.toNat = 13 then ['\\', 'r']
  else if c.toNat < 32 then
    ['\\', 'u', '0', '0', hexDigit (c.toNat / 16), hexDigit (c.toNat % 16)]
  else [c]

/-- A string in quotes. -/
def quote (s : String) : String :=
  String.ofList ('"' :: (s.toList.flatMap escape ++ ['"']))

/-! ## Numbers -/

/-- Doubles in JSON are positional from `0.00001` up to below `1e16`, a positive exponent has its
sign, a half goes to the even neighbour, and what is no number is null. -/
def doubleLayout : Layout where
  leastPlain := -5
  greatestPlain := 15
  plusSign := true
  tie := .even
  nan := "null"
  infinity := "null"
  negativeInfinity := "null"

/-! ## Documents -/

mutual

/-- The text without blanks. -/
def compact : Json → String
  | null => "null"
  | bool b => if b then "true" else "false"
  | integer n => toString n
  | double x => doubleLayout.text x
  | string s => quote s
  | array items => "[" ++ ",".intercalate (compactItems items) ++ "]"
  | object members => "\x7b" ++ ",".intercalate (compactMembers members) ++ "\x7d"

def compactItems : List Json → List String
  | [] => []
  | j :: js => j.compact :: compactItems js

def compactMembers : List (String × Json) → List String
  | [] => []
  | (key, j) :: js => (quote key ++ ":" ++ j.compact) :: compactMembers js

end

/-- A new line with some blanks of indentation. -/
def newLine (indent : Nat) : String := "\n" ++ String.ofList (List.replicate indent ' ')

/-- Lines between brackets, which stand together if there is no line. -/
def block (opening closing : String) (indent : Nat) (lines : List String) : String :=
  if lines.isEmpty then opening ++ closing
  else opening ++ newLine (indent + 2) ++ ("," ++ newLine (indent + 2)).intercalate lines
    ++ newLine indent ++ closing

mutual

/-- The text with one item or member to a line, each level two blanks further in. -/
def prettyAt (indent : Nat) : Json → String
  | array items => block "[" "]" indent (prettyItems (indent + 2) items)
  | object members => block "\x7b" "\x7d" indent (prettyMembers (indent + 2) members)
  | j => j.compact

def prettyItems (indent : Nat) : List Json → List String
  | [] => []
  | j :: js => j.prettyAt indent :: prettyItems indent js

def prettyMembers (indent : Nat) : List (String × Json) → List String
  | [] => []
  | (key, j) :: js => (quote key ++ ": " ++ j.prettyAt indent) :: prettyMembers indent js

end

def pretty (j : Json) : String := j.prettyAt 0

end Json

end RowFilter
