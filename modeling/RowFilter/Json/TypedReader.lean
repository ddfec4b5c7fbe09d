import RowFilter.Json.NumberReader
import RowFilter.Json.Skip

/-!
# Reading values of given types

Readers for numbers, strings and the like, and for the three ways to build larger ones: lists,
records and alternatives. They read what `serde_json` reads with the readers that `serde` derives
for types. A record is written as an object or as an array of its members in order. An alternative
is written as its name, or as an object whose one key is the name and whose value is what the
alternative carries.
-/

namespace RowFilter.Json

namespace Reader

/-! ## Values of the wrong type -/

/-- Refuses a value of the wrong type. Its front must still be JSON: an array or an object is
refused at its opening bracket, any other value as a whole. -/
def mismatch {α : Type} : Reader α := do
  match ← next with
  | 'n' => word ['n', 'u', 'l', 'l']
  | 't' => word ['t', 'r', 'u', 'e']
  | 'f' => word ['f', 'a', 'l', 's', 'e']
  | '"' => do
    skip
    let _ ← stringRest
  | '[' => pure ()
  | '\x7b' => pure ()
  | c =>
    if c = '-' || c.isDigit then
      let _ ← (Number.read : Reader Number)
    else fail .malformed
  fail .unsuitable

/-! ## Simple values -/

def null : Reader Unit := do
  if (← next) = 'n' then word ['n', 'u', 'l', 'l'] else mismatch

def bool : Reader Bool := do
  match ← next with
  | 't' => do
    word ['t', 'r', 'u', 'e']
    return true
  | 'f' => do
    word ['f', 'a', 'l', 's', 'e']
    return false
  | _ => mismatch

def string : Reader String := do
  if (← next) = '"' then
    skip
    stringRest
  else mismatch

def number : Reader Number := do
  let c ← next
  if c = '-' || c.isDigit then (Number.read : Reader Number) else mismatch

/-- An integer from `0` up to below `2 ^ 64`. -/
def natural : Reader Nat := do
  match ← number with
  | .natural n => return n
  | _ => fail .unsuitable

/-- An integer that fits 64 bits with a sign. -/
def int64 : Reader Int64 := do
  match ← number with
  | .natural n => if n < 0x8000000000000000 then return Int64.ofNat n else fail .unsuitable
  | .negative n => return Int64.ofInt n
  | .double _ => fail .unsuitable

/-- A double, which may be written as an integer. -/
def double : Reader Binary64 := Number.toBinary64 <$> number

/-- Null, or a value. -/
def option {α : Type} (r : Reader α) : Reader (Option α) := do
  if (← next) = 'n' then
    null
    return none
  else some <$> r

/-! ## Lists -/

/-- Whether another item follows in an array, whose bracket is open; takes the comma before it. -/
def hasItem (isFirst : Bool) : Reader Bool := do
  let c ← next
  if c = ']' then return false
  else if isFirst then return true
  else if c = ',' then
    skip
    if (← next) = ']' then fail .malformed else return true
  else fail .malformed

/-- The items of an array from here on. The first argument bounds their count. -/
def itemsFrom {α : Type} (item : Reader α) : Nat → Bool → Reader (List α)
  | 0, _ => fail .ended
  | most + 1, isFirst => do
    if ← hasItem isFirst then
      let v ← item
      let vs ← itemsFrom item most false
      return v :: vs
    else return []

/-- An array of items. Each but the first takes a comma, so their count is at most the length of
the text. -/
def list {α : Type} (item : Reader α) : Reader (List α) := do
  if (← next) = '[' then
    skip
    let vs ← itemsFrom item ((← get).length + 1) true
    mark ']'
    return vs
  else mismatch

/-! ## Records -/

/-- The key of the member that follows in an object, whose brace is open; takes the comma before
it. -/
def key? (isFirst : Bool) : Reader (Option String) := do
  let c ← next
  if c = '\x7d' then return none
  else
    if !isFirst then
      if c = ',' then skip else fail .malformed
    if (← next) = '"' then
      skip
      some <$> stringRest
    else fail .malformed

/-- A member of a record under construction. -/
structure Member (σ : Type) where
  key : String
  /-- Whether the record has it already. -/
  isThere : σ → Bool
  /-- Reads its value into the record. -/
  read : σ → Reader σ

/-- The members of a record written as an array, in order, as far as they are there. -/
def positional {σ : Type} : List (Member σ) → Bool → σ → Reader σ
  | [], _, record => return record
  | m :: ms, isFirst, record => do
    if ← hasItem isFirst then
      let record ← m.read record
      positional ms false record
    else return record

/-- The members of a record written as an object, in any order, none of them twice; others are
skipped. The first argument bounds their count. -/
def keyed {σ : Type} (members : List (Member σ)) : Nat → Bool → σ → Reader σ
  | 0, _, _ => fail .ended
  | most + 1, isFirst, record => do
    match ← key? isFirst with
    | none => return record
    | some key =>
      match members.find? (·.key == key) with
      | some m =>
        if m.isThere record then fail .unsuitable
        else
          mark ':'
          let record ← m.read record
          keyed members most false record
      | none =>
        mark ':'
        skipValue
        keyed members most false record

/-- A record, in either way of writing it; `finish` makes the value once all members are read. -/
def record {σ α : Type} (members : List (Member σ)) (start : σ) (finish : σ → Except Fault α) :
    Reader α := do
  match ← next with
  | '[' => do
    skip
    let read ← positional members true start
    let v ← (finish read : Except Fault α)
    mark ']'
    return v
  | '\x7b' => do
    skip
    let read ← keyed members ((← get).length + 1) true start
    let v ← (finish read : Except Fault α)
    mark '\x7d'
    return v
  | _ => mismatch

/-! ## Alternatives -/

/-- One of several alternatives. -/
structure Alternative (α : Type) where
  name : String
  /-- The value, if the alternative carries nothing. -/
  alone : Option α
  /-- Reads what it carries. -/
  carried : Reader α

/-- An alternative that carries nothing. -/
def Alternative.plain {α : Type} (name : String) (v : α) : Alternative α :=
  ⟨name, some v, do
    null
    return v⟩

/-- An alternative that carries a value. -/
def Alternative.carrying {α β : Type} (name : String) (make : β → α) (r : Reader β) :
    Alternative α :=
  ⟨name, none, make <$> r⟩

/-- A value of one of several alternatives. -/
def oneOf {α : Type} (alternatives : List (Alternative α)) : Reader α := do
  let find (name : String) : Reader (Alternative α) :=
    match alternatives.find? (·.name == name) with
    | some a => return a
    | none => fail .unsuitable
  match ← next with
  | '"' => do
    skip
    let a ← find (← stringRest)
    match a.alone with
    | some v => return v
    | none => fail .unsuitable
  | '\x7b' => do
    skip
    -- the name stands where a key does, so a value that is no string is malformed here
    match ← key? true with
    | some name =>
      let a ← find name
      mark ':'
      let v ← a.carried
      mark '\x7d'
      return v
    | none => fail .malformed
  | _ => fail .malformed

end Reader

end RowFilter.Json
