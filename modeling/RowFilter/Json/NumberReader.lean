import RowFilter.Json.Reader

/-!
# Reading numbers

An integer that fits 64 bits is read exactly. Every other number is a double: `-0`, an integer
beyond 64 bits, and whatever has a point or an exponent. Of its digits only those are kept that fit
a 64-bit significand, and the double is one multiplication or division away from it, so it need not
be the nearest one. These are the numbers of `serde_json` without its option for exact doubles.
-/

namespace RowFilter.Json

/-- A number as it was written. -/
inductive Number
  /-- An integer from `0` up to below `2 ^ 64`. -/
  | natural (n : Nat)
  /-- An integer from `-2 ^ 63` up to below `0`. -/
  | negative (n : Int)
  | double (x : Binary64)

namespace Number

def digitValue (c : Char) : Nat := c.toNat - '0'.toNat

/-- Appends digits to a significand as long as it stays below `2 ^ 64`, and returns the digits that
are left. -/
def extend (significand : Nat) : List Char → Nat × List Char
  | [] => (significand, [])
  | c :: cs =>
    let longer := significand * 10 + digitValue c
    if longer < 0x10000000000000000 then extend longer cs else (significand, c :: cs)

/-- A power of ten as a double, for an exponent up to `308`. -/
def powerOfTen (exponent : Nat) : Float := Float.ofScientific 1 false exponent

/-- Divides by a power of ten, in steps of `10 ^ 308`, until nothing is left. -/
def scaleDown (x : Float) (exponent : Nat) : Float :=
  if exponent ≤ 308 then x / powerOfTen exponent
  else if x == 0.0 then x
  else scaleDown (x / powerOfTen 308) (exponent - 308)
termination_by exponent

/-- The double of a significand and a decimal exponent; it must be finite. -/
def scaled (isNegative : Bool) (significand : Nat) (exponent : Int) : Except Fault Number :=
  let x := Float.ofNat significand
  if 308 < exponent ∧ significand ≠ 0 then .error .malformed
  else
    let magnitude :=
      if exponent < 0 then scaleDown x exponent.natAbs
      else x * powerOfTen (min exponent.toNat 308)
    let x := Binary64.ofFloat (if isNegative then -magnitude else magnitude)
    if x.isInfinite then .error .malformed else .ok (.double x)

/-- The digits at the front of a text, of which there must be one. -/
def digits (s : List Char) : Except Fault (List Char × List Char) :=
  match s with
  | [] => .error .ended
  | c :: _ =>
    if c.isDigit then .ok (s.takeWhile Char.isDigit, s.dropWhile Char.isDigit)
    else .error .malformed

/-- Exponents that are written larger than this are not looked at any closer. -/
def greatestExponent : Nat := 0x7FFFFFFF

/-- The number of a significand, a decimal exponent and the written exponent that may follow. -/
def withExponent (isNegative : Bool) (significand : Nat) (exponent : Int) (s : List Char) :
    Except Fault (Number × List Char) :=
  match s with
  | 'e' :: s | 'E' :: s => do
    let (isUp, s) := match s with
      | '+' :: s => (true, s)
      | '-' :: s => (false, s)
      | s => (true, s)
    let (written, s) ← digits s
    let written := written.foldl (fun n c => n * 10 + digitValue c) 0
    if greatestExponent < written then
      if isUp && significand != 0 then throw .malformed
      else return (← scaled isNegative 0 0, s)
    else
      let exponent := if isUp then exponent + written else exponent - written
      return (← scaled isNegative significand exponent, s)
  | s => do return (← scaled isNegative significand exponent, s)

/-- The number of an integer that fits its significand. -/
def ofInteger (isNegative : Bool) (n : Nat) : Number :=
  if !isNegative then natural n
  else if n = 0 ∨ 0x8000000000000000 < n then double (Binary64.ofFloat (-(Float.ofNat n)))
  else negative (-(n : Int))

/-- The number at the front of a text that starts with a minus sign or a digit. -/
def read (s : List Char) : Except Fault (Number × List Char) := do
  let (isNegative, s) := match s with
    | '-' :: s => (true, s)
    | s => (false, s)
  let (whole, rest) ← digits s
  if whole.head? = some '0' ∧ 1 < whole.length then throw .malformed
  else
    let (significand, lost) := extend 0 whole
    match rest with
    | '.' :: s =>
      let (fraction, s) ← digits s
      let (significand, lostToo) := extend significand fraction
      let exponent := (lost.length : Int) - (fraction.length - lostToo.length : Nat)
      withExponent isNegative significand exponent s
    | 'e' :: _ | 'E' :: _ => withExponent isNegative significand lost.length rest
    | _ =>
      if lost.isEmpty then return (ofInteger isNegative significand, rest)
      else return (← scaled isNegative significand lost.length, rest)

/-- The number as a double. -/
def toBinary64 : Number → Binary64
  | natural n => Binary64.ofFloat (Float.ofNat n)
  | negative n => Binary64.ofFloat (-(Float.ofNat n.natAbs))
  | double x => x

end Number

end RowFilter.Json
