import RowFilter.Binary64

/-!
# The fewest digits that read back

A finite double stands for every real that rounds to it: an interval around its value, with its
ends exactly when the significand is even. Among the decimals in that interval `Decimal.shortest`
takes one with the fewest digits, and of those the one nearest the value; the caller says which of
two equally near ones to take.

For a given number of digits the decimals form a grid, and if any point of the grid is in the
interval then so is one of the two around the value. So it is enough to test these two for one
digit, then for two, and so on; seventeen digits always suffice. All of it is exact arithmetic on
natural numbers.
-/

namespace RowFilter

/-- The number `coefficient * 10 ^ exponent`. -/
structure Decimal where
  coefficient : Nat
  exponent : Int
  deriving DecidableEq, Inhabited

namespace Decimal

/-- Which of two equally near decimals to take. -/
inductive Tie
  | even
  | up
  deriving DecidableEq

/-- A power of ten. -/
def tenTo (n : Nat) : Nat := Nat.pow 10 n

/-- The reals that round to one double, as numerators over one denominator. -/
structure Rounding where
  low : Nat
  value : Nat
  high : Nat
  denominator : Nat
  /-- Whether the two ends belong to the interval. -/
  closed : Bool

/-- The interval of a finite double, in quarters of its last place. Below a power of two the
doubles lie twice as close, so there the lower half of the interval is half as long. -/
def Rounding.of (x : Binary64) : Rounding :=
  let m := x.significand
  let below := if m = Binary64.leadingBit ∧ 0 < x.lastPlace then 1 else 2
  let places := x.lastPlace - 1076
  { low := (4 * m - below) <<< places
    value := (4 * m) <<< places
    high := (4 * m + 2) <<< places
    denominator := 1 <<< (1076 - x.lastPlace)
    closed := m % 2 == 0 }

/-- Whether the interval holds `n / denominator`. -/
def Rounding.contains (r : Rounding) (n : Nat) : Bool :=
  if r.closed then decide (r.low ≤ n) && decide (n ≤ r.high)
  else decide (r.low < n) && decide (n < r.high)

/-- The count of decimal digits of a number; zero has none. -/
def digitCount (n : Nat) : Nat := if n = 0 then 0 else (Nat.toDigits 10 n).length

/-- The `k` with `10 ^ (k - 1) ≤ value < 10 ^ k`, for a positive value. -/
def Rounding.magnitude (r : Rounding) : Int :=
  if r.denominator ≤ r.value then digitCount (r.value / r.denominator)
  else 1 - digitCount ((r.denominator - 1) / r.value)

/-- The interval with value and ends multiplied by `10 ^ k`. -/
def Rounding.shift (r : Rounding) (k : Int) : Rounding :=
  let up := tenTo k.toNat
  { r with
    low := r.low * up
    value := r.value * up
    high := r.high * up
    denominator := r.denominator * tenTo (-k).toNat }

/-- The integer that the interval holds and that is nearest the value, if it holds one. -/
def Rounding.nearest? (r : Rounding) (tie : Tie) : Option Nat :=
  let floor := r.value / r.denominator
  let below := r.value % r.denominator
  let above := r.denominator - below
  match r.contains (floor * r.denominator), r.contains ((floor + 1) * r.denominator) with
  | false, false => none
  | true, false => some floor
  | false, true => some (floor + 1)
  | true, true =>
    if below < above then some floor
    else if above < below then some (floor + 1)
    else match tie with
      | .up => some (floor + 1)
      | .even => some (if floor % 2 = 0 then floor else floor + 1)

/-- The decimal of `n` digits in the interval that is nearest the value. Rounding up to the next
power of ten leaves a single digit. -/
def Rounding.withDigits? (r : Rounding) (tie : Tie) (n : Nat) : Option Decimal :=
  let exponent := r.magnitude - n
  ((r.shift (-exponent)).nearest? tie).map fun c =>
    if c = tenTo n then ⟨1, exponent + n⟩ else ⟨c, exponent⟩

/-- The decimal with the fewest digits that reads back as the finite, nonzero double `x`, up to
its sign. -/
def shortest (tie : Tie) (x : Binary64) : Decimal :=
  ((List.range' 1 17).findSome? ((Rounding.of x).withDigits? tie)).getD default

end Decimal

end RowFilter
