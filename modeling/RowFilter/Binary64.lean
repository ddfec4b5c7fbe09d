/-!
# Doubles held by their bits

A `Binary64` is the 64 bits of an IEEE 754 double, so two of them are equal as Lean values exactly
when they are the same datum: a NaN equals itself and `0.0` differs from `-0.0`. The relations of
the standard, for which it is the other way round, are `equals` and `compare?`, defined on the bits
through an integer order key. Rounded arithmetic is the machine's; the remainder is exact and is
computed in multiples of the smallest positive double.
-/

namespace RowFilter

/-- An IEEE 754 double, given by its bits. -/
structure Binary64 where
  bits : UInt64
  deriving DecidableEq, Inhabited

namespace Binary64

/-! ## The parts of a double -/

/-- The place value of the sign, `2 ^ 63`. -/
def signBit : Nat := 0x8000000000000000

/-- The place value of the leading bit of a significand, `2 ^ 52`. A normal double has this bit, but
not among those that are stored; the stored exponent begins in its place. -/
def leadingBit : Nat := 0x10000000000000

/-- Whether the sign is set. -/
def isNegative (x : Binary64) : Bool := decide (signBit ≤ x.bits.toNat)

/-- The bits without the sign: on one side of zero, they grow with the magnitude. -/
def magnitude (x : Binary64) : Nat := x.bits.toNat % signBit

/-- The magnitude of an infinity; a larger one belongs to a NaN. -/
def infiniteMagnitude : Nat := 2047 * leadingBit

def isNaN (x : Binary64) : Bool := decide (infiniteMagnitude < x.magnitude)

def isInfinite (x : Binary64) : Bool := x.magnitude == infiniteMagnitude

def isZero (x : Binary64) : Bool := x.magnitude == 0

/-- The exponent `k` of the last place of a finite double: its value is
`± significand * 2 ^ (k - 1074)`. -/
def lastPlace (x : Binary64) : Nat := x.magnitude / leadingBit - 1

/-- The integer significand of a finite double; a normal one has its leading bit restored. -/
def significand (x : Binary64) : Nat :=
  if x.magnitude < leadingBit then x.magnitude else x.magnitude % leadingBit + leadingBit

/-- The absolute value of a finite double, counted in the smallest positive double. -/
def units (x : Binary64) : Nat := x.significand <<< x.lastPlace

/-- The double `± n` smallest positive doubles, for an `n` that has at most 53 significant bits. -/
def ofUnits (isNegative : Bool) (n : Nat) : Binary64 :=
  let place := n.log2 - 52
  let significand := n >>> place
  let magnitude :=
    if significand < leadingBit then significand else place * leadingBit + significand
  ⟨UInt64.ofNat ((if isNegative then signBit else 0) + magnitude)⟩

/-! ## Order -/

/-- Places a double that is no NaN on a line; both zeros are at `0`. -/
def orderKey (x : Binary64) : Int :=
  if x.isNegative then -(x.magnitude : Int) else x.magnitude

/-- Equality of the standard: a NaN equals nothing, and the two zeros are equal. -/
def equals (x y : Binary64) : Bool :=
  !x.isNaN && !y.isNaN && x.orderKey == y.orderKey

/-- Order of the standard; there is none with a NaN. -/
def compare? (x y : Binary64) : Option Ordering :=
  if x.isNaN || y.isNaN then none else some (compare x.orderKey y.orderKey)

/-! ## Arithmetic -/

def toFloat (x : Binary64) : Float := Float.ofBits x.bits

def ofFloat (x : Float) : Binary64 := ⟨x.toBits⟩

def nan : Binary64 := ⟨0x7ff8000000000000⟩

def add (x y : Binary64) : Binary64 := ofFloat (x.toFloat + y.toFloat)

def sub (x y : Binary64) : Binary64 := ofFloat (x.toFloat - y.toFloat)

def mul (x y : Binary64) : Binary64 := ofFloat (x.toFloat * y.toFloat)

def div (x y : Binary64) : Binary64 := ofFloat (x.toFloat / y.toFloat)

/-- Turns the sign bit, of a zero or a NaN too. -/
def neg (x : Binary64) : Binary64 := ⟨x.bits ^^^ 0x8000000000000000⟩

/-- The remainder of truncated division, which is exact and has the sign of the dividend. There is
none of an infinity or by a zero, and an infinite divisor leaves the dividend as it is. -/
def rem (x y : Binary64) : Binary64 :=
  if x.isNaN || y.isNaN || x.isInfinite || y.isZero then nan
  else if y.isInfinite then x
  else ofUnits x.isNegative (x.units % y.units)

end Binary64

end RowFilter
