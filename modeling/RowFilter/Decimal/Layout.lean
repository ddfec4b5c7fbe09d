import RowFilter.Decimal.Shortest

/-!
# How a double is written

A `Layout` holds the decisions a text format makes about doubles: which magnitudes are written
positionally, how an exponent looks, and the names of what is no number. The digits themselves are
those of `Decimal.shortest`, under every layout.
-/

namespace RowFilter

/-- The decisions of a text format about doubles. -/
structure Layout where
  /-- The least exponent of scientific notation that is still written positionally. -/
  leastPlain : Int
  /-- The greatest one. -/
  greatestPlain : Int
  /-- Whether a positive exponent carries its sign. -/
  plusSign : Bool
  tie : Decimal.Tie
  nan : String
  infinity : String
  negativeInfinity : String

namespace Layout

/-- Digits with a point after the first `whole` of them, with zeros for the digits that are
missing, and with at least one digit on each side of the point. -/
def positional (digits : List Char) (whole : Int) : String :=
  let before := digits.take whole.toNat ++ List.replicate (whole.toNat - digits.length) '0'
  let after := List.replicate (-whole).toNat '0' ++ digits.drop whole.toNat
  let orZero (part : List Char) := String.ofList (if part.isEmpty then ['0'] else part)
  orZero before ++ "." ++ orZero after

/-- One digit, the rest behind a point if there are any, and the exponent. -/
def scientific (l : Layout) (digits : List Char) (exponent : Int) : String :=
  let fraction := match digits.drop 1 with
    | [] => ""
    | rest => "." ++ String.ofList rest
  let sign := if l.plusSign && decide (0 < exponent) then "+" else ""
  String.ofList (digits.take 1) ++ fraction ++ "e" ++ sign ++ toString exponent

/-- A positive decimal. -/
def decimal (l : Layout) (d : Decimal) : String :=
  let digits := Nat.toDigits 10 d.coefficient
  let exponent := d.exponent + digits.length - 1
  if l.leastPlain ≤ exponent ∧ exponent ≤ l.greatestPlain then positional digits (exponent + 1)
  else l.scientific digits exponent

/-- The text of a double. -/
def text (l : Layout) (x : Binary64) : String :=
  if x.isNaN then l.nan
  else if x.isInfinite then if x.isNegative then l.negativeInfinity else l.infinity
  else
    let sign := if x.isNegative then "-" else ""
    sign ++ if x.isZero then "0.0" else l.decimal (Decimal.shortest l.tie x)

end Layout

end RowFilter
