import DataModel.Real64.Shortest

/-!
# The text of a real

A real is written with the fewest digits that read back. Numbers of middling size are written
positionally and always with a point; the others have one digit in front of the point and an
exponent.
-/

namespace DataModel.Real64

/-- How reals are written. -/
structure Style where
  /-- The least exponent of the first digit that is written positionally. -/
  leastPositional : Int
  /-- The least exponent of the first digit that is written with an exponent again. -/
  pastPositional : Int

private def zeros (n : Nat) : String := String.ofList (List.replicate n '0')

/-- A decimal whose first digit has exponent `e`, written positionally. -/
def positional (digits : List Char) (e : Int) : String :=
  if e < 0 then "0." ++ zeros (-e - 1).toNat ++ String.ofList digits
  else
    let whole := e.toNat + 1
    if digits.length ≤ whole then String.ofList digits ++ zeros (whole - digits.length) ++ ".0"
    else String.ofList (digits.take whole) ++ "." ++ String.ofList (digits.drop whole)

/-- A decimal whose first digit has exponent `e`, written with that exponent. -/
def scientific (digits : List Char) (e : Int) : String :=
  String.ofList (digits.take 1) ++
    (if digits.length ≤ 1 then "" else "." ++ String.ofList (digits.drop 1)) ++ "e" ++ toString e

/-- The text of a real in a style. -/
def write (style : Style) (x : Real64) : String :=
  if x.isNaN then "NaN"
  else
    let sign := if x.isNegative then "-" else ""
    if x.isInfinite then sign ++ "inf"
    else if x.isZero then sign ++ "0.0"
    else
      let decimal := Decimal.trim 20 x.magnitude.shortest
      let digits := Nat.toDigits 10 decimal.digits
      let e := decimal.exponent + digits.length - 1
      sign ++
        if style.leastPositional ≤ e && e < style.pastPositional then positional digits e
        else scientific digits e

end DataModel.Real64
