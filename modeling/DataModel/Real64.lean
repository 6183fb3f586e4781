/-!
# Double-precision reals

A real is kept as its 64 bits: one for the sign, eleven for the exponent, fifty-two for the
fraction. Two reals are the same declaration when their bits agree. As numbers the two zeros are
equal too, and a NaN differs from itself; `Real64.unsignedZero` and `Real64.isNaN` serve that
comparison.

A finite real other than zero is `significand · 2 ^ exponent` (`Real64.magnitude`), and a dyadic
number is rounded to a real by `Real64.ofDyadic`.
-/

namespace DataModel

/-- A double-precision real, as its bits. -/
structure Real64 where
  bits : UInt64
  deriving DecidableEq

namespace Real64

/-- The sign bit. -/
def isNegative (x : Real64) : Bool := x.bits.toNat.testBit 63

/-- The eleven bits of the exponent. -/
def exponentField (x : Real64) : Nat := (x.bits.toNat >>> 52) % 0x800

/-- The fifty-two bits of the fraction. -/
def fraction (x : Real64) : Nat := x.bits.toNat % (1 <<< 52)

def isNaN (x : Real64) : Bool := x.exponentField == 2047 && x.fraction != 0

def isInfinite (x : Real64) : Bool := x.exponentField == 2047 && x.fraction == 0

def isZero (x : Real64) : Bool := x.exponentField == 0 && x.fraction == 0

/-- The real with the sign of zero forgotten. -/
def unsignedZero (x : Real64) : Real64 := if x.isZero then ⟨0⟩ else x

/-- The magnitude `significand · 2 ^ exponent` of a finite real. The reals next to a power of two
lie half as far below it as above it, which `narrow` records. -/
structure Magnitude where
  significand : Nat
  exponent : Int
  narrow : Bool

/-- The magnitude of a finite real. -/
def magnitude (x : Real64) : Magnitude :=
  if x.exponentField = 0 then ⟨x.fraction, -1074, false⟩
  else ⟨(1 <<< 52) + x.fraction, x.exponentField - 1075, x.fraction == 0 && x.exponentField != 1⟩

/-- The real nearest to `m · 2 ^ q`, of two nearest the one with even significand, for magnitudes
between the least normal real and the greatest. A carry out of the significand runs on into the
exponent, where it belongs. -/
def ofDyadic (negative : Bool) (m : Nat) (q : Int) : Real64 :=
  let sign : Nat := if negative then 1 <<< 63 else 0
  if m = 0 then ⟨UInt64.ofNat sign⟩
  else
    let e := m.log2
    let significand :=
      if e ≤ 52 then m <<< (52 - e)
      else
        let unit : Nat := 1 <<< (e - 52)
        let low := m / unit
        let rest := 2 * (m % unit)
        if rest < unit || rest == unit && low % 2 == 0 then low else low + 1
    let field := (q + e + 1022).toNat
    ⟨UInt64.ofNat (sign + (field <<< 52) + significand)⟩

/-- The real nearest to an integer. -/
def ofInt (n : Int) : Real64 := ofDyadic (n < 0) n.natAbs 0

/-- The real equal to a single-precision real. A NaN keeps its sign and its payload and is quiet. -/
def ofSingle (bits : UInt32) : Real64 :=
  let negative := bits.toNat.testBit 31
  let sign : Nat := if negative then 1 <<< 63 else 0
  let field : Nat := (bits.toNat >>> 23) % 0x100
  let fraction : Nat := bits.toNat % (1 <<< 23)
  if field = 255 then
    let quiet := if fraction = 0 then 0 else 1 <<< 51
    ⟨UInt64.ofNat (sign + (2047 <<< 52) + (fraction <<< 29 ||| quiet))⟩
  else if field = 0 then ofDyadic negative fraction (-149)
  else ofDyadic negative ((1 <<< 23) + fraction) (field - 150)

end Real64

end DataModel
