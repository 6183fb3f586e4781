import DataModel.Real64

/-!
# Shortest digits

The shortest decimal that reads back as a given real. The numbers that round to `significand · 2 ^
exponent` form an interval, closed exactly when the significand is even. On the grid of the
multiples of `10 ^ k` only the two neighbours of the value have to be tried, and the first grid,
from the coarsest on, with a neighbour inside the interval has the fewest digits. Of two neighbours
inside, the nearer is taken, and of two equally near ones the upper.

All of it is done in exact natural numbers.
-/

namespace DataModel.Real64

/-- A decimal `digits · 10 ^ exponent`. -/
structure Decimal where
  digits : Nat
  exponent : Int

namespace Magnitude

variable (v : Magnitude)

/-- The value in quarters of a unit in the last place. -/
def quarters : Nat := 4 * v.significand

/-- The lower end of the numbers that round to the value, in quarters. -/
def lowerEnd : Nat := v.quarters - if v.narrow then 1 else 2

/-- The upper end of the numbers that round to the value, in quarters. -/
def upperEnd : Nat := v.quarters + 2

/-- What a quarter weighs when numbers are compared with multiples of `10 ^ k`. -/
def quarterWeight (k : Int) : Nat := (Nat.pow 10 (-k).toNat) <<< (v.exponent - 2).toNat

/-- What a multiple of `10 ^ k` weighs when it is compared with quarters. -/
def gridWeight (k : Int) : Nat := (Nat.pow 10 k.toNat) <<< (2 - v.exponent).toNat

/-- The decimal `d · 10 ^ k` rounds to the value. -/
def admits (k : Int) (d : Nat) : Bool :=
  let low := v.lowerEnd * v.quarterWeight k
  let high := v.upperEnd * v.quarterWeight k
  let point := d * v.gridWeight k
  if v.significand % 2 = 0 then low ≤ point && point ≤ high else low < point && point < high

/-- The multiple of `10 ^ k` at or below the value. -/
def below (k : Int) : Nat := v.quarters * v.quarterWeight k / v.gridWeight k

/-- The nearest multiple of `10 ^ k` that rounds to the value, if one does. -/
def onGrid? (k : Int) : Option Nat :=
  let d := v.below k
  let rest := v.quarters * v.quarterWeight k % v.gridWeight k
  match v.admits k d, v.admits k (d + 1) with
  | true, true => some (if 2 * rest < v.gridWeight k then d else d + 1)
  | true, false => some d
  | false, true => some (d + 1)
  | false, false => none

/-- Tries the grids from `10 ^ k` on down, at most `grids` of them. -/
def tryGrids : (grids : Nat) → (k : Int) → Decimal
  | 0, k => ⟨v.below k, k⟩
  | grids + 1, k =>
    match v.onGrid? k with
    | some d => ⟨d, k⟩
    | none => tryGrids grids (k - 1)

/-- A grid at least as coarse as the value: `2 < 10 ^ 0.30103`. -/
def coarsest : Int :=
  (v.exponent + v.significand.log2 + 1) * 30103 / 100000 + 2

/-- **The shortest decimal of the value.** Seventeen digits always suffice, and the coarsest grid
lies at most four places above the first digit. -/
def shortest : Decimal := v.tryGrids 21 v.coarsest

end Magnitude

/-- Splits off the zeros at the end of a number. -/
def Decimal.trim : (zeros : Nat) → Decimal → Decimal
  | 0, d => d
  | zeros + 1, d =>
    if d.digits % 10 = 0 && d.digits ≠ 0 then trim zeros ⟨d.digits / 10, d.exponent + 1⟩ else d

end DataModel.Real64
