import CardNet.Decimal.Double

/-!
# Shortest decimals

The decimal that stands for a double: of all decimals that read back as the double, those with
the fewest digits, and of these the nearest to it. The search goes through the grids of one,
two, … seventeen digits; on each grid only the two neighbours of the double can be the nearest
hit. All arithmetic is exact, on fractions of natural numbers.
-/

namespace CardNet

/-- The decimal `significand * 10 ^ exponent`. -/
structure Decimal where
  significand : Nat
  exponent : Int
deriving DecidableEq, Inhabited

namespace Decimal

/-- The number of decimal digits. -/
def digitCount (n : Nat) : Nat := (toString n).length

/-- Move the zeros at the end of the significand into the exponent. -/
def stripZeros : Nat → Decimal → Decimal
  | 0, d => d
  | fuel + 1, d =>
      if d.significand ≠ 0 ∧ d.significand % 10 = 0 then
        stripZeros fuel ⟨d.significand / 10, d.exponent + 1⟩
      else d

/-- The reals that round to a double, in units of `1 / scale`: from `low` to `high` around
`value`, ends included when `closed`. -/
structure Cell where
  scale : Nat
  low : Nat
  value : Nat
  high : Nat
  closed : Bool

/-- The cell of a finite double other than zero. The gap below a power of two is half as wide,
except at the bottom of the range. -/
def cellOf (x : Double) : Cell :=
  let (m, q) := x.magnitude
  let below := if x.fractionBits = 0 ∧ 1 < x.exponentBits then 1 else 2
  let factor := Nat.pow 2 (q - 2).toNat
  { scale := Nat.pow 2 (2 - q).toNat
    low := (4 * m - below) * factor
    value := 4 * m * factor
    high := (4 * m + 2) * factor
    closed := m % 2 = 0 }

/-- Whether `count * unit` lies in a cell, where `unit` is given in units of the cell's scale
and all sides are multiplied by `lift`. -/
def Cell.holds (cell : Cell) (lift point : Nat) : Bool :=
  if cell.closed then cell.low * lift ≤ point && point ≤ cell.high * lift
  else cell.low * lift < point && point < cell.high * lift

/-- The exponent of the first decimal digit of a positive fraction. -/
def leadingExponent (value scale : Nat) : Int :=
  let guess : Int := (digitCount value : Int) - digitCount scale
  let reached :=
    if 0 ≤ guess then Nat.pow 10 guess.toNat * scale ≤ value
    else scale ≤ value * Nat.pow 10 (-guess).toNat
  if reached then guess else guess - 1

/-- The nearest point of a cell on the grid of multiples of `10 ^ exponent`, if the cell holds
one; an exact tie goes to the even multiple. -/
def nearestOnGrid (cell : Cell) (exponent : Int) : Option Decimal :=
  let unit := cell.scale * Nat.pow 10 exponent.toNat
  let lift := Nat.pow 10 (-exponent).toNat
  let value := cell.value * lift
  let below := value / unit
  let above := below + 1
  let hitBelow := cell.holds lift (below * unit)
  let hitAbove := cell.holds lift (above * unit)
  let gapBelow := value - below * unit
  let gapAbove := above * unit - value
  if hitBelow && hitAbove then
    if gapBelow < gapAbove || (gapBelow == gapAbove && below % 2 == 0) then some ⟨below, exponent⟩
    else some ⟨above, exponent⟩
  else if hitBelow then some ⟨below, exponent⟩
  else if hitAbove then some ⟨above, exponent⟩
  else none

/-- The shortest decimal for the magnitude of a finite double. -/
def ofDouble (x : Double) : Decimal :=
  if x.isZero then ⟨0, 0⟩
  else
    let cell := cellOf x
    let lead := leadingExponent cell.value cell.scale
    let found := (List.range 17).findSome? fun (n : Nat) => nearestOnGrid cell (lead - n)
    stripZeros 20 (found.getD ⟨0, 0⟩)

end Decimal

end CardNet
