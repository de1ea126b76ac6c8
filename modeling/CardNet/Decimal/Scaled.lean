import CardNet.Decimal.Double

/-!
# Reading decimals

How the digits of a number become a double. The digits are gathered into a significand of 64
bits; the first digit that no longer fits and the integer digits after it only raise the
exponent, decimals that no longer fit are dropped. The significand is then scaled by one power
of ten, in steps of `10 ^ 308` where the exponent is lower than that.
-/

namespace CardNet

/-- The parts of a number as written. -/
structure Numeral where
  negative : Bool
  whole : List Nat
  decimals : List Nat
  exponent : Option Int
deriving DecidableEq, Inhabited

namespace Numeral

/-- The largest significand. -/
def limit : Nat := UInt64.size - 1

/-- Gather digits as long as they fit; the digits from the first that does not are returned. -/
def gather (significand : Nat) : List Nat → Nat × List Nat
  | [] => (significand, [])
  | digit :: rest =>
      if significand * 10 + digit ≤ limit then gather (significand * 10 + digit) rest
      else (significand, digit :: rest)

/-- The significand and the decimal exponent of a numeral. -/
def parts (numeral : Numeral) : Nat × Int :=
  let (whole, skipped) := gather 0 numeral.whole
  let (significand, dropped) := gather whole numeral.decimals
  (significand,
    (skipped.length : Int) - (numeral.decimals.length - dropped.length : Nat)
      + numeral.exponent.getD 0)

/-- The power of ten as a floating point number. -/
def power (n : Nat) : Float := Float.ofScientific 1 false n

/-- Divide by powers of ten with a bounded number of steps: once the value is zero it stays so,
and four steps bring every significand there. -/
def scaleDown : Nat → Float → Nat → Float
  | 0, x, _ => x
  | fuel + 1, x, n =>
      if n ≤ 308 then x / power n
      else if x == 0 then x
      else scaleDown fuel (x / power 308) (n - 308)

/-- The magnitude of a numeral, or nothing when it is too large for a double. -/
def scaled (significand : Nat) (exponent : Int) : Option Float :=
  let x := significand.toUInt64.toFloat
  if exponent < 0 then some (scaleDown 8 x (-exponent).toNat)
  else if exponent ≤ 308 then
    let y := x * power exponent.toNat
    if y.isInf then none else some y
  else if x == 0 then some x else none

/-- The double that a numeral stands for, or nothing when it is out of range. -/
def toDouble? (numeral : Numeral) : Option Double :=
  let (significand, exponent) := numeral.parts
  (scaled significand exponent).map fun x =>
    Double.ofFloat (if numeral.negative then -x else x)

/-- The integer that a numeral stands for when it has neither decimals nor an exponent. -/
def toInt? (numeral : Numeral) : Option Int :=
  if numeral.decimals.isEmpty && numeral.exponent.isNone then
    let n : Nat := numeral.whole.foldl (fun n digit => n * 10 + digit) 0
    some (if numeral.negative then -(n : Int) else n)
  else none

end Numeral

end CardNet
