/-!
# Doubles

A double is kept as its 64 bits, so that two doubles are the same exactly when their bits are.
Arithmetic goes through the machine's floating point numbers. As numbers, the two zeros agree
although their bits differ (`Double.agrees`).
-/

namespace CardNet

/-- A 64-bit floating point number, given by its bits. -/
structure Double where
  bits : UInt64
deriving DecidableEq, Inhabited

namespace Double

/-- The floating point number with these bits. -/
def toFloat (x : Double) : Float := Float.ofBits x.bits

/-- The bits of a floating point number. -/
def ofFloat (x : Float) : Double := ⟨x.toBits⟩

/-- Whether the sign bit is set. -/
def isNegative (x : Double) : Bool := x.bits >>> 63 == 1

/-- The eleven exponent bits. -/
def exponentBits (x : Double) : Nat := ((x.bits >>> 52) &&& 0x7ff).toNat

/-- The 52 fraction bits. -/
def fractionBits (x : Double) : Nat := (x.bits &&& 0xfffffffffffff).toNat

/-- Whether the bits stand for a number, neither infinite nor undefined. -/
def isFinite (x : Double) : Bool := x.exponentBits != 0x7ff

/-- Whether the bits stand for one of the two zeros. -/
def isZero (x : Double) : Bool := x.bits <<< 1 == 0

/-- Equality as numbers: the same bits, or zero on both sides. -/
def agrees (x y : Double) : Bool := x == y || (x.isZero && y.isZero)

/-- The significand `m` and the binary exponent `q` of the magnitude `m * 2 ^ q`. -/
def magnitude (x : Double) : Nat × Int :=
  if x.exponentBits = 0 then (x.fractionBits, -1074)
  else (x.fractionBits + 0x10000000000000, (x.exponentBits : Int) - 1075)

end Double

end CardNet
