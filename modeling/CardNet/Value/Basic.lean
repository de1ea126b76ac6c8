import CardNet.Decimal.Double
import Std.Data.ExtTreeMap

/-!
# Values

The values that anchors hold and cards exchange, and maps of named values. A number is a whole
number or a double, and the two are never the same value. The fields of an object are listed by
ascending name. `Value.agrees` is equality up to the sign of zero doubles: it is what decides
whether a run may be answered from the memo.
-/

namespace CardNet

/-- A number: whole, from `-2 ^ 63` up to `2 ^ 64 - 1`, or a finite double. -/
inductive Number where
  | whole (n : Int)
  | double (x : Double)
deriving DecidableEq, Inhabited

namespace Number

/-- Equality as numbers of the same form. -/
def agrees : Number → Number → Bool
  | whole m, whole n => m == n
  | double x, double y => x.agrees y
  | _, _ => false

/-- The floating point number nearest to a number. -/
def toFloat : Number → Float
  | whole n => if n < 0 then -(n.natAbs.toUInt64.toFloat) else n.toNat.toUInt64.toFloat
  | double x => x.toFloat

/-- Whether a whole number fits into 64 bits with a sign. -/
def fitsSigned (n : Int) : Bool := Int64.minValue.toInt ≤ n && n ≤ Int64.maxValue.toInt

end Number

/-- A value: a number, a text, or a collection of values. -/
inductive Value where
  | null
  | bool (b : Bool)
  | number (n : Number)
  | text (s : String)
  | list (items : List Value)
  | object (fields : List (String × Value))
deriving Inhabited

/-- Named values, by ascending name. -/
abbrev Values := Std.ExtTreeMap String Value

namespace Value

/-- A whole number as a value. -/
def ofInt (n : Int) : Value := .number (.whole n)

/-- A natural number as a value. -/
def ofNat (n : Nat) : Value := .ofInt n

/-- A list of texts as a value. -/
def texts (items : List String) : Value := .list (items.map .text)

/-- Named values as an object. -/
def ofValues (values : Values) : Value := .object values.toList

mutual

/-- Equality up to the sign of zero doubles. -/
def agrees : Value → Value → Bool
  | .null, .null => true
  | .bool a, .bool b => a == b
  | .number m, .number n => m.agrees n
  | .text s, .text t => s == t
  | .list xs, .list ys => agreesList xs ys
  | .object fs, .object gs => agreesFields fs gs
  | _, _ => false

/-- Equality of lists up to the sign of zero doubles. -/
def agreesList : List Value → List Value → Bool
  | [], [] => true
  | x :: xs, y :: ys => agrees x y && agreesList xs ys
  | _, _ => false

/-- Equality of fields up to the sign of zero doubles. -/
def agreesFields : List (String × Value) → List (String × Value) → Bool
  | [], [] => true
  | (k, x) :: fs, (l, y) :: gs => k == l && agrees x y && agreesFields fs gs
  | _, _ => false

end

/-- The integer that a value is, when it is a whole number of 64 bits with a sign. -/
def toInt? : Value → Option Int
  | .number (.whole n) => if Number.fitsSigned n then some n else none
  | _ => none

/-- The floating point number that a value is. -/
def toFloat? : Value → Option Float
  | .number n => some n.toFloat
  | _ => none

/-- A computed double as a value; what is not a number becomes null. -/
def ofFloat (x : Float) : Value :=
  if x.isFinite then .number (.double (Double.ofFloat x)) else .null

/-- The result of arithmetic as a value: a whole number where the double is one and is exact,
else a double. -/
def ofResult (x : Float) : Value :=
  if x.isFinite && x.floor == x && x.abs < 9007199254740992.0 then .ofInt x.toInt64.toInt
  else ofFloat x

end Value

namespace Values

/-- The named values with those of `overriding` put on top. -/
def merge (values overriding : Values) : Values :=
  overriding.foldl (fun merged name value => merged.insert name value) values

/-- The named values with those of `filling` under names that are still free. -/
def fill (values filling : Values) : Values :=
  filling.foldl (fun filled name value => filled.insertIfNew name value) values

/-- Equality up to the sign of zero doubles. -/
def agrees (first second : Values) : Bool :=
  Value.agreesFields first.toList second.toList

/-- Named values from a list; of two values under one name the later counts. -/
def ofPairs (pairs : List (String × Value)) : Values :=
  pairs.foldl (fun values pair => values.insert pair.1 pair.2) ∅

end Values

end CardNet
