import CardNet.Decimal.Shortest

/-!
# Written doubles

How a shortest decimal is laid out as text. The choices are one record (`Layout`): the range of
exponents that is written without exponent, and the mark and signs of the exponent.
-/

namespace CardNet

/-- The choices made when a decimal is written. -/
structure Layout where
  /-- The least exponent of the first digit that is written without exponent. -/
  lowest : Int
  /-- The least exponent of the first digit that is too large for that. -/
  highest : Int
  /-- What stands between the digits and a positive exponent. -/
  positiveMark : String
  /-- What stands between the digits and the magnitude of a negative exponent. -/
  negativeMark : String

namespace Layout

/-- Values are written without exponent from `0.00001` up to sixteen integer digits, and always
with a decimal; an exponent carries its sign. -/
def value : Layout := ⟨-5, 16, "e+", "e-"⟩

/-- Digits without exponent; `point` is the number of digits before the decimal point. -/
def plain (digits : List Char) (point : Int) : String :=
  if point ≤ 0 then
    "0." ++ String.ofList (List.replicate (-point).toNat '0' ++ digits)
  else
    let padded := digits ++ List.replicate (point.toNat - digits.length) '0'
    let decimals := padded.drop point.toNat
    String.ofList (padded.take point.toNat) ++ "." ++
      (if decimals.isEmpty then "0" else String.ofList decimals)

/-- Digits with an exponent. -/
def scientific (layout : Layout) (digits : List Char) (lead : Int) : String :=
  let mark := if lead < 0 then layout.negativeMark else layout.positiveMark
  let mantissa :=
    match digits with
    | [] => ""
    | [first] => first.toString
    | first :: rest => first.toString ++ "." ++ String.ofList rest
  mantissa ++ mark ++ toString lead.natAbs

/-- A finite double as text. -/
def write (layout : Layout) (x : Double) : String :=
  let decimal := Decimal.ofDouble x
  let digits := (toString decimal.significand).toList
  let lead := decimal.exponent + digits.length - 1
  let body :=
    if layout.lowest ≤ lead ∧ lead < layout.highest then plain digits (lead + 1)
    else layout.scientific digits lead
  if x.isNegative then "-" ++ body else body

end Layout

end CardNet
