/-!
# Durations

The text of a time span given in whole milliseconds: milliseconds below one second, otherwise
seconds with as many decimals as are needed.
-/

namespace CardNet.Text

/-- The decimals of a fraction given in thousandths, without zeros at the end. -/
def thousandths (n : Nat) : String :=
  let digits := [n / 100 % 10, n / 10 % 10, n % 10]
  String.ofList (((digits.reverse.dropWhile (· == 0)).reverse).map Nat.digitChar)

/-- A time span in milliseconds as messages show it. -/
def duration (milliseconds : Nat) : String :=
  if milliseconds = 0 then "0ns"
  else if milliseconds < 1000 then toString milliseconds ++ "ms"
  else
    let seconds := toString (milliseconds / 1000)
    if milliseconds % 1000 = 0 then seconds ++ "s"
    else seconds ++ "." ++ thousandths (milliseconds % 1000) ++ "s"

end CardNet.Text
