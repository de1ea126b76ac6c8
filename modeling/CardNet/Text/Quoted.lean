import CardNet.Text.Printable

/-!
# Quoted text

The form in which messages show a text that may hold anything: in double quotes, with quotes
and backslashes escaped, the usual short escapes for line breaks, tabs and the null character,
and the hexadecimal code point between braces for every other character that has no visible
form of its own.
-/

namespace CardNet.Text

/-- A number in lower-case hexadecimal digits. -/
def hex (n : Nat) : String := String.ofList (Nat.toDigits 16 n)

/-- One character as it stands between the quotes. -/
def quoteChar (c : Char) : String :=
  match c.toNat with
  | 0x22 => "\\\""
  | 0x5c => "\\\\"
  | 0x0a => "\\n"
  | 0x0d => "\\r"
  | 0x09 => "\\t"
  | 0x00 => "\\0"
  | code => if isPrintable c then c.toString else "\\u\x7b" ++ hex code ++ "\x7d"

/-- A text in double quotes, each hidden character escaped. -/
def quote (text : String) : String :=
  "\"" ++ String.join (text.toList.map quoteChar) ++ "\""

end CardNet.Text
