import CardNet.Decimal.Layout
import CardNet.Text.Quoted
import CardNet.Value.Basic

/-!
# Written values

The two text forms of a value: compact, without any blank, and spread over lines with two
blanks per level. Fields are written in the order in which the object lists them.
-/

namespace CardNet

namespace Text

/-- Two lower-case hexadecimal digits. -/
def hexPair (n : Nat) : String :=
  String.ofList [Nat.digitChar (n / 16 % 16), Nat.digitChar (n % 16)]

/-- One character of a text within a written value. -/
def escapeChar (c : Char) : String :=
  match c.toNat with
  | 0x22 => "\\\""
  | 0x5c => "\\\\"
  | 0x08 => "\\b"
  | 0x0c => "\\f"
  | 0x0a => "\\n"
  | 0x0d => "\\r"
  | 0x09 => "\\t"
  | code => if code < 0x20 then "\\u00" ++ hexPair code else c.toString

/-- A text within a written value. -/
def literal (text : String) : String :=
  "\"" ++ String.join (text.toList.map escapeChar) ++ "\""

end Text

/-- A number as text. -/
def Number.write : Number → String
  | .whole n => toString n
  | .double x => Layout.value.write x

namespace Value

mutual

/-- A value on one line, without blanks. -/
def compact : Value → String
  | .null => "null"
  | .bool b => if b then "true" else "false"
  | .number n => n.write
  | .text s => Text.literal s
  | .list items => "[" ++ String.intercalate "," (compactItems items) ++ "]"
  | .object fields => "\x7b" ++ String.intercalate "," (compactFields fields) ++ "\x7d"

/-- The items of a list, each on one line. -/
def compactItems : List Value → List String
  | [] => []
  | item :: rest => compact item :: compactItems rest

/-- The fields of an object, each on one line. -/
def compactFields : List (String × Value) → List String
  | [] => []
  | (name, value) :: rest =>
      (Text.literal name ++ ":" ++ compact value) :: compactFields rest

end

/-- Items between brackets, one per line; nothing between the brackets when there are none. -/
def spread (opening closing : String) (indent : String) (items : List String) : String :=
  if items.isEmpty then opening ++ closing
  else
    opening ++ "\n" ++ String.intercalate ",\n" (items.map fun item => indent ++ "  " ++ item) ++
      "\n" ++ indent ++ closing

mutual

/-- A value over several lines, the first of which continues a line. -/
def pretty (indent : String) : Value → String
  | .list items => spread "[" "]" indent (prettyItems (indent ++ "  ") items)
  | .object fields => spread "\x7b" "\x7d" indent (prettyFields (indent ++ "  ") fields)
  | value => compact value

/-- The items of a list at their own indentation. -/
def prettyItems (indent : String) : List Value → List String
  | [] => []
  | item :: rest => pretty indent item :: prettyItems indent rest

/-- The fields of an object at their own indentation. -/
def prettyFields (indent : String) : List (String × Value) → List String
  | [] => []
  | (name, value) :: rest =>
      (Text.literal name ++ ": " ++ pretty indent value) :: prettyFields indent rest

end

end Value

end CardNet
