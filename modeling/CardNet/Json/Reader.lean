import CardNet.Json.Tree

/-!
# Reading document trees

A strict reader: one value, blanks around it, no trailing comma, no comment, no leading zero.
`parse?` answers with the tree or with nothing. Containers are followed with a fuel of the
length of the text, which every step uses up at most once per character.
-/

namespace CardNet.Json

/-- Skip blanks, tabs and line breaks. -/
def skipBlank : List Char → List Char
  | c :: rest =>
      if c = ' ' ∨ c = '\n' ∨ c = '\t' ∨ c = '\r' then skipBlank rest else c :: rest
  | [] => []

/-- The value of a hexadecimal digit. -/
def hexDigit? (c : Char) : Option Nat :=
  if '0' ≤ c ∧ c ≤ '9' then some (c.toNat - 48)
  else if 'a' ≤ c ∧ c ≤ 'f' then some (c.toNat - 87)
  else if 'A' ≤ c ∧ c ≤ 'F' then some (c.toNat - 55)
  else none

/-- The value of four hexadecimal digits. -/
def hexQuad? (a b c d : Char) : Option Nat := do
  let w ← hexDigit? a
  let x ← hexDigit? b
  let y ← hexDigit? c
  let z ← hexDigit? d
  return ((w * 16 + x) * 16 + y) * 16 + z

/-- The character behind a one-letter escape. -/
def shortEscape? (c : Char) : Option Nat :=
  match c.toNat with
  | 0x22 => some 0x22
  | 0x5c => some 0x5c
  | 0x2f => some 0x2f
  | 0x62 => some 0x08
  | 0x66 => some 0x0c
  | 0x6e => some 0x0a
  | 0x72 => some 0x0d
  | 0x74 => some 0x09
  | _ => none

/-- The code units of a text up to its closing quote, latest first, and what follows the quote.
An escaped unit stands for itself, so a surrogate pair gives two units. -/
def scanText (units : List Nat) : List Char → Option (List Nat × List Char)
  | [] => none
  | '"' :: rest => some (units, rest)
  | '\\' :: 'u' :: a :: b :: c :: d :: rest =>
      match hexQuad? a b c d with
      | some unit => scanText (unit :: units) rest
      | none => none
  | '\\' :: c :: rest =>
      match shortEscape? c with
      | some unit => scanText (unit :: units) rest
      | none => none
  | c :: rest => if c.toNat < 0x20 then none else scanText (c.toNat :: units) rest

/-- The characters of a list of code units, unless one of them is half of a pair. -/
def joinUnits : List Nat → Option (List Char)
  | [] => some []
  | [unit] =>
      if 0xd800 ≤ unit ∧ unit ≤ 0xdfff then none else some [Char.ofNat unit]
  | unit :: next :: rest =>
      if 0xdc00 ≤ unit ∧ unit ≤ 0xdfff then none
      else if 0xd800 ≤ unit ∧ unit < 0xdc00 then
        if 0xdc00 ≤ next ∧ next ≤ 0xdfff then
          (joinUnits rest).map
            (Char.ofNat (0x10000 + (unit - 0xd800) * 0x400 + (next - 0xdc00)) :: ·)
        else none
      else (joinUnits (next :: rest)).map (Char.ofNat unit :: ·)

/-- A text behind its opening quote, and what follows it. -/
def readText (chars : List Char) : Option (Option String × List Char) :=
  (scanText [] chars).map fun (units, rest) =>
    ((joinUnits units.reverse).map String.ofList, rest)

/-- The digits at the start of the characters. -/
def digitsOf (chars : List Char) : List Nat × List Char :=
  ((chars.takeWhile Char.isDigit).map fun c => c.toNat - 48, chars.dropWhile Char.isDigit)

/-- The exponent at the start of the characters, if there is one; a mark without digits is
refused. -/
def readExponent (chars : List Char) : Option (Option Int × List Char) :=
  match chars with
  | c :: rest =>
      if c = 'e' ∨ c = 'E' then
        let (negative, rest) :=
          match rest with
          | '-' :: rest => (true, rest)
          | '+' :: rest => (false, rest)
          | _ => (false, rest)
        let (digits, rest) := digitsOf rest
        if digits.isEmpty then none
        else
          let size : Nat := digits.foldl (fun n digit => n * 10 + digit) 0
          some (some (if negative then -(size : Int) else size), rest)
      else some (none, chars)
  | [] => some (none, [])

/-- The decimals at the start of the characters; a point without digits is refused. -/
def readDecimals (chars : List Char) : Option (List Nat × List Char) :=
  match chars with
  | '.' :: rest =>
      let (digits, rest) := digitsOf rest
      if digits.isEmpty then none else some (digits, rest)
  | _ => some ([], chars)

/-- A number behind its sign; a leading zero stands alone before the point. -/
def readNumeral (negative : Bool) (chars : List Char) : Option (Numeral × List Char) := do
  let (whole, rest) := digitsOf chars
  if whole.isEmpty || (whole.head? == some 0 && whole.length != 1) then none
  else
    let (decimals, rest) ← readDecimals rest
    let (exponent, rest) ← readExponent rest
    return (⟨negative, whole, decimals, exponent⟩, rest)

mutual

/-- A value at the start of the characters, blanks before it allowed. -/
def readTree : Nat → List Char → Option (Tree × List Char)
  | 0, _ => none
  | fuel + 1, chars =>
      match skipBlank chars with
      | '"' :: rest => (readText rest).map fun (content, rest) => (.text content, rest)
      | '[' :: rest =>
          match skipBlank rest with
          | ']' :: rest => some (.list [], rest)
          | rest => (readItems fuel rest).map fun (items, rest) => (.list items, rest)
      | '\x7b' :: rest =>
          match skipBlank rest with
          | '\x7d' :: rest => some (.object [], rest)
          | rest => (readMembers fuel rest).map fun (members, rest) => (.object members, rest)
      | 'n' :: 'u' :: 'l' :: 'l' :: rest => some (.null, rest)
      | 't' :: 'r' :: 'u' :: 'e' :: rest => some (.bool true, rest)
      | 'f' :: 'a' :: 'l' :: 's' :: 'e' :: rest => some (.bool false, rest)
      | '-' :: rest =>
          (readNumeral true rest).map fun (numeral, rest) => (.number (number? numeral), rest)
      | rest =>
          (readNumeral false rest).map fun (numeral, rest) => (.number (number? numeral), rest)

/-- The items of a list that has at least one, and its closing bracket. -/
def readItems : Nat → List Char → Option (List Tree × List Char)
  | 0, _ => none
  | fuel + 1, chars => do
      let (item, rest) ← readTree fuel chars
      match skipBlank rest with
      | ',' :: rest =>
          let (items, rest) ← readItems fuel rest
          return (item :: items, rest)
      | ']' :: rest => return ([item], rest)
      | _ => none

/-- The members of an object that has at least one, and its closing bracket. -/
def readMembers : Nat → List Char → Option (List (Option String × Tree) × List Char)
  | 0, _ => none
  | fuel + 1, chars =>
      match skipBlank chars with
      | '"' :: rest => do
          let (name, rest) ← readText rest
          match skipBlank rest with
          | ':' :: rest =>
              let (member, rest) ← readTree fuel rest
              match skipBlank rest with
              | ',' :: rest =>
                  let (members, rest) ← readMembers fuel rest
                  return ((name, member) :: members, rest)
              | '\x7d' :: rest => return ([(name, member)], rest)
              | _ => none
          | _ => none
      | _ => none

end

/-- The tree of a text, or nothing when the text is not one value. -/
def parse? (text : String) : Option Tree := do
  let chars := text.toList
  let (tree, rest) ← readTree (2 * chars.length + 2) chars
  if (skipBlank rest).isEmpty then some tree else none

/-- The value of a text, or nothing when the text is not one value. -/
def value? (text : String) : Option Value := do
  let tree ← parse? text
  tree.value? deepest

end CardNet.Json
