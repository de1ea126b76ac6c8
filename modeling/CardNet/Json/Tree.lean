import CardNet.Decimal.Scaled
import CardNet.Value.Basic

/-!
# Document trees

A document tree is what a text says before its shape is known: every member of an object in
order, repeated names included. A number is `none` when it is too large for a double, and a text
is `none` when it escapes half of a surrogate pair: both are well formed as long as nobody asks
for them.
-/

namespace CardNet.Json

/-- A value as it stands in a text. -/
inductive Tree where
  | null
  | bool (b : Bool)
  | number (content : Option Number)
  | text (content : Option String)
  | list (items : List Tree)
  | object (members : List (Option String × Tree))
deriving Inhabited

/-- How many containers may be nested, the outermost included. -/
def deepest : Nat := 127

/-- The number that a numeral stands for; it is whole when it is written without decimals and
exponent, fits 64 bits, and is not a negative zero. -/
def number? (numeral : Numeral) : Option Number :=
  match numeral.toInt? with
  | some n =>
      if (numeral.negative && Int64.minValue.toInt ≤ n && n < 0) ||
          (!numeral.negative && n < (UInt64.size : Int)) then
        some (.whole n)
      else numeral.toDouble?.map .double
  | none => numeral.toDouble?.map .double

mutual

/-- The value of a tree within `depth` nested containers: all texts must be whole, all numbers
in range, and of members with one name the last counts. -/
def Tree.value? (depth : Nat) : Tree → Option Value
  | .null => some .null
  | .bool b => some (.bool b)
  | .number content => content.map .number
  | .text content => content.map .text
  | .list items => if depth = 0 then none else (values? (depth - 1) items).map .list
  | .object members =>
      if depth = 0 then none
      else (fields? (depth - 1) members).map fun fields => Value.ofValues (Values.ofPairs fields)

/-- The values of a list of trees. -/
def values? (depth : Nat) : List Tree → Option (List Value)
  | [] => some []
  | item :: rest => do
      let first ← item.value? depth
      let others ← values? depth rest
      return first :: others

/-- The names and values of a list of members. -/
def fields? (depth : Nat) : List (Option String × Tree) → Option (List (String × Value))
  | [] => some []
  | (name, member) :: rest => do
      let key ← name
      let first ← member.value? depth
      let others ← fields? depth rest
      return (key, first) :: others

end

mutual

/-- A value as a tree. -/
def Tree.ofValue : Value → Tree
  | .null => .null
  | .bool b => .bool b
  | .number n => .number (some n)
  | .text s => .text (some s)
  | .list items => .list (ofItems items)
  | .object fields => .object (ofFields fields)

/-- Values as trees. -/
def ofItems : List Value → List Tree
  | [] => []
  | item :: rest => Tree.ofValue item :: ofItems rest

/-- Fields as members. -/
def ofFields : List (String × Value) → List (Option String × Tree)
  | [] => []
  | (name, value) :: rest => (some name, Tree.ofValue value) :: ofFields rest

end

end CardNet.Json
