import CardNet.Value.Basic

/-!
# Parts of values

What a value holds when it is expected to be of some form. A value of another form holds nothing:
an empty text, zero, no items, no fields.
-/

namespace CardNet.Value

/-- The text that a value is. -/
def asText : Value → String
  | text content => content
  | _ => ""

/-- The whole number that a value is. -/
def asInt : Value → Int
  | number (.whole n) => n
  | _ => 0

/-- The natural number that a value is. -/
def asNat (value : Value) : Nat := value.asInt.toNat

/-- The truth value that a value is. -/
def asBool : Value → Bool
  | bool b => b
  | _ => false

/-- The items of a list. -/
def asList : Value → List Value
  | list items => items
  | _ => []

/-- The fields of an object. -/
def asFields : Value → List (String × Value)
  | object fields => fields
  | _ => []

/-- The fields of an object as named values. -/
def asValues (value : Value) : Values := Values.ofPairs value.asFields

/-- A field of an object. -/
def field? (value : Value) (name : String) : Option Value := value.asFields.lookup name

/-- A field of an object, null when it is missing. -/
def field (value : Value) (name : String) : Value := (value.field? name).getD null

end CardNet.Value
