import CardNet.Json.Reader

/-!
# Shapes of documents

What a tree must look like to stand for something. A record is an object whose fields occur at
most once, in any order and among others, or the list of its fields in their declared order; the
last of them may be missing. A choice between names is the name, or an object with the name as
its only member and null under it. `depth` is the number of containers that may still be nested.
-/

namespace CardNet.Json

/-- A reading of a tree as an `α`. -/
abbrev Shape (α : Type) := Nat → Tree → Option α

namespace Shape

/-- Any text. -/
def text : Shape String
  | _, .text content => content
  | _, _ => none

/-- A whole number from zero to `2 ^ 64 - 1`. -/
def natural : Shape Nat
  | _, .number (some (.whole n)) => if 0 ≤ n then some n.toNat else none
  | _, _ => none

/-- Any value. -/
def value : Shape Value := fun depth tree => tree.value? depth

/-- Null, or something. -/
def optional {α : Type} (shape : Shape α) : Shape (Option α)
  | _, .null => some none
  | depth, tree => (shape depth tree).map some

/-- A list of things. -/
def list {α : Type} (shape : Shape α) : Shape (List α)
  | 0, _ => none
  | depth + 1, .list items => items.mapM (shape depth)
  | _, _ => none

/-- Things by name, in the order in which they stand. -/
def members {α : Type} (shape : Shape α) : Shape (List (String × α))
  | 0, _ => none
  | depth + 1, .object members =>
      members.mapM fun (name, member) => do
        let key ← name
        let content ← shape depth member
        return (key, content)
  | _, _ => none

/-- Named values; of values under one name the last counts. -/
def values : Shape Values := fun depth tree => (members value depth tree).map Values.ofPairs

/-- One of some names. -/
def choice {α : Type} (ofName? : String → Option α) : Shape α
  | _, .text content => content.bind ofName?
  | 0, _ => none
  | _ + 1, .object [(some name, .null)] => ofName? name
  | _, _ => none

/-- The fields of a record, each at most once. -/
structure Fields where
  depth : Nat
  known : List (String × Tree)

/-- Gather the known fields of an object; a repeated one is refused. -/
def gather (names : List String) :
    List (Option String × Tree) → List (String × Tree) → Option (List (String × Tree))
  | [], found => some found
  | (name, member) :: rest, found =>
      match name with
      | none => none
      | some name =>
          if name ∈ names then
            if (found.lookup name).isSome then none
            else gather names rest ((name, member) :: found)
          else gather names rest found

/-- The fields of a record with given names. -/
def fields (names : List String) : Shape Fields
  | 0, _ => none
  | depth + 1, .list items =>
      if items.length ≤ names.length then some ⟨depth, names.zip items⟩ else none
  | depth + 1, .object members => (gather names members []).map fun known => ⟨depth, known⟩
  | _, _ => none

/-- A field that must be there. -/
def Fields.need {α : Type} (fields : Fields) (name : String) (shape : Shape α) : Option α :=
  (fields.known.lookup name).bind (shape fields.depth)

/-- A field that may be missing. -/
def Fields.get {α : Type} (fields : Fields) (name : String) (shape : Shape α) (missing : α) :
    Option α :=
  match fields.known.lookup name with
  | some tree => shape fields.depth tree
  | none => some missing

/-- Read a text as a shape. -/
def parse? {α : Type} (shape : Shape α) (text : String) : Option α :=
  (Json.parse? text).bind (shape deepest)

/-- Read a value as a shape. -/
def ofValue? {α : Type} (shape : Shape α) (value : Value) : Option α :=
  shape deepest (Tree.ofValue value)

end Shape

end CardNet.Json
