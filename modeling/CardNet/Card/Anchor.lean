import CardNet.Value.Basic

/-!
# Anchors

An anchor is a slot of a card: it takes a value in, gives a value out, or emits events. What an
anchor is never changes and is kept here; the value that it holds lies on the board, at the
anchor's slot. Two anchors with one slot are one anchor.
-/

namespace CardNet

/-- The direction of an anchor. -/
inductive AnchorKind where
  | input
  | output
  | event
deriving DecidableEq, Inhabited

namespace AnchorKind

/-- The name of a kind. -/
def name : AnchorKind → String
  | input => "input"
  | output => "output"
  | event => "event"

/-- The kinds in order. -/
def all : List AnchorKind := [input, output, event]

/-- The kind of a name. -/
def ofName? (name : String) : Option AnchorKind := all.find? fun kind => kind.name == name

end AnchorKind

/-- An anchor: where its value lies, what it is called, and what it can do. -/
structure Anchor where
  /-- The place of the anchor's value on the board. -/
  slot : Nat
  id : String
  kind : AnchorKind
  /-- The value that the anchor goes back to at the start of a run, if one is declared. -/
  default : Option Value
  /-- Whether the anchor takes listeners. -/
  listens : Bool
deriving Inhabited

/-- An anchor before it has a slot. -/
structure AnchorDesign where
  id : String
  kind : AnchorKind
  default : Option Value
  value : Option Value
  /-- Whether an event anchor only holds its value and takes no listeners. -/
  plain : Bool
deriving Inhabited

namespace AnchorDesign

/-- Whether the anchor will take listeners. -/
def listens (design : AnchorDesign) : Bool := design.kind == .event && !design.plain

/-- The anchor at a slot. An anchor that takes listeners declares no default. -/
def toAnchor (design : AnchorDesign) (slot : Nat) : Anchor where
  slot := slot
  id := design.id
  kind := design.kind
  default := if design.listens then none else design.default
  listens := design.listens

/-- The value that the anchor starts out with. -/
def initialValue (design : AnchorDesign) : Value :=
  if design.listens then design.value.getD .null
  else (design.value.or design.default).getD .null

end AnchorDesign

end CardNet
