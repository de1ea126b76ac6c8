import CardNet.Connection.Basic

/-!
# Validation of connections

Whether a connection may be drawn next to those that exist. A connection within one card is
refused first, then a repeated one, then one whose anchors are unknown, and last one that does
not lead from an output or an event to an input.
-/

namespace CardNet

/-- Why a connection may not be drawn. -/
inductive Rejection where
  | selfLoop
  | duplicate
  | unknownAnchor
  | kindMismatch
deriving DecidableEq

/-- The text of a rejection. -/
def Rejection.message : Rejection → String
  | selfLoop => "cannot connect a card to itself"
  | duplicate => "connection already exists"
  | unknownAnchor => "invalid anchor"
  | kindMismatch => "anchor kinds do not match (expected output or event -> input)"

namespace Connection

/-- The position of a connection in a list. -/
def duplicate? (existing : List Connection) (candidate : Connection) : Option Nat :=
  existing.findIdx? (· == candidate)

/-- The position of the first connection that leads to the same anchor. -/
def sameTarget? (existing : List Connection) (candidate : Connection) : Option Nat :=
  existing.findIdx? fun connection => connection.target == candidate.target

/-- Whether a connection may lead from one kind of anchor to another. -/
def kindsMatch (source target : AnchorKind) : Bool :=
  (source == .output || source == .event) && target == .input

/-- Check a connection against those that exist and the cards that there are. -/
def validate (existing : List Connection) (candidate : Connection) (cards : List Card) :
    Except Rejection Unit :=
  if candidate.source.card = candidate.target.card then .error .selfLoop
  else if (duplicate? existing candidate).isSome then .error .duplicate
  else
    match candidate.source.resolve? cards, candidate.target.resolve? cards with
    | some source, some target =>
        if kindsMatch source.kind target.kind then .ok () else .error .kindMismatch
    | _, _ => .error .unknownAnchor

end Connection

end CardNet
