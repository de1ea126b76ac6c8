import CardNet.Card.Basic

/-!
# Connections

A connection leads from an anchor of one card to an anchor of another. The names of the nodes
that stand for anchors, connections and cards in a net are joined from their ids, and all such
names are given here.
-/

namespace CardNet

/-- An anchor of a card, by ids. -/
structure Endpoint where
  card : String
  anchor : String
deriving DecidableEq, Inhabited

namespace Endpoint

/-- An endpoint as messages show it. -/
def text (endpoint : Endpoint) : String := s!"{endpoint.card}.{endpoint.anchor}"

/-- The name of the place that holds the anchor. -/
def place (endpoint : Endpoint) : String := s!"place_{endpoint.card}_{endpoint.anchor}"

/-- The name of the place that collects the events of the anchor. -/
def eventPlace (endpoint : Endpoint) : String :=
  s!"event_place_{endpoint.card}_{endpoint.anchor}"

/-- The name of the transition that hands each event on. -/
def eventTransition (endpoint : Endpoint) : String :=
  s!"event_transition_{endpoint.card}_{endpoint.anchor}"

/-- The name under which the value of the anchor appears among outputs. -/
def outputKey (endpoint : Endpoint) : String := s!"{endpoint.card}_{endpoint.anchor}"

/-- The anchor that an endpoint means: of the first card of its id, the first of its id. -/
def resolve? (endpoint : Endpoint) (cards : List Card) : Option Anchor :=
  (cards.find? fun card => card.id == endpoint.card).bind fun card => card.anchor? endpoint.anchor

end Endpoint

/-- A wire from one anchor to another. -/
structure Connection where
  source : Endpoint
  target : Endpoint
deriving DecidableEq, Inhabited

namespace Connection

/-- The id of a connection. -/
def id (connection : Connection) : String :=
  let source := connection.source
  let target := connection.target
  s!"{source.card}-{source.anchor}-{target.card}-{target.anchor}"

/-- A connection as messages show it. -/
def text (connection : Connection) : String :=
  s!"{connection.source.text} -> {connection.target.text}"

/-- The name of the transition that hands the value of the source on to all its connections. -/
def splitTransition (connection : Connection) : String :=
  s!"split_transition_{connection.source.place}"

/-- The name of the place between the split and the transfer. -/
def splitPlace (connection : Connection) : String :=
  s!"split_place_{connection.source.place}_{connection.target.place}"

/-- The name of the transition that carries the value over. -/
def transfer (connection : Connection) : String :=
  let source := connection.source
  let target := connection.target
  s!"transfer_{source.card}-{source.anchor}_to_{target.card}-{target.anchor}"

end Connection

namespace Card

/-- The name of the transition that calls the card. -/
def internalTransition (card : Card) : String := s!"internal_transition_{card.id}_{card.title}"

/-- The name of the place that starts a card without inputs. -/
def startPlace (card : Card) : String := s!"internal_place_{card.id}_{card.title}"

end Card

/-- A graph as it is described: its name and its connections. -/
structure GraphConfig where
  name : String
  connections : List Connection
deriving DecidableEq, Inhabited

/-- Why a connection is left out of a net. -/
inductive SkipReason where
  | cardNotFound
  | anchorNotFound
deriving DecidableEq

/-- The text of a reason to leave a connection out. -/
def SkipReason.message : SkipReason → String
  | cardNotFound => "card not found"
  | anchorNotFound => "anchor not found"

/-- A connection that was left out. -/
structure Warning where
  connection : Connection
  reason : SkipReason
deriving DecidableEq

/-- A warning as messages show it. -/
def Warning.text (warning : Warning) : String :=
  s!"skipped connection {warning.connection.text}: {warning.reason.message}"

end CardNet
