import CardNet.Graph.Basic

/-!
# Blueprints

The layout of a card and of a connection as a list of edits of a circuit. An edit brings in what
is not there yet and leaves alone what is; only a place that stands for an anchor is checked to
stand for the right one. Edits are made in order up to the first that fails, and the work done
until then stays (`Bench.applyAll`).

A connection is laid out as `source place → split → split place → transfer → target place`; the
split is shared by all connections of one anchor. A card is laid out as a transition between the
places of its inputs and of its outputs; a card without inputs gets a start place with one token.
-/

namespace CardNet

/-- One edit of a circuit. -/
inductive Edit where
  /-- The place of an anchor. -/
  | anchorPlace (card : String) (anchor : Anchor)
  /-- The place that collects the events of an anchor. -/
  | eventPlace (card : String) (anchor : Anchor)
  /-- The subscription to the events of an anchor. -/
  | listen (card : String) (anchor : Anchor)
  | place (id : String) (held : Place Content)
  | transition (id : String) (action : Action)
  | arc (source target : String)

/-- A graph on its board. -/
structure Bench where
  graph : Graph
  board : Board

/-- Enter a place that stands for an anchor, or check that the place of this name does. -/
def Circuit.bindPlace (net : Circuit) (id : String) (content : Content) (wanted : Endpoint) :
    Except Failure Circuit :=
  match net.place? id with
  | none => (net.addPlace id ⟨.process, 0, some content⟩).mapError .net
  | some place =>
      let bound := place.content.bind Content.endpoint?
      if bound = some wanted then .ok net else .error (.collision id bound wanted)

/-- Enter a place unless there is one of the name. -/
def Circuit.ensurePlace (net : Circuit) (id : String) (place : Place Content) :
    Except Failure Circuit :=
  if net.places.contains id then .ok net else (net.addPlace id place).mapError .net

/-- Enter a transition unless there is one of the name. -/
def Circuit.ensureTransition (net : Circuit) (id : String) (action : Action) :
    Except Failure Circuit :=
  if net.transitions.contains id then .ok net else (net.addTransition id action).mapError .net

/-- Enter an arc of weight one unless there is one of the name. -/
def Circuit.ensureArc (net : Circuit) (source target : String) : Except Failure Circuit :=
  if net.isConnected source target then .ok net else (net.addArc source target 1).mapError .net

namespace Bench

/-- Replace the circuit, or pass a failure on. -/
def withNet (bench : Bench) (net : Except Failure Circuit) : Except Failure Bench :=
  net.map fun net => { bench with graph := { bench.graph with net := net } }

/-- Listen to the events of an anchor, unless the graph does so already. An anchor that takes no
listeners is left alone. -/
def listen (bench : Bench) (place : String) (anchor : Anchor) : Bench :=
  if bench.graph.subscriptions.contains place then bench
  else
    match bench.board.subscribe anchor ⟨bench.graph.channel, place⟩ with
    | (some number, board) =>
        let subscriptions := bench.graph.subscriptions.insert place ⟨anchor, number⟩
        ⟨{ bench.graph with subscriptions := subscriptions }, board⟩
    | (none, board) => { bench with board := board }

end Bench

/-- Make an edit. -/
def Edit.apply (edit : Edit) (bench : Bench) : Except Failure Bench :=
  let net := bench.graph.net
  match edit with
  | .anchorPlace card anchor =>
      let endpoint : Endpoint := ⟨card, anchor.id⟩
      bench.withNet (net.bindPlace endpoint.place (.anchor card anchor) endpoint)
  | .eventPlace card anchor =>
      let endpoint : Endpoint := ⟨card, anchor.id⟩
      bench.withNet (net.bindPlace endpoint.eventPlace (.event card anchor) endpoint)
  | .listen card anchor => .ok (bench.listen (Endpoint.eventPlace ⟨card, anchor.id⟩) anchor)
  | .place id held => bench.withNet (net.ensurePlace id held)
  | .transition id action => bench.withNet (net.ensureTransition id action)
  | .arc source target => bench.withNet (net.ensureArc source target)

/-- Make edits in order, up to the first that fails. -/
def Bench.applyAll (bench : Bench) : List Edit → Except Failure Unit × Bench
  | [] => (.ok (), bench)
  | edit :: rest =>
      match edit.apply bench with
      | .ok bench => bench.applyAll rest
      | .error failure => (.error failure, bench)

/-- The edits for what comes before the transition of a card, and the transition itself. -/
def Card.inputEdits (card : Card) (channel : Nat) : List Edit :=
  let transition := card.internalTransition
  let inputs := card.anchorsOf .input
  if inputs.isEmpty then
    [.place card.startPlace ⟨.start, 1, some (.trigger card)⟩,
      .transition transition (.start card channel),
      .arc card.startPlace transition]
  else
    .transition transition (.call card) ::
      inputs.flatMap fun anchor =>
        [.anchorPlace card.id anchor, .arc (Endpoint.place ⟨card.id, anchor.id⟩) transition]

/-- The edits that lay out a card. -/
def Card.blueprint (card : Card) (channel : Nat) : List Edit :=
  let outputEdits := (card.anchorsOf .output).flatMap fun anchor =>
    [Edit.anchorPlace card.id anchor,
      .arc card.internalTransition (Endpoint.place ⟨card.id, anchor.id⟩)]
  let eventEdits := (card.anchorsOf .event).map fun anchor => Edit.eventPlace card.id anchor
  card.inputEdits channel ++ outputEdits ++ eventEdits

namespace Connection

/-- The place that a connection starts from. -/
def sourcePlace (connection : Connection) (source : Anchor) : String :=
  if source.kind = .event then connection.source.eventPlace else connection.source.place

/-- The transition that hands on what the connection carries. -/
def handOver (connection : Connection) (source : Anchor) : String :=
  if source.kind = .event then connection.source.eventTransition else connection.splitTransition

/-- The edits for the place that a connection starts from. -/
def sourceEdits (connection : Connection) (source : Anchor) : List Edit :=
  let card := connection.source.card
  if source.kind = .event then [.eventPlace card source, .listen card source]
  else [.anchorPlace card source]

/-- The edits that lay out a connection between two anchors. -/
def blueprint (connection : Connection) (source target : Anchor) : List Edit :=
  let split := connection.handOver source
  connection.sourceEdits source ++
    [.anchorPlace connection.target.card target,
      .transition split .split,
      .place connection.splitPlace ⟨.process, 0, some .relay⟩,
      .transition connection.transfer (.transfer source target),
      .arc (connection.sourcePlace source) split,
      .arc split connection.splitPlace,
      .arc connection.splitPlace connection.transfer,
      .arc connection.transfer connection.target.place]

/-- The cards and anchors that a connection joins. -/
structure Parties where
  sourceCard : Card
  targetCard : Card
  source : Anchor
  target : Anchor

/-- Find the cards and anchors that a connection joins: both cards first, then both anchors. -/
def parties (connection : Connection) (cards : List Card) : Except SkipReason Parties :=
  let find := fun (id : String) => cards.find? fun card => card.id == id
  match find connection.source.card, find connection.target.card with
  | some sourceCard, some targetCard =>
      match sourceCard.anchor? connection.source.anchor,
          targetCard.anchor? connection.target.anchor with
      | some source, some target => .ok ⟨sourceCard, targetCard, source, target⟩
      | _, _ => .error .anchorNotFound
  | _, _ => .error .cardNotFound

/-- The edits that lay out a connection and the cards that it joins. -/
def layout (connection : Connection) (parties : Parties) (channel : Nat) : List Edit :=
  connection.blueprint parties.source parties.target ++
    parties.sourceCard.blueprint channel ++ parties.targetCard.blueprint channel

end Connection

end CardNet
