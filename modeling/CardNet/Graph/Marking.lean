import CardNet.Graph.Blueprint

/-!
# Markings of a graph

What happens to tokens and values at the start of a run, and what is read off a graph: the
values by which changes are noticed, the values of all places, and the outputs.
-/

namespace CardNet

namespace Circuit

/-- Whether a place collects events. -/
def collectsEvents (net : Circuit) (id : String) : Bool :=
  match net.content? id with
  | some content => content.isEvent
  | none => false

/-- The contents of all places, in order. -/
def contents (net : Circuit) : List Content :=
  net.places.values.filterMap Place.content

/-- No tokens anywhere but on the places that collect events. -/
def clearTokens (net : Circuit) : Circuit :=
  let cleared := net.places.map fun _ place =>
    match place.content with
    | some content => if content.isEvent then place else { place with tokens := 0 }
    | none => { place with tokens := 0 }
  { net with places := cleared }

/-- The entry places that do not collect events. -/
def seedPlaces (net : Circuit) : List String :=
  net.entryPlaces.filter fun id => !net.collectsEvents id

/-- Bring the anchor of a place to its default, if it declares one. -/
def applyDefault (net : Circuit) (board : Board) (id : String) : Board :=
  match (net.content? id).bind Content.settable? with
  | some anchor => board.resetAnchor anchor
  | none => board

/-- The contents of some places with their names. -/
def contentsOf (net : Circuit) (ids : List String) : List (String × Content) :=
  ids.filterMap fun id => (net.content? id).map fun content => (id, content)

end Circuit

namespace Bench

/-- Take all tokens away, except events that were not handed on, and reset all contents. -/
def reset (bench : Bench) : Bench :=
  let net := bench.graph.net
  { graph := { bench.graph with net := net.clearTokens }
    board := net.contents.foldl (fun board content => content.reset board) bench.board }

/-- Bring the entry places to their defaults and put one token on each. Places that collect
events get tokens from events only. -/
def seed (bench : Bench) : Bench :=
  let net := bench.graph.net
  let seeded := net.seedPlaces.foldl (fun net id => net.modifyTokens id fun _ => 1) net
  { graph := { bench.graph with net := seeded }
    board := net.seedPlaces.foldl net.applyDefault bench.board }

/-- The values by which a change of an entry place is noticed. -/
def entryValues (bench : Bench) : Values :=
  let net := bench.graph.net
  Values.ofPairs ((net.contentsOf net.entryPlaces).map fun entry =>
    (entry.1, entry.2.observed bench.board))

/-- The value of every place that shows one. -/
def placeValues (bench : Bench) : Values :=
  let net := bench.graph.net
  Values.ofPairs ((net.contentsOf net.places.names).filterMap fun entry =>
    (entry.2.value? bench.board).map fun value => (entry.1, value))

/-- The values of the exit places under their output keys. -/
def outputs (bench : Bench) : Values :=
  let net := bench.graph.net
  Values.ofPairs ((net.contentsOf net.exitPlaces).filterMap fun entry =>
    match entry.2.outputKey?, entry.2.value? bench.board with
    | some key, some value => some (key, value)
    | _, _ => none)

/-- Note an event on its place; answers whether the place collects events. In function mode
plans read the anchor itself, so no token is put down. -/
def recordEvent (bench : Bench) (place : String) : Bool × Bench :=
  let net := bench.graph.net
  if net.collectsEvents place then
    match bench.graph.mode with
    | .visual => (true, { bench with graph.net := net.modifyTokens place (· + 1) })
    | .function => (true, bench)
  else (false, bench)

/-- Fire a transition within a time limit. -/
def fire (bench : Bench) (transition : String) (arguments : List Value) (limit : Option Nat) :
    Shot × Bench :=
  let (shot, net, board) := bench.graph.net.fire bench.board transition arguments limit
  (shot, { graph := { bench.graph with net := net }, board := board })

/-- Fire those of some transitions that may fire when their turn comes; answers with the ends of
these firings. -/
def fireEach (bench : Bench) : List String → List (String × Shot) × Bench
  | [] => ([], bench)
  | transition :: rest =>
      if bench.graph.net.isEnabled transition then
        let (shot, bench) := bench.fire transition [] none
        let (others, bench) := bench.fireEach rest
        ((transition, shot) :: others, bench)
      else bench.fireEach rest

end Bench

end CardNet
