import CardNet.Graph.Marking

/-!
# Building and editing graphs

A graph is built by laying out its connections one by one and then all of its cards. A
connection whose cards or anchors are unknown is left out with a warning, but it counts among
the connections of the graph. A connection can be added and removed later; an edit that fails
leaves behind what it has done up to then.
-/

namespace CardNet

namespace Bench

/-- Count a connection among the connections of the graph. -/
def register (bench : Bench) (connection : Connection) : Bench :=
  let connections := bench.graph.connections.insert connection.id connection
  { bench with graph := { bench.graph with connections := connections } }

/-- Warn that a connection is left out. -/
def warn (bench : Bench) (connection : Connection) (reason : SkipReason) : Bench :=
  let warnings := bench.graph.warnings ++ [⟨connection, reason⟩]
  { bench with graph := { bench.graph with warnings := warnings } }

/-- Lay out a connection and count it among the connections of the graph; answers with its
id. -/
def connect (bench : Bench) (connection : Connection) : Except Failure String × Bench :=
  let graph := bench.graph
  match connection.parties graph.cards with
  | .error reason => (.ok connection.id, (bench.warn connection reason).register connection)
  | .ok parties =>
      match bench.applyAll (connection.layout parties graph.channel) with
      | (.error failure, bench) => (.error failure, bench)
      | (.ok (), bench) => (.ok connection.id, bench.register connection)

/-- Lay out connections in order, up to the first that fails. -/
def connectAll (bench : Bench) : List Connection → Except Failure Unit × Bench
  | [] => (.ok (), bench)
  | connection :: rest =>
      match bench.connect connection with
      | (.ok _, bench) => bench.connectAll rest
      | (.error failure, bench) => (.error failure, bench)

end Bench

namespace Graph

/-- The plans of entry places, up to the first that has none. -/
def pathsOf (net : Circuit) : List String → Registry Plan → Except RegionError Unit × Registry Plan
  | [], paths => (.ok (), paths)
  | entry :: rest, paths =>
      match Plan.ofEntries net [entry] with
      | .ok plan => pathsOf net rest (paths.insert entry plan)
      | .error reason => (.error reason, paths)

/-- Make the plans of all entry places, one by one and together. When one cannot be made, the
plans made before it stay, and there is no common plan. -/
def compile (graph : Graph) : Except Failure Unit × Graph :=
  let entries := graph.net.entryPlaces
  match pathsOf graph.net entries .empty with
  | (.error reason, paths) =>
      (.error (.region reason), { graph with paths := paths, plan := none })
  | (.ok (), paths) =>
      if entries.isEmpty then (.ok (), { graph with paths := paths, plan := none })
      else
        match Plan.ofEntries graph.net entries with
        | .error reason =>
            (.error (.region reason), { graph with paths := paths, plan := none })
        | .ok plan => (.ok (), { graph with paths := paths, plan := some plan })

/-- Make the plans again where the mode needs them. -/
def recompile (graph : Graph) : Except Failure Unit × Graph :=
  match graph.mode with
  | .visual => (.ok (), graph)
  | .function => graph.compile

/-- A graph without connections, whose circuit is empty. -/
def blank (mode : Mode) (net : Circuit) (cards : List Card) (channel : Nat) (supplies : Bool) :
    Graph where
  mode := mode
  net := net
  cards := cards
  connections := .empty
  paths := .empty
  plan := none
  channel := channel
  suppliesGlobals := supplies
  warnings := []
  subscriptions := .empty

end Graph

namespace Bench

/-- Make the plans again where the mode needs them. -/
def recompile (bench : Bench) : Except Failure Unit × Bench :=
  let (result, graph) := bench.graph.recompile
  (result, { bench with graph := graph })

/-- Lay out the connections and the cards of a graph, seed it, and make its plans. -/
def construct (bench : Bench) (connections : List Connection) : Except Failure Unit × Bench :=
  match bench.connectAll connections with
  | (.error failure, bench) => (.error failure, bench)
  | (.ok (), bench) =>
      let graph := bench.graph
      match bench.applyAll (graph.cards.flatMap fun card => card.blueprint graph.channel) with
      | (.error failure, bench) => (.error failure, bench)
      | (.ok (), bench) => bench.seed.recompile

/-- Add a connection; answers with its id. -/
def addConnection (bench : Bench) (connection : Connection) : Except Failure String × Bench :=
  match bench.connect connection with
  | (.error failure, bench) => (.error failure, bench)
  | (.ok id, bench) =>
      let (result, bench) := bench.recompile
      (result.map fun () => id, bench)

/-- Give up the subscription of an event place. -/
def unlisten (bench : Bench) (place : String) : Bench :=
  match bench.graph.subscriptions.get? place with
  | none => bench
  | some held =>
      ⟨{ bench.graph with subscriptions := bench.graph.subscriptions.erase place },
        bench.board.unsubscribe held.anchor held.number⟩

/-- Take out what stands for a connection alone, and with the last connection of an anchor also
the split and the subscription. -/
def uproot (bench : Bench) (connection : Connection) : Bench :=
  let net := (bench.graph.net.removeTransition connection.transfer).2
  let net := (net.removePlace connection.splitPlace).2
  let eventPlace := connection.source.eventPlace
  let eventTransition := connection.source.eventTransition
  let isEvent := net.isConnected eventPlace eventTransition
  let split := if isEvent then eventTransition else connection.splitTransition
  if (net.arcsFrom split).isEmpty then
    let bench := { bench with graph.net := (net.removeTransition split).2 }
    if isEvent then bench.unlisten eventPlace else bench
  else { bench with graph.net := net }

/-- Remove a connection; answers whether there was one of the id. -/
def removeConnection (bench : Bench) (id : String) : Except Failure Bool × Bench :=
  match bench.graph.connections.get? id with
  | none => (.ok false, bench)
  | some connection =>
      let connections := bench.graph.connections.erase id
      let bench := { bench with graph.connections := connections }.uproot connection
      let (result, bench) := bench.recompile
      (result.map fun () => true, bench)

end Bench

/-- Build a graph on a board. The channel of the graph gets the globals, if any are supplied; a
graph that cannot be built gives its subscriptions up. -/
def Graph.build (mode : Mode) (config : GraphConfig) (cards : List Card) (globals : Option Values)
    (board : Board) : Except Failure Graph × Board :=
  match Net.create s!"PetriNet_{config.name}" with
  | .error error => (.error (.net error), board)
  | .ok net =>
      let (channel, board) := board.allocate
      let supplied := globals.getD ∅
      let board := board.modifyChannel channel fun _ => ⟨supplied, supplied, []⟩
      match Bench.construct ⟨.blank mode net cards channel globals.isSome, board⟩
          config.connections with
      | (.ok (), bench) => (.ok bench.graph, bench.board)
      | (.error failure, bench) => (.error failure, bench.graph.release bench.board)

end CardNet
