import CardNet.Engine.Config
import CardNet.Graph.Build
import CardNet.Value.Access

/-!
# The engine

An engine keeps a graph, the board that the graph's cards are on, and records of its runs. A run
is opened (`Engine.opening`): globals go on top of the inputs, all places are reset and the entry
places seeded. When the run is done it is closed (`Engine.close`): the outputs are read off the
exit places and recorded together with what they depended on. A run that would depend on the
same entry values and inputs as the last one is not opened but answered from the records, unless
it is forced.
-/

namespace CardNet

/-- What the outputs of a run depended on. -/
structure MemoKey where
  entries : Values
  inputs : Values

/-- Equality up to the sign of zero doubles. -/
def MemoKey.agrees (first second : MemoKey) : Bool :=
  first.entries.agrees second.entries && first.inputs.agrees second.inputs

/-- What is remembered of past runs. -/
structure Records where
  /-- What the recorded outputs depended on; nothing when they may not be used again. -/
  memo : Option MemoKey
  outputs : Values
  /-- The value of every place after the last visual run. -/
  placeValues : Values
  /-- The results of the last run of the plan. -/
  planResults : Values

/-- The records before the first run. -/
def Records.blank : Records := ⟨none, ∅, ∅, ∅⟩

/-- A graph with all that is needed to run it. -/
structure Engine where
  config : EngineConfig
  graph : Option Graph
  board : Board
  records : Records

/-- How a run goes on once it is opened. -/
inductive Opening where
  /-- It is over: the recorded outputs hold. -/
  | recorded (outputs : Values)
  /-- By firings, with the merged inputs. -/
  | firings (inputs : Values)
  /-- By the plan, with the merged inputs. -/
  | plan (inputs : Values)

/-- Make inputs the run inputs of a graph. -/
def Bench.supply (bench : Bench) (inputs : Values) : Bench :=
  { bench with
    board := bench.board.modifyChannel bench.graph.channel fun channel =>
      { channel with inputs := inputs } }

/-- What the outputs of a run with these inputs depend on at present. -/
def Bench.memoKey (bench : Bench) (inputs : Values) : MemoKey := ⟨bench.entryValues, inputs⟩

namespace Engine

/-- An engine without a graph. -/
def idle (config : EngineConfig) (board : Board) : Engine := ⟨config, none, board, .blank⟩

/-- The graph on its board, if there is one. -/
def bench? (engine : Engine) : Option Bench :=
  engine.graph.map fun graph => ⟨graph, engine.board⟩

/-- The graph on its board. -/
def bench (engine : Engine) : Except Failure Bench :=
  match engine.bench? with
  | some bench => .ok bench
  | none => .error .notBuilt

/-- Put back a graph and its board. -/
def withBench (engine : Engine) (bench : Bench) : Engine :=
  { engine with graph := some bench.graph, board := bench.board }

/-- Put back a circuit and the board. -/
def withCircuit (engine : Engine) (net : Circuit) (board : Board) : Engine :=
  { engine with graph := engine.graph.map fun graph => { graph with net := net }, board := board }

/-- Whether recorded outputs depended on just this. -/
def remembers (engine : Engine) (key : MemoKey) : Bool :=
  match engine.records.memo with
  | some memo => memo.agrees key
  | none => false

/-- No longer use the recorded outputs. -/
def forget (engine : Engine) : Engine :=
  { engine with records := { engine.records with memo := none } }

/-- Open a run on a graph, or answer it from the records. -/
def openOn (engine : Engine) (bench : Bench) (inputs : Values) (force : Bool) :
    Opening × Engine :=
  let inputs := bench.graph.mergeGlobals bench.board inputs
  if !force && engine.remembers (bench.memoKey inputs) then
    (.recorded engine.records.outputs, engine)
  else
    let engine := engine.withBench (bench.supply inputs).reset.seed
    match bench.graph.mode with
    | .visual => (.firings inputs, engine)
    | .function => (.plan inputs, engine)

/-- Open a run. -/
def opening (engine : Engine) (inputs : Values) (force : Bool) :
    Except Failure Opening × Engine :=
  match engine.bench with
  | .error failure => (.error failure, engine)
  | .ok bench =>
      let (opening, engine) := engine.openOn bench inputs force
      (.ok opening, engine)

/-- Close a run with these merged inputs, which had results if it followed the plan. -/
def close (engine : Engine) (inputs : Values) (results : Option Values) :
    Except Failure Values × Engine :=
  match engine.bench with
  | .error failure => (.error failure, engine)
  | .ok bench =>
      let outputs := bench.outputs
      let records :=
        { engine.records with memo := some (bench.memoKey inputs), outputs := outputs }
      let records :=
        match results with
        | some results => { records with planResults := results }
        | none => { records with placeValues := bench.placeValues }
      (.ok outputs, { engine with records := records })

/-- The transitions of the graph, in the order in which a pass tries them. -/
def transitions (engine : Engine) : Except Failure (List String) :=
  engine.bench.map fun bench => bench.graph.net.transitions.names

/-- The plan of all entry places, if the graph has one. -/
def plan (engine : Engine) : Except Failure (Option Plan) :=
  engine.bench.map fun bench => bench.graph.plan

/-- Build a graph on the board without taking it over. -/
def build (engine : Engine) (config : GraphConfig) (cards : List Card)
    (globals : Option Values) : Except Failure Graph × Engine :=
  let (result, board) := Graph.build engine.config.mode config cards globals engine.board
  (result, { engine with board := board })

/-- Give up the graph and all records of it. -/
def discard (engine : Engine) : Engine :=
  let board :=
    match engine.graph with
    | some graph => graph.release engine.board
    | none => engine.board
  { engine with graph := none, board := board, records := .blank }

/-- Take a graph over in place of the present one. -/
def install (engine : Engine) (graph : Graph) : Engine :=
  { engine.discard with graph := some graph }

/-- Add a connection to the graph; answers with its id. -/
def addConnection (engine : Engine) (connection : Connection) : Except Failure String × Engine :=
  match engine.bench with
  | .error failure => (.error failure, engine)
  | .ok bench =>
      match bench.addConnection connection with
      | (.error failure, bench) => (.error failure, engine.withBench bench)
      | (.ok id, bench) => (.ok id, (engine.withBench bench).forget)

/-- Remove a connection from the graph; answers whether there was one of the id. -/
def removeConnection (engine : Engine) (id : String) : Except Failure Bool × Engine :=
  match engine.bench with
  | .error failure => (.error failure, engine)
  | .ok bench =>
      match bench.removeConnection id with
      | (.error failure, bench) => (.error failure, engine.withBench bench)
      | (.ok true, bench) => (.ok true, (engine.withBench bench).forget)
      | (.ok false, bench) => (.ok false, engine.withBench bench)

end Engine

end CardNet
