import CardNet.Engine.Basic
import CardNet.Schedule.Scheduler

/-!
# Tasks of an engine

All work on the circuit of an engine is done by tasks, which are requested from a scheduler:
firings of a run, runs of a plan, and, for callers, the work of a single node, the input of a
value and the record of an event. `Engine.perform` does a task from beginning to end within a
time limit.
-/

namespace CardNet

/-- A piece of work on an engine. -/
inductive Task where
  /-- Fire a transition if it may fire; answers whether it did. -/
  | fire (transition : String)
  /-- Run a plan; answers with its results. -/
  | walk (plan : Plan) (inputs : Values)
  /-- Do what a node stands for. -/
  | node (id : String) (inputs : Values)
  /-- Set the value of a place. -/
  | input (place : String) (value : Value)
  /-- Note an event on its place. -/
  | event (place : String)

namespace Task

/-- The request of a firing in a run. -/
def firing (transition : String) : Request Task := ⟨transition, .normal, .fire transition⟩

/-- The request to run the plan of all entry places. -/
def planRun (plan : Plan) (inputs : Values) : Request Task :=
  ⟨"compiled_plan", .normal, .walk plan inputs⟩

/-- The request to run the plan of one entry place in the background. -/
def pathRun (plan : Plan) (inputs : Values) : Request Task :=
  ⟨s!"compiled_{plan.entry}", .low, .walk plan inputs⟩

/-- The request to do in the background what a node stands for. -/
def nodeRun (id : String) (inputs : Values) : Request Task := ⟨id, .low, .node id inputs⟩

/-- The request to set the value of a place ahead of other work. -/
def userInput (place : String) (value : Value) : Request Task :=
  ⟨s!"input_{place}", .high, .input place value⟩

/-- The request to note an event ahead of other work. -/
def eventRecord (place : String) : Request Task := ⟨s!"event_{place}", .high, .event place⟩

end Task

/-- What is done for a node. -/
inductive NodeWork where
  /-- Fire the transition. -/
  | fire (transition : String)
  /-- Call a card without inputs with these globals. -/
  | visit (card : Card) (globals : Values)
  /-- Answer with a value. -/
  | answer (value : Value)

namespace Bench

/-- What is done for a node: a transition fires, a start place calls its card, and every other
place answers with its value. -/
def nodeWork (bench : Bench) (id : String) (inputs : Values) : Except Failure NodeWork :=
  let net := bench.graph.net
  if net.transitions.contains id then .ok (.fire id)
  else
    match net.place? id with
    | none => .error (.net (.unknownNode id))
    | some place =>
        match place.content with
        | some (.trigger card) =>
            .ok (.visit card (bench.graph.mergeGlobals bench.board inputs))
        | some content => .ok (.answer ((content.value? bench.board).getD .null))
        | none => .ok (.answer .null)

/-- Set the value of a place. -/
def setPlace (bench : Bench) (id : String) (value : Value) : Except Failure Unit × Bench :=
  match bench.graph.net.place? id with
  | none => (.error (.net (.unknownNode id)), bench)
  | some place =>
      match place.content.map fun content => content.setValue value bench.board with
      | some (true, board) => (.ok (), { bench with board := board })
      | _ => (.error (.noInput id), bench)

/-- Note an event on its place. -/
def noteEvent (bench : Bench) (place : String) : Except Failure Unit × Bench :=
  match bench.recordEvent place with
  | (true, bench) => (.ok (), bench)
  | (false, bench) => (.error (.net (.unknownNode place)), bench)

end Bench

namespace Engine

/-- Begin to fire a transition of the graph. -/
def launch (engine : Engine) (bench : Bench) (transition : String) :
    Except Failure (Flight × Engine) :=
  match bench.graph.net.launch bench.board transition [] with
  | .error error => .error (.firing error)
  | .ok (flight, net, board) => .ok (flight, engine.withCircuit net board)

/-- End a firing. -/
def land (engine : Engine) (flight : Flight) : Except Failure Value × Engine :=
  match engine.bench with
  | .error failure => (.error failure, engine)
  | .ok bench =>
      let (result, net, board) := bench.graph.net.land bench.board flight
      (result.mapError Failure.firing, engine.withCircuit net board)

/-- Give a firing up. -/
def callOff (engine : Engine) (flight : Flight) : Engine :=
  match engine.graph with
  | none => engine
  | some graph => engine.withCircuit (graph.net.callOff flight) engine.board

/-- Call a card without inputs. -/
def visit (engine : Engine) (card : Card) (globals : Values) : Except Failure Value × Engine :=
  let (result, board) := card.call none (some globals) engine.board
  (result.mapError (Failure.card card.id), { engine with board := board })

/-- Set the value of a place of the graph. -/
def setPlace (engine : Engine) (id : String) (value : Value) : Except Failure Value × Engine :=
  match engine.bench with
  | .error failure => (.error failure, engine)
  | .ok bench =>
      let (result, bench) := bench.setPlace id value
      (result.map fun () => .null, engine.withBench bench)

/-- Note an event on its place in the graph. -/
def noteEvent (engine : Engine) (place : String) : Except Failure Value × Engine :=
  match engine.bench with
  | .error failure => (.error failure, engine)
  | .ok bench =>
      let (result, bench) := bench.noteEvent place
      (result.map fun () => .null, engine.withBench bench)

/-- The request that does the work of a node: an entry place that has a plan of its own runs
it. -/
def nodeRequest (engine : Engine) (id : String) (inputs : Values) :
    Except Failure (Request Task) :=
  engine.bench.map fun bench =>
    match bench.graph.paths.get? id with
    | some plan => Task.pathRun plan inputs
    | none => Task.nodeRun id inputs

/-- Fire a transition within a time limit; nothing when it is given up. -/
def fireWithin (engine : Engine) (bench : Bench) (limit : Option Nat) (transition : String) :
    Option (Except Failure Value) × Engine :=
  match engine.launch bench transition with
  | .error failure => (some (.error failure), engine)
  | .ok (flight, engine) =>
      if fits limit flight.job.delay then
        let (result, engine) := engine.land flight
        (some result, engine)
      else (none, engine.callOff flight)

/-- Fire a transition that may fire within a time limit; answers whether it may. -/
def fireEnabled (engine : Engine) (bench : Bench) (limit : Option Nat) (transition : String) :
    Option (Except Failure Value) × Engine :=
  if bench.graph.net.isEnabled transition then
    let (result, engine) := engine.fireWithin bench limit transition
    (result.map fun result => result.map fun _ => .bool true, engine)
  else (some (.ok (.bool false)), engine)

/-- Do the work of a node within a time limit. -/
def performNode (engine : Engine) (bench : Bench) (limit : Option Nat) (id : String)
    (inputs : Values) : Option (Except Failure Value) × Engine :=
  match bench.nodeWork id inputs with
  | .error failure => (some (.error failure), engine)
  | .ok (.fire transition) => engine.fireWithin bench limit transition
  | .ok (.answer value) => (some (.ok value), engine)
  | .ok (.visit card globals) =>
      if fits limit card.delay then
        let (result, engine) := engine.visit card globals
        (some result, engine)
      else (none, engine)

/-- The end of the run of a plan as the end of a task. -/
def ofWalk : Walk → Option (Except Failure Value)
  | .finished results => some (.ok (.ofValues results))
  | .failed error => some (.error (.firing error))
  | .dropped => none

/-- Do a task from beginning to end within a time limit; nothing when it is given up. -/
def perform (engine : Engine) (limit : Option Nat) :
    Task → Option (Except Failure Value) × Engine
  | .fire transition =>
      match engine.bench with
      | .error failure => (some (.error failure), engine)
      | .ok bench => engine.fireEnabled bench limit transition
  | .walk plan inputs =>
      let (walk, board) := plan.run limit inputs engine.board
      (ofWalk walk, { engine with board := board })
  | .node id inputs =>
      match engine.bench with
      | .error failure => (some (.error failure), engine)
      | .ok bench => engine.performNode bench limit id inputs
  | .input place value =>
      let (result, engine) := engine.setPlace place value
      (some result, engine)
  | .event place =>
      let (result, engine) := engine.noteEvent place
      (some result, engine)

end Engine

end CardNet
