import CardNet.Engine.Gate
import CardNet.Engine.Task

/-!
# Machines

A machine is an engine that many workers share. A worker does its work in stages, and a stage is
what it does between two moments at which others may go on: waiting for a gate, for the answer
to a request, or for a time. Worker zero serves the requests of the scheduler; the others are
callers, tickers that run the graph at an interval, and couriers that deliver the events of a
graph.

Two gates keep workers apart. The run gate is held for a whole run and for everything that
replaces or edits the graph; the graph gate is held while the graph is looked at or changed, and
for a whole firing. Whoever needs both takes the run gate first.
-/

namespace CardNet

/-- How far the task that is being served has come. -/
inductive Progress where
  /-- Not begun. -/
  | fresh (task : Task)
  /-- A transition fires until a time; `answer` is the answer on success, when it is not the
  value of the action. -/
  | firing (flight : Flight) (wake : Nat) (answer : Option Value)
  /-- A plan is followed: the steps that are left and the results so far. -/
  | walking (steps : List PlanStep) (results : Values)
  /-- A step of a plan acts until a time. -/
  | acting (id : String) (job : Job) (wake : Nat) (steps : List PlanStep) (results : Values)
  /-- A card without inputs is called at a time. -/
  | visiting (card : Card) (globals : Values) (wake : Nat)
  /-- Over, but for the answer. -/
  | ended (result : Except Failure Value)

/-- The stages of a run. From `opening` to `leaving` the worker holds the run gate. -/
inductive RunStage where
  /-- Before the run gate. -/
  | arriving (inputs : Values) (force : Bool)
  /-- Before the graph gate, to open the run. -/
  | opening (inputs : Values) (force : Bool)
  /-- Before the graph gate, to list the transitions of the next pass. -/
  | listing (inputs : Values) (fired : Nat)
  /-- In a pass: the transitions that are still to be tried. -/
  | passing (inputs : Values) (fired : Nat) (progressed : Bool) (rest : List String)
  /-- Waiting for the answer of a firing. -/
  | firing (inputs : Values) (fired : Nat) (progressed : Bool) (rest : List String)
      (ticket : Nat)
  /-- Before the graph gate, to look for the plan. -/
  | planning (inputs : Values)
  /-- About to request the run of the plan. -/
  | planned (inputs : Values) (plan : Plan)
  /-- Waiting for the results of the plan. -/
  | walking (inputs : Values) (ticket : Nat)
  /-- Before the graph gate, to close the run. -/
  | closing (inputs : Values) (results : Option Values)
  /-- About to leave the run gate. -/
  | leaving (result : Except Failure Values)
  | over (result : Except Failure Values)

/-- A change of the connections of a graph. -/
inductive Rewiring where
  | add (connection : Connection)
  | remove (id : String)

/-- What a caller asks for. -/
inductive Call where
  /-- Build a graph and take it over. -/
  | build (config : GraphConfig) (cards : List Card) (globals : Option Values)
  /-- Stop the ticker, build a graph, run it, and start a ticker. -/
  | restart (config : GraphConfig) (cards : List Card) (globals : Option Values)
  | exec (inputs : Values) (force : Bool)
  | executeNode (id : String) (inputs : Values)
  | setInput (place : String) (value : Value)
  | rewire (change : Rewiring)
  /-- Pass the graph gate, to look at the graph. -/
  | look
  /-- Stop the ticker and the courier, then give up the graph. -/
  | discard
  /-- Let time pass. -/
  | pause (milliseconds : Nat)

/-- What a call is answered with. -/
inductive Answer where
  | report (report : Report)
  | outputs (outputs : Values)
  | value (value : Value)
  | id (id : String)
  | flag (flag : Bool)
  | done

/-- The stages of a call. -/
inductive CallStage where
  /-- Not begun. -/
  | fresh (call : Call)
  /-- Before the run gate, to build a graph; `restart` when it is run afterwards. -/
  | building (config : GraphConfig) (cards : List Card) (globals : Option Values)
      (restart : Bool)
  /-- With a graph before the graph gate, to take it over. -/
  | installing (graph : Graph) (restart : Bool)
  /-- About to replace the courier by one for the graph. -/
  | assigning (graph : Graph) (restart : Bool)
  /-- About to dismiss the courier of the old graph. -/
  | dismissing (old : Option Nat) (report : Report) (restart : Bool)
  /-- A run; `restart` when a ticker is started afterwards. -/
  | running (stage : RunStage) (restart : Bool)
  /-- Before the graph gate, to find out what a node stands for. -/
  | resolving (id : String) (inputs : Values)
  /-- About to request a task. -/
  | requesting (request : Request Task)
  /-- Waiting for the answer to a request. -/
  | awaiting (ticket : Nat)
  /-- Before the run gate, to change a connection. -/
  | rewiring (change : Rewiring)
  /-- Before the graph gate, to change a connection. -/
  | splicing (change : Rewiring)
  /-- About to dismiss the courier, then to give up the graph. -/
  | closingDown
  /-- Before the run gate, to give up the graph. -/
  | discarding
  /-- Before the graph gate, to give up the graph. -/
  | clearing
  | looking
  | pausing (wake : Nat)
  /-- About to leave the run gate, and to run the graph when `restart` holds. -/
  | leaving (result : Except Failure Answer) (restart : Bool)
  | answered (result : Except Failure Answer)

/-- The stages of a ticker. -/
inductive TickStage where
  /-- Waiting for the next tick. -/
  | waiting
  | running (stage : RunStage)
  | ended

/-- A worker that runs the graph at an interval, up to the first failure. -/
structure Ticker where
  interval : Nat
  inputs : Values
  /-- The time of the next tick. -/
  due : Nat
  /-- Whether the ticker was told to stop. -/
  stopped : Bool
  /-- The number of runs that succeeded. -/
  ticks : Nat
  stage : TickStage

/-- The stages of a courier. -/
inductive CourierStage where
  /-- Waiting for an event. -/
  | waiting
  /-- About to request the record of an event. -/
  | reporting (place : String)
  /-- Waiting for the record of an event. -/
  | recording (ticket : Nat)
  | running (stage : RunStage)
  /-- Dismissed, and out of the graph gate. -/
  | withdrawing
  | ended

/-- A worker that delivers the events of a graph one by one: it has each recorded, then runs the
graph. -/
structure Courier where
  /-- The channel at which the events come in. -/
  channel : Nat
  /-- Whether the courier was dismissed. -/
  dismissed : Bool
  stage : CourierStage

/-- A worker other than worker zero. -/
inductive Worker where
  | caller (stage : CallStage)
  | ticker (ticker : Ticker)
  | courier (courier : Courier)

/-- An engine that many workers share. -/
structure Machine where
  engine : Engine
  scheduler : Scheduler Task Progress
  runGate : Gate
  graphGate : Gate
  clock : Nat
  workers : Std.ExtTreeMap Nat Worker
  /-- The ticker that can still be stopped. -/
  ticker : Option Nat
  /-- The courier of the present graph. -/
  courier : Option Nat
  nextWorker : Nat

namespace Machine

/-- The worker that serves the requests of the scheduler. -/
def server : Nat := 0

/-- A machine without a graph. -/
def idle (config : EngineConfig) (board : Board) : Machine where
  engine := .idle config board
  scheduler := .fresh config.taskTimeout
  runGate := .free
  graphGate := .free
  clock := 0
  workers := ∅
  ticker := none
  courier := none
  nextWorker := server + 1

/-- Let a worker join; answers with its number. -/
def enlist (machine : Machine) (worker : Worker) : Nat × Machine :=
  let number := machine.nextWorker
  (number, { machine with
    workers := machine.workers.insert number worker
    nextWorker := number + 1 })

/-- Put a worker into a new state. -/
def setWorker (machine : Machine) (number : Nat) (worker : Worker) : Machine :=
  { machine with workers := machine.workers.insert number worker }

/-- Leave the run gate. -/
def leaveRun (machine : Machine) (worker : Nat) : Machine :=
  { machine with runGate := machine.runGate.leave worker }

/-- Leave the graph gate. -/
def leaveGraph (machine : Machine) (worker : Nat) : Machine :=
  { machine with graphGate := machine.graphGate.leave worker }

/-- What a worker does at the run gate: with the gate it does its work, without it it stands in
line in its present stage, and in line already it does nothing. -/
def atRunGate {φ : Type} (machine : Machine) (worker : Nat) (stage : φ)
    (work : Machine → φ × Machine) : Option (φ × Machine) :=
  let gate := machine.runGate.claim worker
  if gate.holder? = some worker then some (work { machine with runGate := gate })
  else if gate = machine.runGate then none
  else some (stage, { machine with runGate := gate })

/-- What a worker does at the graph gate. -/
def atGraphGate {φ : Type} (machine : Machine) (worker : Nat) (stage : φ)
    (work : Machine → φ × Machine) : Option (φ × Machine) :=
  let gate := machine.graphGate.claim worker
  if gate.holder? = some worker then some (work { machine with graphGate := gate })
  else if gate = machine.graphGate then none
  else some (stage, { machine with graphGate := gate })

/-- Work on the engine inside the graph gate, and leave the gate. -/
def within {α : Type} (machine : Machine) (worker : Nat) (work : Engine → α × Engine) :
    α × Machine :=
  let (result, engine) := work machine.engine
  (result, { machine with engine := engine }.leaveGraph worker)

/-- Send a request; answers with its ticket. -/
def send (machine : Machine) (request : Request Task) : Except Failure Nat × Machine :=
  match machine.scheduler.send request with
  | .error failure => (.error failure, machine)
  | .ok (ticket, scheduler) => (.ok ticket, { machine with scheduler := scheduler })

end Machine

end CardNet
