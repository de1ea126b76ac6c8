import CardNet.Engine.Run
import CardNet.Engine.Service

/-!
# Workers

The steps of callers, tickers and couriers, and with them the step of any worker of a machine
(`Machine.step`). A worker that is held up has no step. An order in which workers take their
steps is not laid down here: whatever holds after every step of every worker holds in all
orders.
-/

namespace CardNet

namespace Machine

/-- Whether the ticker that can be stopped has not ended. -/
def isTicking (machine : Machine) : Bool :=
  match machine.ticker.bind machine.workers.get? with
  | some (.ticker ticker) =>
      match ticker.stage with
      | .ended => false
      | _ => true
  | _ => false

/-- Tell the ticker to stop. A run that it has begun is not given up. -/
def stopTicker (machine : Machine) : Machine :=
  match machine.ticker with
  | none => machine
  | some number =>
      let machine := { machine with ticker := none }
      match machine.workers.get? number with
      | some (.ticker ticker) =>
          machine.setWorker number (.ticker { ticker with stopped := true })
      | _ => machine

/-- Start a ticker, unless the present one has not ended; answers whether it was started. Without
an interval the one of the settings is taken; none is shorter than a millisecond. -/
def startTicker (machine : Machine) (interval : Option Nat) (inputs : Values) :
    Bool × Machine :=
  if machine.isTicking then (false, machine)
  else
    let interval := max (interval.getD machine.engine.config.interval) 1
    let ticker : Ticker := ⟨interval, inputs, machine.clock, false, 0, .waiting⟩
    let (number, machine) := machine.enlist (.ticker ticker)
    (true, { machine with ticker := some number })

/-- Dismiss a courier. -/
def dismiss (machine : Machine) (number : Option Nat) : Machine :=
  match number.bind fun number => (machine.workers.get? number).map fun held => (number, held) with
  | some (number, .courier courier) =>
      machine.setWorker number (.courier { courier with dismissed := true })
  | _ => machine

/-- Let a courier join that delivers the events of a channel. -/
def assign (machine : Machine) (channel : Nat) : Machine :=
  let (number, machine) := machine.enlist (.courier ⟨channel, false, .waiting⟩)
  { machine with courier := some number }

/-! ## Callers -/

/-- Begin a call. -/
def beginCall (machine : Machine) : Call → CallStage × Machine
  | .build config cards globals => (.building config cards globals false, machine)
  | .restart config cards globals => (.building config cards globals true, machine.stopTicker)
  | .exec inputs force => (.running (.arriving inputs force) false, machine)
  | .executeNode id inputs => (.resolving id inputs, machine)
  | .setInput place value => (.requesting (Task.userInput place value), machine)
  | .rewire change => (.rewiring change, machine)
  | .look => (.looking, machine)
  | .discard => (.closingDown, machine.stopTicker)
  | .pause 0 => (.answered (.ok .done), machine)
  | .pause milliseconds => (.pausing (machine.clock + milliseconds), machine)

/-- Build a graph inside the run gate. -/
def buildGraph (config : GraphConfig) (cards : List Card) (globals : Option Values)
    (restart : Bool) (machine : Machine) : CallStage × Machine :=
  let (result, engine) := machine.engine.build config cards globals
  let machine := { machine with engine := engine }
  match result with
  | .error failure => (.leaving (.error failure) false, machine)
  | .ok graph => (.installing graph restart, machine)

/-- Take a graph over inside the graph gate. -/
def installGraph (worker : Nat) (graph : Graph) (restart : Bool) (machine : Machine) :
    CallStage × Machine :=
  let ((), machine) := machine.within worker fun engine => ((), engine.install graph)
  (.assigning graph restart, machine)

/-- Find out inside the graph gate what to request for a node. -/
def resolveNode (worker : Nat) (id : String) (inputs : Values) (machine : Machine) :
    CallStage × Machine :=
  let (request, machine) := machine.within worker fun engine =>
    (engine.nodeRequest id inputs, engine)
  match request with
  | .error failure => (.answered (.error failure), machine)
  | .ok request => (.requesting request, machine)

/-- Change a connection of the graph. -/
def rewire (engine : Engine) : Rewiring → Except Failure Answer × Engine
  | .add connection =>
      let (result, engine) := engine.addConnection connection
      (result.map Answer.id, engine)
  | .remove id =>
      let (result, engine) := engine.removeConnection id
      (result.map Answer.flag, engine)

/-- Change a connection inside the graph gate. -/
def splice (worker : Nat) (change : Rewiring) (machine : Machine) : CallStage × Machine :=
  let (result, machine) := machine.within worker fun engine => rewire engine change
  (.leaving result false, machine)

/-- Give up the graph inside the graph gate. -/
def clear (worker : Nat) (machine : Machine) : CallStage × Machine :=
  let ((), machine) := machine.within worker fun engine => ((), engine.discard)
  (.leaving (.ok .done) false, machine)

/-- Look at the graph inside the graph gate. -/
def pass (worker : Nat) (machine : Machine) : CallStage × Machine :=
  (.answered (.ok .done), machine.leaveGraph worker)

/-- Send the request of a call. -/
def requestTask (machine : Machine) (request : Request Task) : CallStage × Machine :=
  match machine.send request with
  | (.error failure, machine) => (.answered (.error failure), machine)
  | (.ok ticket, machine) => (.awaiting ticket, machine)

/-- Go on after a step of the run of a call. -/
def afterRun (machine : Machine) (restart : Bool) : RunStage → CallStage × Machine
  | .over (.error failure) => (.answered (.error failure), machine)
  | .over (.ok outputs) =>
      let machine := if restart then (machine.startTicker none ∅).2 else machine
      (.answered (.ok (.outputs outputs)), machine)
  | stage => (.running stage restart, machine)

/-- Leave the run gate, and go on with a run where the graph was built to be run. -/
def endBuild (machine : Machine) (worker : Nat) (result : Except Failure Answer)
    (restart : Bool) : CallStage × Machine :=
  let machine := machine.leaveRun worker
  if restart then (.running (.arriving ∅ true) true, machine) else (.answered result, machine)

/-- One step of a call, if it is not held up and not answered. -/
def stepCall (machine : Machine) (worker : Nat) (stage : CallStage) :
    Option (CallStage × Machine) :=
  match stage with
  | .fresh call => some (machine.beginCall call)
  | .building config cards globals restart =>
      machine.atRunGate worker stage (buildGraph config cards globals restart)
  | .installing graph restart =>
      machine.atGraphGate worker stage (installGraph worker graph restart)
  | .assigning graph restart =>
      some (.dismissing machine.courier graph.report restart, machine.assign graph.channel)
  | .dismissing old report restart =>
      some (.leaving (.ok (.report report)) restart, machine.dismiss old)
  | .running run restart =>
      (machine.stepRun worker run).map fun (run, machine) => machine.afterRun restart run
  | .resolving id inputs => machine.atGraphGate worker stage (resolveNode worker id inputs)
  | .requesting request => some (machine.requestTask request)
  | .awaiting ticket =>
      (machine.scheduler.result? ticket).map fun result =>
        (.answered (result.map Answer.value), machine)
  | .rewiring change =>
      machine.atRunGate worker stage fun machine => (.splicing change, machine)
  | .splicing change => machine.atGraphGate worker stage (splice worker change)
  | .closingDown =>
      let dismissed := machine.dismiss machine.courier
      some (.discarding, { dismissed with courier := none })
  | .discarding => machine.atRunGate worker stage fun machine => (.clearing, machine)
  | .clearing => machine.atGraphGate worker stage (clear worker)
  | .looking => machine.atGraphGate worker stage (pass worker)
  | .pausing wake => machine.whenDue wake (.answered (.ok .done), machine)
  | .leaving result restart => some (machine.endBuild worker result restart)
  | .answered _ => none

/-! ## Tickers -/

/-- How many milliseconds a tick may be late without moving the ticks after it. -/
def leeway : Nat := 5

/-- The time of the tick after one that was due at some time. -/
def nextTick (now due interval : Nat) : Nat :=
  if due + leeway < now then now + interval else due + interval

/-- Go on after a step of the run of a ticker. -/
def afterTick (ticker : Ticker) : RunStage → Ticker
  | .over (.ok _) => { ticker with ticks := ticker.ticks + 1, stage := .waiting }
  | .over (.error _) => { ticker with stage := .ended }
  | stage => { ticker with stage := .running stage }

/-- One step of a ticker, if it is not held up and has not ended. A ticker that was told to stop
ends before its next run. -/
def stepTicker (machine : Machine) (worker : Nat) (ticker : Ticker) :
    Option (Ticker × Machine) :=
  match ticker.stage with
  | .waiting =>
      if ticker.stopped then some ({ ticker with stage := .ended }, machine)
      else if ticker.due ≤ machine.clock then
        let due := nextTick machine.clock ticker.due ticker.interval
        let stage := .running (.arriving ticker.inputs false)
        some ({ ticker with due := due, stage := stage }, machine)
      else none
  | .running run =>
      (machine.stepRun worker run).map fun (run, machine) => (afterTick ticker run, machine)
  | .ended => none

/-! ## Couriers -/

/-- Fetch the oldest event from a channel. -/
def fetch (machine : Machine) (channel : Nat) : Option (String × Machine) :=
  match (machine.engine.board.channel channel).mail with
  | [] => none
  | (place, _) :: mail =>
      let board := machine.engine.board.modifyChannel channel fun held => { held with mail := mail }
      some (place, { machine with engine := { machine.engine with board := board } })

/-- Go on after a step of the run of a courier. -/
def afterDelivery : RunStage → CourierStage
  | .over _ => .waiting
  | stage => .running stage

/-- One step of a courier that was dismissed: it leaves both gates, one after the other. -/
def withdraw (machine : Machine) (worker : Nat) : CourierStage → Option (CourierStage × Machine)
  | .ended => none
  | .withdrawing => some (.ended, machine.leaveRun worker)
  | _ => some (.withdrawing, machine.leaveGraph worker)

/-- One step of a courier at work, if it is not held up. -/
def deliver (machine : Machine) (worker channel : Nat) :
    CourierStage → Option (CourierStage × Machine)
  | .waiting => (machine.fetch channel).map fun (place, machine) => (.reporting place, machine)
  | .reporting place =>
      match machine.send (Task.eventRecord place) with
      | (.error _, machine) => some (.waiting, machine)
      | (.ok ticket, machine) => some (.recording ticket, machine)
  | .recording ticket =>
      (machine.scheduler.result? ticket).map fun result =>
        match result with
        | .ok _ => (.running (.arriving ∅ true), machine)
        | .error _ => (.waiting, machine)
  | .running run =>
      (machine.stepRun worker run).map fun (run, machine) => (afterDelivery run, machine)
  | .withdrawing | .ended => none

/-- One step of a courier. -/
def stepCourier (machine : Machine) (worker : Nat) (courier : Courier) :
    Option (Courier × Machine) :=
  let moved :=
    if courier.dismissed then machine.withdraw worker courier.stage
    else machine.deliver worker courier.channel courier.stage
  moved.map fun (stage, machine) => ({ courier with stage := stage }, machine)

/-! ## All workers -/

/-- One step of a worker, if there is such a worker and it is not held up. -/
def step (machine : Machine) (number : Nat) : Option Machine :=
  if number = server then machine.stepServer
  else
    match machine.workers.get? number with
    | none => none
    | some (.caller stage) =>
        (machine.stepCall number stage).map fun (stage, machine) =>
          machine.setWorker number (.caller stage)
    | some (.ticker ticker) =>
        (machine.stepTicker number ticker).map fun (ticker, machine) =>
          machine.setWorker number (.ticker ticker)
    | some (.courier courier) =>
        (machine.stepCourier number courier).map fun (courier, machine) =>
          machine.setWorker number (.courier courier)

/-- Whether a worker has a step. -/
def canStep (machine : Machine) (number : Nat) : Bool := (machine.step number).isSome

end Machine

end CardNet
