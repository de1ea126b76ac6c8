import CardNet.Engine.Machine

/-!
# Service

How worker zero serves the requests of the scheduler. All tasks but runs of plans are done
inside the graph gate; a firing keeps the gate until its action has ended, and a card without
inputs is called outside of it. A request that is held up for too long is given up: its firing is
taken back and the gate left (`Machine.giveUp`). A request that can go on is never given up, so
one that ends just in time still succeeds.
-/

namespace CardNet

namespace Machine

/-- End a task outside the graph gate. -/
def endTask (machine : Machine) (result : Except Failure Value) : Progress × Machine :=
  (.ended result, machine.leaveGraph server)

/-- Begin to fire a transition inside the graph gate. -/
def beginFiring (machine : Machine) (bench : Bench) (transition : String)
    (answer : Option Value) : Progress × Machine :=
  match machine.engine.launch bench transition with
  | .error failure => machine.endTask (.error failure)
  | .ok (flight, engine) =>
      (.firing flight (machine.clock + flight.job.delay) answer, { machine with engine := engine })

/-- Begin the work of a node inside the graph gate. -/
def beginNode (machine : Machine) (bench : Bench) (id : String) (inputs : Values) :
    Progress × Machine :=
  match bench.nodeWork id inputs with
  | .error failure => machine.endTask (.error failure)
  | .ok (.fire transition) => machine.beginFiring bench transition none
  | .ok (.answer value) => machine.endTask (.ok value)
  | .ok (.visit card globals) =>
      (.visiting card globals (machine.clock + card.delay), machine.leaveGraph server)

/-- Begin a task inside the graph gate. -/
def beginTask (machine : Machine) (bench : Bench) : Task → Progress × Machine
  | .fire transition =>
      if bench.graph.net.isEnabled transition then
        machine.beginFiring bench transition (some (.bool true))
      else machine.endTask (.ok (.bool false))
  | .walk plan inputs => (.walking plan.steps inputs, machine.leaveGraph server)
  | .node id inputs => machine.beginNode bench id inputs
  | .input place value =>
      let (result, engine) := machine.engine.setPlace place value
      { machine with engine := engine }.endTask result
  | .event place =>
      let (result, engine) := machine.engine.noteEvent place
      { machine with engine := engine }.endTask result

/-- Begin a task inside the graph gate, if there is a graph. -/
def enterTask (task : Task) (machine : Machine) : Progress × Machine :=
  match machine.engine.bench with
  | .error failure => machine.endTask (.error failure)
  | .ok bench => machine.beginTask bench task

/-- End a firing. -/
def landFiring (machine : Machine) (flight : Flight) (answer : Option Value) :
    Progress × Machine :=
  let (result, engine) := machine.engine.land flight
  { machine with engine := engine }.endTask (result.map answer.getD)

/-- Take the next step of a plan. -/
def walkOn (machine : Machine) (results : Values) : List PlanStep → Progress × Machine
  | [] => (.ended (.ok (.ofValues results)), machine)
  | .act id action :: steps =>
      let (job, board) := action.begin [] machine.engine.board
      (.acting id job (machine.clock + job.delay) steps results,
        { machine with engine := { machine.engine with board := board } })
  | .read id content :: steps =>
      match content.value? machine.engine.board with
      | some value => (.walking steps (results.insert id value), machine)
      | none => (.walking steps results, machine)

/-- End a step of a plan. -/
def endStep (machine : Machine) (id : String) (job : Job) (steps : List PlanStep)
    (results : Values) : Progress × Machine :=
  let (result, board) := job.finish machine.engine.board
  let machine := { machine with engine := { machine.engine with board := board } }
  match result with
  | .ok value => (.walking steps (results.insert id value), machine)
  | .error message => (.ended (.error (.firing (.actionFailed id message))), machine)

/-- Call a card without inputs. -/
def endVisit (machine : Machine) (card : Card) (globals : Values) : Progress × Machine :=
  let (result, engine) := machine.engine.visit card globals
  (.ended result, { machine with engine := engine })

/-- Do something when its time has come. -/
def whenDue {α : Type} (machine : Machine) (wake : Nat) (work : α) : Option α :=
  if wake ≤ machine.clock then some work else none

/-- One step of the task that is served, if it is not held up and not over. -/
def workOn (machine : Machine) : Progress → Option (Progress × Machine)
  | .fresh (.walk plan inputs) => some (.walking plan.steps inputs, machine)
  | .fresh task => machine.atGraphGate server (.fresh task) (enterTask task)
  | .firing flight wake answer => machine.whenDue wake (machine.landFiring flight answer)
  | .walking steps results => some (machine.walkOn results steps)
  | .acting id job wake steps results =>
      machine.whenDue wake (machine.endStep id job steps results)
  | .visiting card globals wake => machine.whenDue wake (machine.endVisit card globals)
  | .ended _ => none

/-- Give up the task that is served. -/
def giveUp (machine : Machine) (service : Service Progress) : Progress × Machine :=
  let engine :=
    match service.progress with
    | .firing flight _ _ => machine.engine.callOff flight
    | _ => machine.engine
  { machine with engine := engine }.endTask (.error (machine.scheduler.overdue service))

/-- Note how far the task that is served has come. -/
def proceed (moved : Progress × Machine) : Machine :=
  { moved.2 with scheduler := moved.2.scheduler.proceed moved.1 }

/-- One step of the service of a request. -/
def stepService (machine : Machine) (service : Service Progress) : Option Machine :=
  match service.progress with
  | .ended result =>
      some { machine with scheduler := machine.scheduler.conclude result }
  | progress =>
      match machine.workOn progress with
      | some moved => some (proceed moved)
      | none =>
          if service.isOverdue machine.clock then some (proceed (machine.giveUp service))
          else none

/-- One step of worker zero: of the service of a request, or to the next request. -/
def stepServer (machine : Machine) : Option Machine :=
  match machine.scheduler.service with
  | some service => machine.stepService service
  | none =>
      (machine.scheduler.turn Progress.fresh machine.clock).map fun scheduler =>
        { machine with scheduler := scheduler }

end Machine

end CardNet
