import CardNet.Proofs.Engine.Advances

/-!
# What worker zero does in a step

A task that is served is begun inside the graph gate, where it fires a transition or does its work
at once (`Task.Works`); a firing is ended later, and a plan is followed step by step
(`Progress.Advances`). Worker zero takes up a request, goes on with it, gives it up or answers it
(`Machine.Tends`). Whatever it does for a request changes the engine and the graph gate alone
(`Machine.Serves`).
-/

namespace CardNet

/-! ## Tasks -/

namespace Task

/-- The transition that a task fires, and its answer on success when that is not the value of the
action. -/
inductive Fires (bench : Bench) : Task → String → Option Value → Prop where
  | fire {transition : String} : bench.graph.net.isEnabled transition = true →
      Fires bench (.fire transition) transition (some (.bool true))
  | node {id transition : String} {inputs : Values} :
      bench.nodeWork id inputs = .ok (.fire transition) →
      Fires bench (.node id inputs) transition none

/-- What is done for a task inside the graph gate when no transition begins to fire: how far the
task has come then, and the engine then. -/
inductive Works (engine : Engine) (clock : Nat) : Task → Progress → Engine → Prop where
  | unbuilt {task : Task} : engine.graph = none →
      Works engine clock task (.ended (.error .notBuilt)) engine
  /-- A transition was to fire, but cannot. -/
  | grounded {task : Task} {transition : String} {answer : Option Value} {graph : Graph}
      {failure : Failure} : engine.graph = some graph →
      task.Fires ⟨graph, engine.board⟩ transition answer →
      engine.launch ⟨graph, engine.board⟩ transition = .error failure →
      Works engine clock task (.ended (.error failure)) engine
  | disabled {transition : String} {graph : Graph} : engine.graph = some graph →
      graph.net.isEnabled transition = false →
      Works engine clock (.fire transition) (.ended (.ok (.bool false))) engine
  | refused {id : String} {inputs : Values} {graph : Graph} {failure : Failure} :
      engine.graph = some graph →
      Bench.nodeWork ⟨graph, engine.board⟩ id inputs = .error failure →
      Works engine clock (.node id inputs) (.ended (.error failure)) engine
  | answered {id : String} {inputs : Values} {graph : Graph} {value : Value} :
      engine.graph = some graph →
      Bench.nodeWork ⟨graph, engine.board⟩ id inputs = .ok (.answer value) →
      Works engine clock (.node id inputs) (.ended (.ok value)) engine
  /-- A card is to be called outside of the gate. -/
  | visits {id : String} {inputs globals : Values} {graph : Graph} {card : Card} :
      engine.graph = some graph →
      Bench.nodeWork ⟨graph, engine.board⟩ id inputs = .ok (.visit card globals) →
      Works engine clock (.node id inputs) (.visiting card globals (clock + card.delay)) engine
  | sets {place : String} {value : Value} {graph : Graph} : engine.graph = some graph →
      Works engine clock (.input place value) (.ended (engine.setPlace place value).1)
        (engine.setPlace place value).2
  | notes {place : String} {graph : Graph} : engine.graph = some graph →
      Works engine clock (.event place) (.ended (engine.noteEvent place).1)
        (engine.noteEvent place).2

end Task

/-- What a step of the task that is served does: how far the task has come then, and the machine
then. -/
inductive Progress.Advances (machine : Machine) : Progress → Progress → Machine → Prop where
  /-- It stands in line at the graph gate. -/
  | queues {task : Task} :
      Advances machine (.fresh task) (.fresh task)
        { machine with graphGate := machine.graphGate.claim Machine.server }
  /-- A transition begins to fire; the gate is kept. -/
  | launches {task : Task} {transition : String} {answer : Option Value} {graph : Graph}
      {flight : Flight} {engine : Engine} :
      (machine.graphGate.claim Machine.server).holder? = some Machine.server →
      machine.engine.graph = some graph →
      task.Fires ⟨graph, machine.engine.board⟩ transition answer →
      machine.engine.launch ⟨graph, machine.engine.board⟩ transition = .ok (flight, engine) →
      Advances machine (.fresh task)
        (.firing flight (machine.clock + flight.job.delay) answer)
        { machine with engine := engine, graphGate := machine.graphGate.claim Machine.server }
  | works {task : Task} {next : Progress} {engine : Engine} :
      (machine.graphGate.claim Machine.server).holder? = some Machine.server →
      task.Works machine.engine machine.clock next engine →
      Advances machine (.fresh task) next
        { machine with
          engine := engine
          graphGate := (machine.graphGate.claim Machine.server).leave Machine.server }
  /-- A plan is set out on, outside of the gate. -/
  | departs {plan : Plan} {inputs : Values} :
      Advances machine (.fresh (.walk plan inputs)) (.walking plan.steps inputs) machine
  | lands {flight : Flight} {wake : Nat} {answer : Option Value} : wake ≤ machine.clock →
      Advances machine (.firing flight wake answer)
        (.ended ((machine.engine.land flight).1.map answer.getD))
        ({ machine with engine := (machine.engine.land flight).2 }.leaveGraph Machine.server)
  | arrives {results : Values} :
      Advances machine (.walking [] results) (.ended (.ok (.ofValues results))) machine
  | acts {id : String} {action : Action} {steps : List PlanStep} {results : Values} :
      Advances machine (.walking (.act id action :: steps) results)
        (.acting id (action.begin [] machine.engine.board).1
          (machine.clock + (action.begin [] machine.engine.board).1.delay) steps results)
        { machine with
          engine := { machine.engine with board := (action.begin [] machine.engine.board).2 } }
  | reads {id : String} {content : Content} {steps : List PlanStep} {results : Values}
      {value : Value} : content.value? machine.engine.board = some value →
      Advances machine (.walking (.read id content :: steps) results)
        (.walking steps (results.insert id value)) machine
  /-- A place without a value is passed over. -/
  | skips {id : String} {content : Content} {steps : List PlanStep} {results : Values} :
      content.value? machine.engine.board = none →
      Advances machine (.walking (.read id content :: steps) results) (.walking steps results)
        machine
  | acted {id : String} {job : Job} {wake : Nat} {steps : List PlanStep} {results : Values}
      {value : Value} {board : Board} : wake ≤ machine.clock →
      job.finish machine.engine.board = (.ok value, board) →
      Advances machine (.acting id job wake steps results)
        (.walking steps (results.insert id value))
        { machine with engine := { machine.engine with board := board } }
  | failed {id message : String} {job : Job} {wake : Nat} {steps : List PlanStep}
      {results : Values} {board : Board} : wake ≤ machine.clock →
      job.finish machine.engine.board = (.error message, board) →
      Advances machine (.acting id job wake steps results)
        (.ended (.error (.firing (.actionFailed id message))))
        { machine with engine := { machine.engine with board := board } }
  | visited {card : Card} {globals : Values} {wake : Nat} : wake ≤ machine.clock →
      Advances machine (.visiting card globals wake)
        (.ended (machine.engine.visit card globals).1)
        { machine with engine := (machine.engine.visit card globals).2 }

namespace Machine

variable {machine after : Machine}

/-- A task that fires a transition begins to, or fails. -/
theorem advances_beginFiring {task : Task} {transition : String} {answer : Option Value}
    {graph : Graph} (holds : (machine.graphGate.claim server).holder? = some server)
    (present : machine.engine.graph = some graph)
    (fires : task.Fires ⟨graph, machine.engine.board⟩ transition answer) {next : Progress}
    (begun : beginFiring { machine with graphGate := machine.graphGate.claim server }
      ⟨graph, machine.engine.board⟩ transition answer = (next, after)) :
    (Progress.fresh task).Advances machine next after := by
  simp only [beginFiring] at begun
  split at begun
  · next failure refused =>
      cases begun
      exact .works holds (.grounded present fires refused)
  · next flight engine launched =>
      cases begun
      exact .launches holds present fires launched

/-- A task that is no run of a plan is begun inside the graph gate. -/
theorem advances_enterTask {task : Task}
    (holds : (machine.graphGate.claim server).holder? = some server) {next : Progress}
    (aside : ∀ plan inputs, task ≠ .walk plan inputs)
    (entered : enterTask task { machine with graphGate := machine.graphGate.claim server } =
      (next, after)) :
    (Progress.fresh task).Advances machine next after := by
  simp only [enterTask] at entered
  cases present : machine.engine.graph with
  | none =>
      rw [Engine.bench, Engine.bench?, present] at entered
      cases entered
      exact .works holds (.unbuilt present)
  | some graph =>
      rw [Engine.bench_eq present] at entered
      cases task with
      | fire transition =>
          simp only [beginTask] at entered
          split at entered
          · next enabled => exact advances_beginFiring holds present (.fire enabled) entered
          · next disabled =>
              cases entered
              exact .works holds (.disabled present (Bool.eq_false_iff.mpr disabled))
      | walk plan inputs => exact absurd rfl (aside plan inputs)
      | node id inputs =>
          simp only [beginTask, beginNode] at entered
          split at entered
          · next failure refused =>
              cases entered
              exact .works holds (.refused present refused)
          · next transition worked =>
              exact advances_beginFiring holds present (.node worked) entered
          · next value worked =>
              cases entered
              exact .works holds (.answered present worked)
          · next card globals worked =>
              cases entered
              exact .works holds (.visits present worked)
      | input place value =>
          cases entered
          exact .works holds (.sets present)
      | event place =>
          cases entered
          exact .works holds (.notes present)

/-- A step of the task that is served does nothing but what is told of it. -/
theorem advances_workOn {progress next : Progress}
    (worked : machine.workOn progress = some (next, after)) :
    progress.Advances machine next after := by
  have entering : ∀ task, (∀ plan inputs, task ≠ Task.walk plan inputs) →
      machine.atGraphGate server (.fresh task) (enterTask task) = some (next, after) →
      (Progress.fresh task).Advances machine next after := by
    intro task aside entered
    rcases atGraphGate_cases entered with ⟨holds, same⟩ | same
    · exact advances_enterTask holds aside same.symm
    · cases same
      exact .queues
  cases progress with
  | fresh task =>
      cases task with
      | walk plan inputs =>
          cases worked
          exact .departs
      | fire | node | input | event => exact entering _ (fun _ _ => Task.noConfusion) worked
  | firing flight wake answer =>
      simp only [workOn, whenDue] at worked
      split at worked
      · next due =>
          cases worked
          exact .lands due
      · cases worked
  | walking steps results =>
      cases steps with
      | nil =>
          cases worked
          exact .arrives
      | cons step rest =>
          cases step with
          | act id action =>
              cases worked
              exact .acts
          | read id content =>
              simp only [workOn, walkOn] at worked
              split at worked
              · next value found =>
                  cases worked
                  exact .reads found
              · next missing =>
                  cases worked
                  exact .skips missing
  | acting id job wake steps results =>
      simp only [workOn, whenDue, endStep] at worked
      split at worked
      · next due =>
          rcases finished : job.finish machine.engine.board with ⟨message | value, board⟩
          · rw [finished] at worked
            cases worked
            exact .failed due finished
          · rw [finished] at worked
            cases worked
            exact .acted due finished
      · cases worked
  | visiting card globals wake =>
      simp only [workOn, whenDue] at worked
      split at worked
      · next due =>
          cases worked
          exact .visited due
      · cases worked
  | ended result => cases worked

/-! ## Requests -/

/-- What a step of worker zero does. -/
inductive Tends (machine : Machine) : Machine → Prop where
  /-- The next request is taken up, or none is left. -/
  | turns {scheduler : Scheduler Task Progress} : machine.scheduler.service = none →
      machine.scheduler.turn Progress.fresh machine.clock = some scheduler →
      Tends machine { machine with scheduler := scheduler }
  | answers {service : Service Progress} {result : Except Failure Value} :
      machine.scheduler.service = some service → service.progress = .ended result →
      Tends machine { machine with scheduler := machine.scheduler.conclude result }
  | works {service : Service Progress} {next : Progress} {middle : Machine} :
      machine.scheduler.service = some service →
      (∀ result, service.progress ≠ .ended result) →
      machine.workOn service.progress = some (next, middle) →
      Tends machine (proceed (next, middle))
  | givesUp {service : Service Progress} : machine.scheduler.service = some service →
      (∀ result, service.progress ≠ .ended result) → service.isOverdue machine.clock = true →
      Tends machine (proceed (machine.giveUp service))

/-- A step of worker zero does nothing but what is told of it. -/
theorem tends_stepServer (stepped : machine.stepServer = some after) : machine.Tends after := by
  rw [stepServer] at stepped
  cases served : machine.scheduler.service with
  | none =>
      rw [served] at stepped
      obtain ⟨scheduler, turned, rfl⟩ := Option.map_eq_some_iff.mp stepped
      exact .turns served turned
  | some service =>
      rw [served] at stepped
      dsimp only at stepped
      rw [stepService] at stepped
      split at stepped
      · next result ended =>
          cases stepped
          exact .answers served ended
      · next begun =>
          split at stepped
          · next moved worked =>
              cases stepped
              exact .works served begun worked
          · split at stepped
            · next overdue =>
                cases stepped
                exact .givesUp served begun overdue
            · cases stepped

end Machine

/-! ## What is left as it is -/

namespace Engine

theorem config_setPlace (engine : Engine) (place : String) (value : Value) :
    (engine.setPlace place value).2.config = engine.config := by
  rw [setPlace]
  split <;> rfl

theorem config_noteEvent (engine : Engine) (place : String) :
    (engine.noteEvent place).2.config = engine.config := by
  rw [noteEvent]
  split <;> rfl

theorem config_launch {engine after : Engine} {bench : Bench} {transition : String}
    {flight : Flight} (launched : engine.launch bench transition = .ok (flight, after)) :
    after.config = engine.config := by
  rw [launch] at launched
  split at launched
  · cases launched
  · cases launched
    rfl

theorem config_land (engine : Engine) (flight : Flight) :
    (engine.land flight).2.config = engine.config := by
  rw [land]
  split <;> rfl

theorem config_callOff (engine : Engine) (flight : Flight) :
    (engine.callOff flight).config = engine.config := by
  rw [callOff]
  split <;> rfl

end Engine

namespace Machine

variable {machine after : Machine}

/-- What the service of a request leaves as it is. -/
structure Serves (before after : Machine) : Prop where
  config : after.engine.config = before.engine.config
  scheduler : after.scheduler = before.scheduler
  runGate : after.runGate = before.runGate
  clock : after.clock = before.clock
  workers : after.workers = before.workers
  nextWorker : after.nextWorker = before.nextWorker
  ticker : after.ticker = before.ticker

/-- A change of the engine, but for its settings, and of the graph gate. -/
theorem Serves.of_engine {engine : Engine} (config : engine.config = machine.engine.config)
    (gate : Gate) : Serves machine { machine with engine := engine, graphGate := gate } :=
  ⟨config, rfl, rfl, rfl, rfl, rfl, rfl⟩

theorem Serves.refl (machine : Machine) : Serves machine machine := .of_engine rfl _

theorem serves_giveUp (machine : Machine) (service : Service Progress) :
    Serves machine (machine.giveUp service).2 := by
  obtain ⟨ticket, label, deadline, progress⟩ := service
  cases progress with
  | firing flight wake answer => exact .of_engine (Engine.config_callOff ..) _
  | _ => exact .of_engine rfl _

end Machine

/-- What is done for a task inside the graph gate leaves the settings as they are. -/
theorem Task.Works.config {engine after : Engine} {clock : Nat} {task : Task} {next : Progress}
    (works : task.Works engine clock next after) : after.config = engine.config := by
  cases works with
  | sets => exact Engine.config_setPlace ..
  | notes => exact Engine.config_noteEvent ..
  | _ => rfl

/-- One step of a task changes the engine and the graph gate alone. -/
theorem Progress.Advances.serves {machine after : Machine} {progress next : Progress}
    (advances : progress.Advances machine next after) : Machine.Serves machine after := by
  cases advances with
  | queues => exact .of_engine rfl _
  | launches _ _ _ launched => exact .of_engine (Engine.config_launch launched) _
  | works _ works => exact .of_engine works.config _
  | lands => exact .of_engine (Engine.config_land ..) _
  | departs | arrives | reads | skips => exact .refl machine
  | acts | acted | failed | visited => exact ⟨rfl, rfl, rfl, rfl, rfl, rfl, rfl⟩

end CardNet
