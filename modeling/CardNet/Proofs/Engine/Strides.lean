import CardNet.Proofs.Engine.Servings

/-!
# Steps of other workers

What a step of a run does (`RunStage.Moves`), and what a step of a worker does while nobody builds,
edits or gives up the graph (`Worker.Strides`): it moves a run on, hands an event on as a courier, or
leaves runs and events alone. Failures of runs are told apart, but not what comes of them.
-/

namespace CardNet

/-- The run that a worker is in, if it is in one. -/
def Worker.run? : Worker → Option RunStage
  | caller (.running stage _) => some stage
  | ticker ⟨_, _, _, _, _, .running stage⟩ => some stage
  | courier ⟨_, _, .running stage⟩ => some stage
  | _ => none

namespace RunStage

/-- Whether a run has entered the run gate and not left it. -/
def isOpen : RunStage → Bool
  | arriving _ _ => false
  | «over» _ => false
  | _ => true

/-- A stage of a run by firings that has not failed. -/
def isSmooth : RunStage → Bool
  | planning _ | planned _ _ | walking _ _ | leaving (.error _) | «over» (.error _) => false
  | _ => true

/-- What a step of a run by firings does: the stage that follows, and the machine then. -/
inductive Moves (worker : Nat) (machine : Machine) : RunStage → RunStage → Machine → Prop where
  /-- It stands in line, at one gate or the other. -/
  | wait {stage : RunStage} {run graph : Gate} :
      (∀ holder, machine.runGate.holder? = some holder → run.holder? = some holder) →
      Moves worker machine stage stage { machine with runGate := run, graphGate := graph }
  | enter {inputs : Values} {force : Bool} {gate : Gate} : gate.holder? = some worker →
      (∀ holder, machine.runGate.holder? = some holder → holder = worker) →
      Moves worker machine (.arriving inputs force) (.opening inputs force)
        { machine with runGate := gate }
  | opened {inputs merged : Values} {force : Bool} {gate : Gate} {graph : Graph} :
      machine.engine.graph = some graph →
      (∀ holder, machine.graphGate.holder? = some holder → holder = worker) →
      Moves worker machine (.opening inputs force) (.listing merged 0)
        { machine with
          engine := machine.engine.withBench (Bench.opened ⟨graph, machine.engine.board⟩ merged)
          graphGate := gate }
  /-- It is answered from the records. -/
  | recalled {inputs outputs : Values} {gate : Gate} :
      Moves worker machine (.opening inputs false) (.leaving (.ok outputs))
        { machine with graphGate := gate }
  | listed {inputs : Values} {fired : Nat} {gate : Gate} {graph : Graph} :
      machine.engine.graph = some graph →
      Moves worker machine (.listing inputs fired)
        (.passing inputs fired false graph.net.transitions.names) { machine with graphGate := gate }
  | again {inputs : Values} {fired : Nat} :
      Moves worker machine (.passing inputs fired true []) (.listing inputs fired) machine
  | spent {inputs : Values} {fired : Nat} :
      Moves worker machine (.passing inputs fired false []) (.closing inputs none) machine
  | attempt {inputs : Values} {fired ticket : Nat} {progressed : Bool} {transition : String}
      {rest : List String} {scheduler : Scheduler Task Progress} :
      machine.scheduler.send (Task.firing transition) = .ok (ticket, scheduler) →
      Moves worker machine (.passing inputs fired progressed (transition :: rest))
        (.firing inputs fired progressed rest ticket) { machine with scheduler := scheduler }
  | fired {inputs : Values} {fired ticket : Nat} {progressed : Bool} {rest : List String} :
      machine.scheduler.result? ticket = some (.ok (.bool true)) →
      Moves worker machine (.firing inputs fired progressed rest ticket)
        (.passing inputs (fired + 1) true rest) machine
  | idle {inputs : Values} {fired ticket : Nat} {progressed : Bool} {rest : List String}
      {value : Value} :
      machine.scheduler.result? ticket = some (.ok value) → value ≠ .bool true →
      Moves worker machine (.firing inputs fired progressed rest ticket)
        (.passing inputs fired progressed rest) machine
  | closed {inputs outputs : Values} {results : Option Values} {gate : Gate} :
      Moves worker machine (.closing inputs results) (.leaving (.ok outputs))
        { machine with engine := (machine.engine.close inputs results).2, graphGate := gate }
  | left {outputs : Values} :
      Moves worker machine (.leaving (.ok outputs)) (.over (.ok outputs)) (machine.leaveRun worker)
  | failed {stage : RunStage} {failure : Failure} {after : Machine} :
      Moves worker machine stage (.leaving (.error failure)) after

/-- A run that fails is about to leave the run gate with the failure. -/
def hasFailed : RunStage → Bool
  | leaving (.error _) => true
  | _ => false

/-- A run goes on smoothly as long as it does not fail. -/
theorem Moves.isSmooth {worker : Nat} {machine after : Machine} {stage next : RunStage}
    (moves : stage.Moves worker machine next after) (smooth : stage.isSmooth = true)
    (fine : next.hasFailed = false) : next.isSmooth = true := by
  cases moves with
  | wait => exact smooth
  | failed => cases fine
  | _ => rfl

end RunStage

/-! ## Requests and calls that do not concern some transitions -/

/-- Whether a task is done for no run, notes no event and does none of some transitions. -/
def Task.isAside (own : List String) : Task → Bool
  | fire _ | event _ => false
  | node id _ => !own.contains id
  | walk _ _ | input _ _ => true

/-- Whether a call neither builds nor edits the graph nor executes one of some transitions. -/
def Call.isAside (own : List String) : Call → Bool
  | exec _ _ | setInput _ _ | look | pause _ => true
  | executeNode id _ => !own.contains id
  | build _ _ _ | restart _ _ _ | rewire _ | discard => false

/-- The stages of calls that neither build nor edit the graph nor execute some transitions. -/
def CallStage.isAside (own : List String) : CallStage → Bool
  | fresh call => call.isAside own
  | running _ restart => !restart
  | resolving id _ => !own.contains id
  | requesting request => request.task.isAside own
  | awaiting _ | looking | pausing _ | answered _ => true
  | _ => false

namespace Worker

/-- Whether a worker neither builds, edits nor gives up the graph and executes none of some
transitions, nor is a courier that was dismissed. -/
def isAside (own : List String) : Worker → Bool
  | caller stage => stage.isAside own
  | ticker _ => true
  | courier held => !held.dismissed

/-- Whether a worker is a courier. -/
def isCourier : Worker → Bool
  | courier _ => true
  | _ => false

/-- A worker whose run has come to a stage. -/
def goOn (held : Worker) (stage : RunStage) : Worker :=
  match held with
  | caller _ =>
      .caller <| match stage with
        | .over (.error failure) => .answered (.error failure)
        | .over (.ok outputs) => .answered (.ok (.outputs outputs))
        | stage => .running stage false
  | ticker held => .ticker (Machine.afterTick held stage)
  | courier held => .courier { held with stage := Machine.afterDelivery stage }

theorem run?_goOn (held : Worker) (stage : RunStage) :
    (held.goOn stage).run? = match stage with
      | .over _ => none
      | stage => some stage := by
  cases held with
  | caller => cases stage with
    | «over» result => cases result <;> rfl
    | _ => rfl
  | ticker => cases stage with
    | «over» result => cases result <;> rfl
    | _ => rfl
  | courier => cases stage <;> rfl

/-- A worker that stays aside and whose run, if it is in one, has not failed. -/
def IsPeaceful (own : List String) (held : Worker) : Prop :=
  held.isAside own = true ∧ ∀ run, held.run? = some run → run.isSmooth = true

/-- A worker that is no courier and in no run that is open. -/
def Apart (held : Worker) : Prop :=
  held.isCourier = false ∧ ∀ stage, held.run? = some stage → stage.isOpen = false ∧
    stage.isSmooth = true

end Worker

/-- Nothing but the graph gate changes, or a request is sent that does not concern some
transitions. -/
def Machine.Beside (own : List String) (machine after : Machine) : Prop :=
  ∃ scheduler gate, after = { machine with scheduler := scheduler, graphGate := gate } ∧
    (scheduler = machine.scheduler ∨ ∃ request ticket, request.task.isAside own = true ∧
      machine.scheduler.send request = .ok (ticket, scheduler))

/-- What a step of a worker does that leaves the graph and some transitions alone: the worker
then, and the machine but for the worker. -/
inductive Worker.Strides (own : List String) (number : Nat) (machine : Machine) :
    Worker → Worker → Machine → Prop where
  | run {held : Worker} {stage next : RunStage} {middle : Machine} : held.run? = some stage →
      stage.Moves number machine next middle → Strides own number machine held (held.goOn next) middle
  | aside {held next : Worker} {middle : Machine} : held.Apart → next.Apart →
      machine.Beside own middle → Strides own number machine held next middle
  | fetch {channel : Nat} {place : String} {middle : Machine} :
      machine.fetch channel = some (place, middle) →
      Strides own number machine (.courier ⟨channel, false, .waiting⟩)
        (.courier ⟨channel, false, .reporting place⟩) middle
  | report {channel ticket : Nat} {place : String} {scheduler : Scheduler Task Progress} :
      machine.scheduler.send (Task.eventRecord place) = .ok (ticket, scheduler) →
      Strides own number machine (.courier ⟨channel, false, .reporting place⟩)
        (.courier ⟨channel, false, .recording ticket⟩) { machine with scheduler := scheduler }
  /-- The scheduler takes no more requests. -/
  | shut {channel : Nat} {place : String} : machine.scheduler.stopped = true →
      Strides own number machine (.courier ⟨channel, false, .reporting place⟩)
        (.courier ⟨channel, false, .waiting⟩) machine
  /-- The event has been noted. -/
  | noted {channel ticket : Nat} {value : Value} :
      machine.scheduler.result? ticket = some (.ok value) →
      Strides own number machine (.courier ⟨channel, false, .recording ticket⟩)
        (.courier ⟨channel, false, .running (.arriving ∅ true)⟩) machine
  /-- The event has not been noted. -/
  | missed {channel ticket : Nat} {failure : Failure} :
      machine.scheduler.result? ticket = some (.error failure) →
      Strides own number machine (.courier ⟨channel, false, .recording ticket⟩)
        (.courier ⟨channel, false, .waiting⟩) machine

namespace Machine

/-- The run that a worker is in, if it is in one. -/
def stage? (machine : Machine) (number : Nat) : Option RunStage :=
  (machine.workers.get? number).bind Worker.run?

/-- Nobody is in the run gate. -/
def Resting (machine : Machine) : Prop :=
  ∀ number stage, machine.stage? number = some stage → stage.isOpen = false

variable {machine : Machine}

/-- Nobody is in an open run when none of the workers is. -/
theorem resting_of_all
    (idle : machine.workers.toList.all (fun entry => !entry.2.run?.any RunStage.isOpen) = true) :
    machine.Resting := by
  intro number stage there
  obtain ⟨held, found, running⟩ := Option.bind_eq_some_iff.mp there
  rw [Std.ExtTreeMap.get?_eq_getElem?] at found
  have closed := List.all_eq_true.mp idle (number, held)
    (Std.ExtTreeMap.mem_toList_iff_getElem?_eq_some.mpr found)
  rw [running] at closed
  simpa using closed

end Machine

/-- What a step of a run by firings does. -/
theorem RunStage.Advances.moves {machine after : Machine} {worker : Nat} {stage next : RunStage}
    (visual : ∀ graph, machine.engine.graph = some graph → graph.mode = .visual)
    (smooth : stage.isSmooth = true) (advances : stage.Advances worker machine next after) :
    stage.Moves worker machine next after := by
  cases advances with
  | waits => exact .wait fun _ held => Gate.holder?_claim held worker
  | enters holds => exact .enter holds fun _ => Gate.eq_of_holder?_claim holds
  | queues => exact .wait fun _ held => held
  | works holds works =>
      cases works with
      | unbuilt => exact .failed
      | recalled => exact .recalled
      | opened held => exact .opened held fun _ => Gate.eq_of_holder?_claim holds
      | prepared held _ function => cases (visual _ held).symm.trans function
      | listed held => exact .listed held
      | @closed inputs results =>
          cases (machine.engine.close inputs results).1 with
          | error failure => exact .failed
          | ok outputs => exact .closed
      | planned | planless => cases smooth
  | again => exact .again
  | spent => exact .spent
  | sends asks sent =>
      cases asks with
      | firing => exact .attempt sent
      | plan => cases smooth
  | refused => exact .failed
  | hears found hears =>
      cases hears with
      | firing =>
          unfold Machine.afterFiring
          split
          · exact .failed
          · split
            · exact .failed
            · exact .fired found
          · next value other => exact .idle found other
      | plan => cases smooth
  | @leaves result =>
      cases result with
      | error failure => cases smooth
      | ok outputs => exact .left

/-! ## Workers -/

section

variable {own : List String} {machine after : Machine} {worker : Nat}

theorem Machine.beside_refl (machine : Machine) : machine.Beside own machine :=
  ⟨machine.scheduler, machine.graphGate, rfl, .inl rfl⟩

private theorem Worker.apart_of_run? {held : Worker} (other : held.isCourier = false)
    (idle : held.run? = none) : held.Apart :=
  ⟨other, fun _ running => nomatch idle.symm.trans running⟩

/-- A task that is requested for a node is beside the transitions that the node is none of. -/
theorem Engine.isAside_of_nodeRequest {engine : Engine} {id : String} {inputs : Values}
    (aside : (!own.contains id) = true) {request : Request Task}
    (found : engine.nodeRequest id inputs = .ok request) : request.task.isAside own = true := by
  unfold Engine.nodeRequest at found
  cases present : engine.bench with
  | error failure =>
      rw [present] at found
      cases found
  | ok bench =>
      rw [present] at found
      obtain rfl := Except.ok.inj found
      dsimp only
      split
      · rfl
      · exact aside

/-- What a step of a caller does, and that it stays aside. -/
theorem CallStage.Advances.strides
    (visual : ∀ graph, machine.engine.graph = some graph → graph.mode = .visual)
    {stage next : CallStage} (aside : stage.isAside own = true)
    (smooth : ∀ run, (Worker.caller stage).run? = some run → run.isSmooth = true)
    (advances : stage.Advances worker machine next after) :
    Worker.Strides own worker machine (.caller stage) (.caller next) after ∧
      next.isAside own = true := by
  have step : ∀ {next : CallStage} {middle : Machine}, (Worker.caller stage).run? = none →
      (Worker.caller next).run? = none → machine.Beside own middle → next.isAside own = true →
      Worker.Strides own worker machine (.caller stage) (.caller next) middle ∧
        next.isAside own = true := fun before after beside still =>
    ⟨.aside (Worker.apart_of_run? rfl before) (Worker.apart_of_run? rfl after) beside, still⟩
  have inside : machine.Beside own { machine with
      graphGate := (machine.graphGate.claim worker).leave worker } := ⟨_, _, rfl, .inl rfl⟩
  cases advances with
  | @begins call =>
      cases call with
      | exec inputs force =>
          refine ⟨.aside (Worker.apart_of_run? rfl rfl) ⟨rfl, ?_⟩ machine.beside_refl, rfl⟩
          rintro _ ⟨⟩
          exact ⟨rfl, rfl⟩
      | executeNode id inputs => exact step rfl rfl machine.beside_refl aside
      | pause milliseconds => cases milliseconds <;> exact step rfl rfl machine.beside_refl rfl
      | setInput | look => exact step rfl rfl machine.beside_refl rfl
      | build | restart | rewire | discard => cases aside
  | @halts call halts =>
      cases call with
      | restart | discard => cases aside
      | _ => cases halts
  | waits arriving =>
      cases stage with
      | building | rewiring | discarding => cases aside
      | _ => cases arriving
  | enters _ enters => cases enters <;> cases aside
  | queues looking =>
      have idle : (Worker.caller stage).run? = none := by
        cases stage with
        | running => cases looking
        | _ => rfl
      exact step idle idle ⟨_, _, rfl, .inl rfl⟩ aside
  | works _ works =>
      cases works with
      | resolved found => exact step rfl rfl inside (Engine.isAside_of_nodeRequest aside found)
      | unresolved => exact step rfl rfl inside rfl
      | looked => exact step rfl rfl inside rfl
      | installed | spliced | cleared => cases aside
  | @runs run reached restart middle moves =>
      obtain rfl : restart = false := by
        cases restart with
        | false => rfl
        | true => cases aside
      have strides : Worker.Strides own worker machine (.caller (.running run false))
          ((Worker.caller (.running run false)).goOn reached) middle :=
        .run rfl ((Machine.advances_stepRun moves).moves visual (smooth run rfl))
      cases reached with
      | «over» result => cases result <;> exact ⟨strides, rfl⟩
      | _ => exact ⟨strides, rfl⟩
  | @sends request ticket _ sent =>
      exact step rfl rfl ⟨_, machine.graphGate, rfl, .inr ⟨request, ticket, aside, sent⟩⟩ rfl
  | refused | hears | wakes => exact step rfl rfl machine.beside_refl rfl
  | assigns | dismisses | closesDown | leaves => cases aside

/-- What a step of a ticker does. -/
theorem Ticker.Advances.strides
    (visual : ∀ graph, machine.engine.graph = some graph → graph.mode = .visual)
    {ticker next : Ticker}
    (smooth : ∀ run, (Worker.ticker ticker).run? = some run → run.isSmooth = true)
    (advances : ticker.Advances worker machine next after) :
    Worker.Strides own worker machine (.ticker ticker) (.ticker next) after := by
  obtain ⟨interval, inputs, due, stopped, ticks, stage⟩ := ticker
  cases advances with
  | ends waits =>
      obtain rfl : stage = .waiting := waits
      exact .aside (Worker.apart_of_run? rfl rfl) (Worker.apart_of_run? rfl rfl) machine.beside_refl
  | begins waits =>
      obtain rfl : stage = .waiting := waits
      refine .aside (Worker.apart_of_run? rfl rfl) ⟨rfl, ?_⟩ machine.beside_refl
      rintro _ ⟨⟩
      exact ⟨rfl, rfl⟩
  | @runs run reached _ running moves =>
      obtain rfl : stage = .running run := running
      exact .run rfl ((Machine.advances_stepRun moves).moves visual (smooth run rfl))

/-- What a step of a courier does that was not dismissed. -/
theorem Courier.Advances.strides
    (visual : ∀ graph, machine.engine.graph = some graph → graph.mode = .visual)
    {courier next : Courier} (loyal : courier.dismissed = false)
    (smooth : ∀ run, (Worker.courier courier).run? = some run → run.isSmooth = true)
    (advances : courier.Advances worker machine next after) :
    Worker.Strides own worker machine (.courier courier) (.courier next) after ∧
      next.dismissed = false := by
  cases advances with
  | fetches fetched => exact ⟨.fetch fetched, rfl⟩
  | sends sent => exact ⟨.report sent, rfl⟩
  | refused refused =>
      refine ⟨.shut ?_, rfl⟩
      unfold Scheduler.send at refused
      split at refused
      · next stopped => exact stopped
      · cases refused
  | noted found => exact ⟨.noted found, rfl⟩
  | missed found => exact ⟨.missed found, rfl⟩
  | @runs channel run reached _ moves =>
      have strides : Worker.Strides own worker machine (.courier ⟨channel, false, .running run⟩)
          ((Worker.courier ⟨channel, false, .running run⟩).goOn reached) after :=
        .run rfl ((Machine.advances_stepRun moves).moves visual (smooth run rfl))
      exact ⟨strides, rfl⟩
  | withdraws | ends => cases loyal

/-- What a step of a worker does that stays aside and whose run, if it is in one, has not failed. -/
theorem Machine.strides_step
    (visual : ∀ graph, machine.engine.graph = some graph → graph.mode = .visual)
    (other : worker ≠ server) {held : Worker} (found : machine.workers.get? worker = some held)
    (peaceful : held.IsPeaceful own) (stepped : machine.step worker = some after) :
    ∃ next middle, after = setWorker middle worker next ∧
      held.Strides own worker machine next middle ∧ next.isAside own = true := by
  obtain ⟨aside, smooth⟩ := peaceful
  obtain ⟨known, next, middle, there, rfl, advances⟩ := advances_step other stepped
  obtain rfl := Option.some.inj (found.symm.trans there)
  refine ⟨next, middle, rfl, ?_⟩
  cases advances with
  | caller advances => exact advances.strides visual aside smooth
  | ticker advances => exact ⟨advances.strides visual smooth, rfl⟩
  | courier advances =>
      have loyal := (Bool.not_eq_true' _).mp aside
      obtain ⟨strides, still⟩ := advances.strides visual loyal smooth
      exact ⟨strides, (Bool.not_eq_true' _).mpr still⟩

end

/-- A run of a worker that has not failed goes on smoothly. -/
theorem Worker.Strides.smooth {own : List String} {number : Nat} {machine middle : Machine}
    {held next : Worker} (strides : held.Strides own number machine next middle)
    (smooth : ∀ run, held.run? = some run → run.isSmooth = true)
    (fine : ∀ run, next.run? = some run → run.hasFailed = false) :
    ∀ run, next.run? = some run → run.isSmooth = true := by
  cases strides with
  | @run _ stage run _ running moves =>
      intro other going
      have fine := fine other going
      rw [run?_goOn] at going
      split at going
      · cases going
      · cases going
        exact moves.isSmooth (smooth stage running) fine
  | aside _ after _ => exact fun run running => (after.2 run running).2
  | noted =>
      rintro _ ⟨⟩
      rfl
  | fetch | report | shut | missed => exact nofun

end CardNet
