import CardNet.Proofs.Engine.Courses
import CardNet.Proofs.Engine.Frames

/-!
# What workers do in a step

A worker other than worker zero stands in line at a gate, does its work inside, sends a request,
takes an answer, leaves a gate, or goes on by itself. Each stage is told here by what is done in it
(`RunStage.Advances`, `CallStage.Advances`, `Ticker.Advances`, `Courier.Advances`), and that no step
does anything else (`Machine.advances_step`): what holds of each of these holds of every step.
-/

namespace CardNet

/-! ## Runs -/

namespace RunStage

/-- Whether a run is about to enter the graph gate. -/
def isLooking : RunStage → Bool
  | opening _ _ | listing _ _ | planning _ | closing _ _ => true
  | _ => false

/-- What a run does inside the graph gate: the stage that follows, and the engine then. -/
inductive Works (engine : Engine) : RunStage → RunStage → Engine → Prop where
  | unbuilt {stage : RunStage} : stage.isLooking = true → engine.graph = none →
      Works engine stage (.leaving (.error .notBuilt)) engine
  /-- It is answered from the records. -/
  | recalled {inputs : Values} {graph : Graph} : engine.graph = some graph →
      engine.answers graph inputs false = true →
      Works engine (.opening inputs false) (.leaving (.ok engine.records.outputs)) engine
  /-- It is opened to be run by firings. -/
  | opened {inputs : Values} {force : Bool} {graph : Graph} : engine.graph = some graph →
      engine.answers graph inputs force = false → graph.mode = .visual →
      Works engine (.opening inputs force) (.listing (graph.mergeGlobals engine.board inputs) 0)
        (engine.withBench (engine.opened graph inputs))
  /-- It is opened to follow the plan. -/
  | prepared {inputs : Values} {force : Bool} {graph : Graph} : engine.graph = some graph →
      engine.answers graph inputs force = false → graph.mode = .function →
      Works engine (.opening inputs force) (.planning (graph.mergeGlobals engine.board inputs))
        (engine.withBench (engine.opened graph inputs))
  | listed {inputs : Values} {fired : Nat} {graph : Graph} : engine.graph = some graph →
      Works engine (.listing inputs fired)
        (.passing inputs fired false graph.net.transitions.names) engine
  | planned {inputs : Values} {graph : Graph} {plan : Plan} : engine.graph = some graph →
      graph.plan = some plan → Works engine (.planning inputs) (.planned inputs plan) engine
  | planless {inputs : Values} {graph : Graph} : engine.graph = some graph → graph.plan = none →
      Works engine (.planning inputs) (.closing inputs (some ∅)) engine
  | closed {inputs : Values} {results : Option Values} :
      Works engine (.closing inputs results) (.leaving (engine.close inputs results).1)
        (engine.close inputs results).2

/-- What a run is about to request, and the stage in which it then waits for the answer. -/
inductive Asks : RunStage → Request Task → (Nat → RunStage) → Prop where
  | firing {inputs : Values} {fired : Nat} {progressed : Bool} {transition : String}
      {rest : List String} :
      Asks (.passing inputs fired progressed (transition :: rest)) (Task.firing transition)
        (.firing inputs fired progressed rest)
  | plan {inputs : Values} {plan : Plan} :
      Asks (.planned inputs plan) (Task.planRun plan inputs) (.walking inputs)

/-- What an answer means for a run that waits for it, when so many firings are allowed. -/
inductive Hears (limit : Nat) (result : Except Failure Value) :
    RunStage → Nat → RunStage → Prop where
  | firing {inputs : Values} {fired ticket : Nat} {progressed : Bool} {rest : List String} :
      Hears limit result (.firing inputs fired progressed rest ticket) ticket
        (Machine.afterFiring limit inputs fired progressed rest result)
  | plan {inputs : Values} {ticket : Nat} :
      Hears limit result (.walking inputs ticket) ticket (Machine.afterPlan inputs result)

/-- What a step of a run does: the stage that follows, and the machine then. -/
inductive Advances (worker : Nat) (machine : Machine) : RunStage → RunStage → Machine → Prop where
  /-- It stands in line at the run gate. -/
  | waits {inputs : Values} {force : Bool} :
      Advances worker machine (.arriving inputs force) (.arriving inputs force)
        { machine with runGate := machine.runGate.claim worker }
  | enters {inputs : Values} {force : Bool} : (machine.runGate.claim worker).holder? = some worker →
      Advances worker machine (.arriving inputs force) (.opening inputs force)
        { machine with runGate := machine.runGate.claim worker }
  /-- It stands in line at the graph gate. -/
  | queues {stage : RunStage} : stage.isLooking = true →
      Advances worker machine stage stage
        { machine with graphGate := machine.graphGate.claim worker }
  | works {stage next : RunStage} {engine : Engine} :
      (machine.graphGate.claim worker).holder? = some worker →
      stage.Works machine.engine next engine →
      Advances worker machine stage next
        { machine with
          engine := engine, graphGate := (machine.graphGate.claim worker).leave worker }
  /-- A pass in which something has fired is followed by another. -/
  | again {inputs : Values} {fired : Nat} :
      Advances worker machine (.passing inputs fired true []) (.listing inputs fired) machine
  | spent {inputs : Values} {fired : Nat} :
      Advances worker machine (.passing inputs fired false []) (.closing inputs none) machine
  | sends {stage : RunStage} {request : Request Task} {waiting : Nat → RunStage} {ticket : Nat}
      {scheduler : Scheduler Task Progress} : stage.Asks request waiting →
      machine.scheduler.send request = .ok (ticket, scheduler) →
      Advances worker machine stage (waiting ticket) { machine with scheduler := scheduler }
  /-- The scheduler takes no more requests. -/
  | refused {stage : RunStage} {request : Request Task} {waiting : Nat → RunStage}
      {failure : Failure} : stage.Asks request waiting →
      machine.scheduler.send request = .error failure →
      Advances worker machine stage (.leaving (.error failure)) machine
  | hears {stage next : RunStage} {ticket : Nat} {result : Except Failure Value} :
      machine.scheduler.result? ticket = some result →
      stage.Hears machine.engine.config.maxFirings result ticket next →
      Advances worker machine stage next machine
  | leaves {result : Except Failure Values} :
      Advances worker machine (.leaving result) (.over result) (machine.endRun worker result).2

end RunStage

namespace Machine

variable {machine after : Machine} {worker : Nat}

/-- At the run gate a worker does its work inside, or stands in line. -/
theorem atRunGate_cases {φ : Type} {stage : φ} {work : Machine → φ × Machine} {moved : φ × Machine}
    (entered : machine.atRunGate worker stage work = some moved) :
    (machine.runGate.claim worker).holder? = some worker ∧
        moved = work { machine with runGate := machine.runGate.claim worker } ∨
      moved = (stage, { machine with runGate := machine.runGate.claim worker }) := by
  rw [atRunGate] at entered
  split at entered
  · next holds => exact .inl ⟨holds, (Option.some.inj entered).symm⟩
  · split at entered
    · cases entered
    · exact .inr (Option.some.inj entered).symm

/-- At the graph gate a worker does its work inside, or stands in line. -/
theorem atGraphGate_cases {φ : Type} {stage : φ} {work : Machine → φ × Machine}
    {moved : φ × Machine} (entered : machine.atGraphGate worker stage work = some moved) :
    (machine.graphGate.claim worker).holder? = some worker ∧
        moved = work { machine with graphGate := machine.graphGate.claim worker } ∨
      moved = (stage, { machine with graphGate := machine.graphGate.claim worker }) := by
  rw [atGraphGate] at entered
  split at entered
  · next holds => exact .inl ⟨holds, (Option.some.inj entered).symm⟩
  · split at entered
    · cases entered
    · exact .inr (Option.some.inj entered).symm

/-- A request is sent, or the scheduler takes no more of them. -/
theorem send_cases (machine : Machine) (request : Request Task) :
    (∃ failure, machine.send request = (.error failure, machine) ∧
      machine.scheduler.send request = .error failure) ∨
      ∃ ticket scheduler, machine.scheduler.send request = .ok (ticket, scheduler) ∧
        machine.send request = (.ok ticket, { machine with scheduler := scheduler }) := by
  rw [send]
  cases sent : machine.scheduler.send request with
  | error failure => exact .inl ⟨failure, rfl, rfl⟩
  | ok accepted => exact .inr ⟨accepted.1, accepted.2, rfl, rfl⟩

/-- Work inside the graph gate that ends with leaving it comes to something that is told of it. -/
def WorksInside {φ : Type} (worker : Nat) (work : Machine → φ × Machine)
    (works : Engine → φ → Engine → Prop) : Prop :=
  ∀ machine, ∃ next engine, work machine =
      (next, { machine with engine := engine }.leaveGraph worker) ∧ works machine.engine next engine

theorem WorksInside.atGraphGate {φ : Type} {stage next : φ} {work : Machine → φ × Machine}
    {works : Engine → φ → Engine → Prop} (inside : WorksInside worker work works)
    (entered : machine.atGraphGate worker stage work = some (next, after)) :
    ((machine.graphGate.claim worker).holder? = some worker ∧
        ∃ engine, works machine.engine next engine ∧
          after = { machine with
            engine := engine, graphGate := (machine.graphGate.claim worker).leave worker }) ∨
      next = stage ∧ after = { machine with graphGate := machine.graphGate.claim worker } := by
  rcases atGraphGate_cases entered with ⟨holds, same⟩ | same
  · obtain ⟨reached, engine, did, works⟩ :=
      inside { machine with graphGate := machine.graphGate.claim worker }
    cases same.trans did
    exact .inl ⟨holds, engine, works, rfl⟩
  · cases same
    exact .inr ⟨rfl, rfl⟩

/-! ### What a run does inside the graph gate -/

theorem works_openRun (worker : Nat) (inputs : Values) (force : Bool) :
    WorksInside worker (openRun worker inputs force)
      fun engine => RunStage.Works engine (.opening inputs force) := by
  intro machine
  rw [openRun]
  cases held : machine.engine.graph with
  | none =>
      have closed : machine.engine.opening inputs force = (.error .notBuilt, machine.engine) := by
        rw [Engine.opening, Engine.bench, Engine.bench?, held]
        rfl
      simp only [within, closed]
      exact ⟨_, _, rfl, .unbuilt rfl held⟩
  | some graph =>
      cases answered : machine.engine.answers graph inputs force with
      | true =>
          obtain rfl : force = false := by
            unfold Engine.answers at answered
            cases force with
            | false => rfl
            | true => cases answered
          simp only [within, Engine.opening_recorded held answered]
          exact ⟨_, _, rfl, .recalled held answered⟩
      | false =>
          simp only [within, Engine.opening_fresh held answered]
          cases mode : graph.mode with
          | visual => exact ⟨_, _, rfl, .opened held answered mode⟩
          | function => exact ⟨_, _, rfl, .prepared held answered mode⟩

theorem works_listPass (worker : Nat) (inputs : Values) (fired : Nat) :
    WorksInside worker (listPass worker inputs fired)
      fun engine => RunStage.Works engine (.listing inputs fired) := by
  intro machine
  rw [listPass]
  cases held : machine.engine.graph with
  | none =>
      have lost : machine.engine.transitions = .error .notBuilt := by
        rw [Engine.transitions, Engine.bench, Engine.bench?, held]
        rfl
      simp only [within, lost]
      exact ⟨_, _, rfl, .unbuilt rfl held⟩
  | some graph =>
      have found : machine.engine.transitions = .ok graph.net.transitions.names := by
        rw [Engine.transitions, Engine.bench_eq held]
        rfl
      simp only [within, found]
      exact ⟨_, _, rfl, .listed held⟩

theorem works_findPlan (worker : Nat) (inputs : Values) :
    WorksInside worker (findPlan worker inputs)
      fun engine => RunStage.Works engine (.planning inputs) := by
  intro machine
  rw [findPlan]
  cases held : machine.engine.graph with
  | none =>
      have lost : machine.engine.plan = .error .notBuilt := by
        rw [Engine.plan, Engine.bench, Engine.bench?, held]
        rfl
      simp only [within, lost]
      exact ⟨_, _, rfl, .unbuilt rfl held⟩
  | some graph =>
      have found : machine.engine.plan = .ok graph.plan := by
        rw [Engine.plan, Engine.bench_eq held]
        rfl
      simp only [within, found]
      cases planned : graph.plan with
      | none => exact ⟨_, _, rfl, .planless held planned⟩
      | some plan => exact ⟨_, _, rfl, .planned held planned⟩

end Machine

/-- At the graph gate a run does what it does inside, or stands in line. -/
theorem RunStage.advances_of_works {machine after : Machine} {worker : Nat} {stage next : RunStage}
    {work : Machine → RunStage × Machine} (looking : stage.isLooking = true)
    (inside : Machine.WorksInside worker work fun engine => stage.Works engine)
    (entered : machine.atGraphGate worker stage work = some (next, after)) :
    stage.Advances worker machine next after := by
  rcases inside.atGraphGate entered with ⟨holds, engine, works, rfl⟩ | ⟨rfl, rfl⟩
  · exact .works holds works
  · exact .queues looking

namespace Machine

variable {machine after : Machine} {worker : Nat}

/-- A step of a run does nothing but what is told of its stage. -/
theorem advances_stepRun {stage next : RunStage}
    (stepped : machine.stepRun worker stage = some (next, after)) :
    stage.Advances worker machine next after := by
  cases stage with
  | arriving inputs force =>
      rcases atRunGate_cases stepped with ⟨holds, same⟩ | same
      · cases same
        exact .enters holds
      · cases same
        exact .waits
  | opening inputs force =>
      exact RunStage.advances_of_works rfl (works_openRun worker inputs force) stepped
  | listing inputs fired =>
      exact RunStage.advances_of_works rfl (works_listPass worker inputs fired) stepped
  | passing inputs fired progressed rest =>
      cases rest with
      | nil =>
          cases progressed with
          | false =>
              cases stepped
              exact .spent
          | true =>
              cases stepped
              exact .again
      | cons transition rest =>
          rcases machine.send_cases (Task.firing transition) with
            ⟨failure, shut, refused⟩ | ⟨ticket, scheduler, sent, same⟩
          · simp only [stepRun, tryNext, shut] at stepped
            cases stepped
            exact .refused .firing refused
          · simp only [stepRun, tryNext, same] at stepped
            cases stepped
            exact .sends .firing sent
  | firing inputs fired progressed rest ticket =>
      obtain ⟨result, found, same⟩ := Option.map_eq_some_iff.mp stepped
      cases same
      exact .hears found .firing
  | planning inputs => exact RunStage.advances_of_works rfl (works_findPlan worker inputs) stepped
  | planned inputs plan =>
      rcases machine.send_cases (Task.planRun plan inputs) with
        ⟨failure, shut, refused⟩ | ⟨ticket, scheduler, sent, same⟩
      · simp only [stepRun, shut] at stepped
        cases stepped
        exact .refused .plan refused
      · simp only [stepRun, same] at stepped
        cases stepped
        exact .sends .plan sent
  | walking inputs ticket =>
      obtain ⟨result, found, same⟩ := Option.map_eq_some_iff.mp stepped
      cases same
      exact .hears found .plan
  | closing inputs results =>
      exact RunStage.advances_of_works rfl (fun _ => ⟨_, _, rfl, .closed⟩) stepped
  | leaving result =>
      cases stepped
      exact .leaves
  | «over» result => cases stepped

end Machine

/-! ## Calls -/

/-- Whether a call begins with telling the ticker to stop. -/
def Call.halts : Call → Bool
  | restart _ _ _ | discard => true
  | _ => false

namespace CallStage

/-- Whether a call is about to enter the run gate. -/
def isArriving : CallStage → Bool
  | building _ _ _ _ | rewiring _ | discarding => true
  | _ => false

/-- Whether a call is about to enter the graph gate, but for the sake of a run. -/
def isLooking : CallStage → Bool
  | installing _ _ | resolving _ _ | splicing _ | clearing | looking => true
  | _ => false

/-- What a call does when it has entered the run gate: the stage that follows, and the board
then. -/
inductive Enters (engine : Engine) : CallStage → CallStage → Board → Prop where
  | built {config : GraphConfig} {cards : List Card} {globals : Option Values} {restart : Bool}
      {graph : Graph} {board : Board} :
      Graph.build engine.config.mode config cards globals engine.board = (.ok graph, board) →
      Enters engine (.building config cards globals restart) (.installing graph restart) board
  | failed {config : GraphConfig} {cards : List Card} {globals : Option Values} {restart : Bool}
      {failure : Failure} {board : Board} :
      Graph.build engine.config.mode config cards globals engine.board = (.error failure, board) →
      Enters engine (.building config cards globals restart) (.leaving (.error failure) false) board
  | rewires {change : Rewiring} : Enters engine (.rewiring change) (.splicing change) engine.board
  | discards : Enters engine .discarding .clearing engine.board

/-- What a call does inside the graph gate: the stage that follows, and the engine then. -/
inductive Works (engine : Engine) : CallStage → CallStage → Engine → Prop where
  | installed {graph : Graph} {restart : Bool} :
      Works engine (.installing graph restart) (.assigning graph restart) (engine.install graph)
  | resolved {id : String} {inputs : Values} {request : Request Task} :
      engine.nodeRequest id inputs = .ok request →
      Works engine (.resolving id inputs) (.requesting request) engine
  | unresolved {id : String} {inputs : Values} {failure : Failure} :
      engine.nodeRequest id inputs = .error failure →
      Works engine (.resolving id inputs) (.answered (.error failure)) engine
  | spliced {change : Rewiring} :
      Works engine (.splicing change) (.leaving (Machine.rewire engine change).1 false)
        (Machine.rewire engine change).2
  | cleared : Works engine .clearing (.leaving (.ok .done) false) engine.discard
  | looked : Works engine .looking (.answered (.ok .done)) engine

/-- What a step of a call does: the stage that follows, and the machine then. -/
inductive Advances (worker : Nat) (machine : Machine) : CallStage → CallStage → Machine → Prop where
  | begins {call : Call} : call.halts = false →
      Advances worker machine (.fresh call) (machine.beginCall call).1 machine
  /-- It begins with telling the ticker to stop. -/
  | halts {call : Call} : call.halts = true →
      Advances worker machine (.fresh call) (machine.beginCall call).1 machine.stopTicker
  /-- It stands in line at the run gate. -/
  | waits {stage : CallStage} : stage.isArriving = true →
      Advances worker machine stage stage { machine with runGate := machine.runGate.claim worker }
  | enters {stage next : CallStage} {board : Board} :
      (machine.runGate.claim worker).holder? = some worker →
      stage.Enters machine.engine next board →
      Advances worker machine stage next
        { machine with
          runGate := machine.runGate.claim worker
          engine := { machine.engine with board := board } }
  /-- It stands in line at the graph gate. -/
  | queues {stage : CallStage} : stage.isLooking = true →
      Advances worker machine stage stage
        { machine with graphGate := machine.graphGate.claim worker }
  | works {stage next : CallStage} {engine : Engine} :
      (machine.graphGate.claim worker).holder? = some worker →
      stage.Works machine.engine next engine →
      Advances worker machine stage next
        { machine with
          engine := engine, graphGate := (machine.graphGate.claim worker).leave worker }
  | assigns {graph : Graph} {restart : Bool} :
      Advances worker machine (.assigning graph restart)
        (.dismissing machine.courier graph.report restart) (machine.assign graph.channel)
  | dismisses {old : Option Nat} {report : Report} {restart : Bool} :
      Advances worker machine (.dismissing old report restart)
        (.leaving (.ok (.report report)) restart) (machine.dismiss old)
  | runs {run next : RunStage} {restart : Bool} {after : Machine} :
      machine.stepRun worker run = some (next, after) →
      Advances worker machine (.running run restart) (after.afterRun restart next).1
        (after.afterRun restart next).2
  | sends {request : Request Task} {ticket : Nat} {scheduler : Scheduler Task Progress} :
      machine.scheduler.send request = .ok (ticket, scheduler) →
      Advances worker machine (.requesting request) (.awaiting ticket)
        { machine with scheduler := scheduler }
  /-- The scheduler takes no more requests. -/
  | refused {request : Request Task} {failure : Failure} :
      machine.scheduler.send request = .error failure →
      Advances worker machine (.requesting request) (.answered (.error failure)) machine
  | hears {ticket : Nat} {result : Except Failure Value} :
      machine.scheduler.result? ticket = some result →
      Advances worker machine (.awaiting ticket) (.answered (result.map Answer.value)) machine
  | closesDown :
      Advances worker machine .closingDown .discarding
        { machine.dismiss machine.courier with courier := none }
  | wakes {wake : Nat} : wake ≤ machine.clock →
      Advances worker machine (.pausing wake) (.answered (.ok .done)) machine
  | leaves {result : Except Failure Answer} {restart : Bool} :
      Advances worker machine (.leaving result restart) (machine.endBuild worker result restart).1
        (machine.leaveRun worker)

end CallStage

namespace Machine

variable {machine after : Machine} {worker : Nat}

theorem beginCall_of_not_halts {call : Call} (calm : call.halts = false) (machine : Machine) :
    (machine.beginCall call).2 = machine := by
  cases call with
  | restart | discard => cases calm
  | pause milliseconds => cases milliseconds <;> rfl
  | _ => rfl

theorem beginCall_of_halts {call : Call} (halts : call.halts = true) (machine : Machine) :
    (machine.beginCall call).2 = machine.stopTicker := by
  cases call with
  | restart | discard => rfl
  | _ => cases halts

theorem enters_buildGraph (config : GraphConfig) (cards : List Card) (globals : Option Values)
    (restart : Bool) (machine : Machine) :
    ∃ next board, buildGraph config cards globals restart machine =
        (next, { machine with engine := { machine.engine with board := board } }) ∧
      CallStage.Enters machine.engine (.building config cards globals restart) next board := by
  rcases made :
    Graph.build machine.engine.config.mode config cards globals machine.engine.board with
    ⟨failure | graph, board⟩ <;>
    simp only [buildGraph, Engine.build, made]
  · exact ⟨_, _, rfl, .failed made⟩
  · exact ⟨_, _, rfl, .built made⟩

theorem works_resolveNode (worker : Nat) (id : String) (inputs : Values) :
    WorksInside worker (resolveNode worker id inputs)
      fun engine => CallStage.Works engine (.resolving id inputs) := by
  intro machine
  cases found : machine.engine.nodeRequest id inputs with
  | error failure =>
      simp only [resolveNode, within, found]
      exact ⟨_, _, rfl, .unresolved found⟩
  | ok request =>
      simp only [resolveNode, within, found]
      exact ⟨_, _, rfl, .resolved found⟩

end Machine

namespace CallStage

variable {machine after : Machine} {worker : Nat} {stage next : CallStage}
  {work : Machine → CallStage × Machine}

/-- At the run gate a call does what it does when it has entered, or stands in line. -/
theorem advances_of_enters (arriving : stage.isArriving = true)
    (enters : ∀ machine : Machine, ∃ next board, work machine =
        (next, { machine with engine := { machine.engine with board := board } }) ∧
      stage.Enters machine.engine next board)
    (entered : machine.atRunGate worker stage work = some (next, after)) :
    stage.Advances worker machine next after := by
  rcases Machine.atRunGate_cases entered with ⟨holds, same⟩ | same
  · obtain ⟨reached, board, did, enters⟩ :=
      enters { machine with runGate := machine.runGate.claim worker }
    cases same.trans did
    exact .enters holds enters
  · cases same
    exact .waits arriving

/-- At the graph gate a call does what it does inside, or stands in line. -/
theorem advances_of_works (looking : stage.isLooking = true)
    (inside : Machine.WorksInside worker work fun engine => stage.Works engine)
    (entered : machine.atGraphGate worker stage work = some (next, after)) :
    stage.Advances worker machine next after := by
  rcases inside.atGraphGate entered with ⟨holds, engine, works, rfl⟩ | ⟨rfl, rfl⟩
  · exact .works holds works
  · exact .queues looking

end CallStage

namespace Machine

variable {machine after : Machine} {worker : Nat}

/-- A step of a call does nothing but what is told of its stage. -/
theorem advances_stepCall {stage next : CallStage}
    (stepped : machine.stepCall worker stage = some (next, after)) :
    stage.Advances worker machine next after := by
  cases stage with
  | fresh call =>
      obtain rfl : (machine.beginCall call).1 = next := congrArg Prod.fst (Option.some.inj stepped)
      obtain rfl : (machine.beginCall call).2 = after := congrArg Prod.snd (Option.some.inj stepped)
      cases halts : call.halts with
      | false =>
          rw [beginCall_of_not_halts halts]
          exact .begins halts
      | true =>
          rw [beginCall_of_halts halts]
          exact .halts halts
  | building config cards globals restart =>
      exact CallStage.advances_of_enters rfl (enters_buildGraph config cards globals restart)
        stepped
  | installing graph restart =>
      exact CallStage.advances_of_works rfl (fun _ => ⟨_, _, rfl, .installed⟩) stepped
  | assigning graph restart =>
      cases stepped
      exact .assigns
  | dismissing old report restart =>
      cases stepped
      exact .dismisses
  | running run restart =>
      obtain ⟨⟨reached, middle⟩, moves, same⟩ := Option.map_eq_some_iff.mp stepped
      obtain rfl : (middle.afterRun restart reached).1 = next := congrArg Prod.fst same
      obtain rfl : (middle.afterRun restart reached).2 = after := congrArg Prod.snd same
      exact .runs moves
  | resolving id inputs =>
      exact CallStage.advances_of_works rfl (works_resolveNode worker id inputs) stepped
  | requesting request =>
      rcases machine.send_cases request with
        ⟨failure, shut, refused⟩ | ⟨ticket, scheduler, sent, same⟩
      · simp only [stepCall, requestTask, shut] at stepped
        cases stepped
        exact .refused refused
      · simp only [stepCall, requestTask, same] at stepped
        cases stepped
        exact .sends sent
  | awaiting ticket =>
      obtain ⟨result, found, same⟩ := Option.map_eq_some_iff.mp stepped
      cases same
      exact .hears found
  | rewiring change =>
      exact CallStage.advances_of_enters rfl (fun _ => ⟨_, _, rfl, .rewires⟩) stepped
  | splicing change =>
      exact CallStage.advances_of_works rfl (fun _ => ⟨_, _, rfl, .spliced⟩) stepped
  | closingDown =>
      cases stepped
      exact .closesDown
  | discarding => exact CallStage.advances_of_enters rfl (fun _ => ⟨_, _, rfl, .discards⟩) stepped
  | clearing => exact CallStage.advances_of_works rfl (fun _ => ⟨_, _, rfl, .cleared⟩) stepped
  | looking => exact CallStage.advances_of_works rfl (fun _ => ⟨_, _, rfl, .looked⟩) stepped
  | pausing wake =>
      simp only [stepCall, whenDue] at stepped
      split at stepped
      · next due =>
          cases stepped
          exact .wakes due
      · cases stepped
  | leaving result restart =>
      cases restart <;>
        · cases stepped
          exact .leaves
  | answered result => cases stepped

end Machine

/-! ## Tickers and couriers -/

/-- What a step of a ticker does: the ticker and the machine then. -/
inductive Ticker.Advances (worker : Nat) (machine : Machine) :
    Ticker → Ticker → Machine → Prop where
  /-- It was told to stop. -/
  | ends {ticker : Ticker} : ticker.stage = .waiting → ticker.stopped = true →
      Advances worker machine ticker { ticker with stage := .ended } machine
  | begins {ticker : Ticker} : ticker.stage = .waiting → ticker.stopped = false →
      ticker.due ≤ machine.clock →
      Advances worker machine ticker
        { ticker with
          due := Machine.nextTick machine.clock ticker.due ticker.interval
          stage := .running (.arriving ticker.inputs false) } machine
  | runs {ticker : Ticker} {run next : RunStage} {after : Machine} : ticker.stage = .running run →
      machine.stepRun worker run = some (next, after) →
      Advances worker machine ticker (Machine.afterTick ticker next) after

/-- What a step of a courier does: the courier and the machine then. -/
inductive Courier.Advances (worker : Nat) (machine : Machine) :
    Courier → Courier → Machine → Prop where
  | fetches {channel : Nat} {place : String} {after : Machine} :
      machine.fetch channel = some (place, after) →
      Advances worker machine ⟨channel, false, .waiting⟩ ⟨channel, false, .reporting place⟩ after
  | sends {channel ticket : Nat} {place : String} {scheduler : Scheduler Task Progress} :
      machine.scheduler.send (Task.eventRecord place) = .ok (ticket, scheduler) →
      Advances worker machine ⟨channel, false, .reporting place⟩ ⟨channel, false, .recording ticket⟩
        { machine with scheduler := scheduler }
  /-- The scheduler takes no more requests. -/
  | refused {channel : Nat} {place : String} {failure : Failure} :
      machine.scheduler.send (Task.eventRecord place) = .error failure →
      Advances worker machine ⟨channel, false, .reporting place⟩ ⟨channel, false, .waiting⟩ machine
  /-- The event has been noted. -/
  | noted {channel ticket : Nat} {value : Value} :
      machine.scheduler.result? ticket = some (.ok value) →
      Advances worker machine ⟨channel, false, .recording ticket⟩
        ⟨channel, false, .running (.arriving ∅ true)⟩ machine
  /-- The event has not been noted. -/
  | missed {channel ticket : Nat} {failure : Failure} :
      machine.scheduler.result? ticket = some (.error failure) →
      Advances worker machine ⟨channel, false, .recording ticket⟩ ⟨channel, false, .waiting⟩ machine
  | runs {channel : Nat} {run next : RunStage} {after : Machine} :
      machine.stepRun worker run = some (next, after) →
      Advances worker machine ⟨channel, false, .running run⟩
        ⟨channel, false, Machine.afterDelivery next⟩ after
  /-- It was dismissed. -/
  | withdraws {channel : Nat} {stage : CourierStage} :
      Advances worker machine ⟨channel, true, stage⟩ ⟨channel, true, .withdrawing⟩
        (machine.leaveGraph worker)
  | ends {channel : Nat} :
      Advances worker machine ⟨channel, true, .withdrawing⟩ ⟨channel, true, .ended⟩
        (machine.leaveRun worker)

/-- What a step of a worker other than worker zero does: the worker then, and the machine but for
the worker. -/
inductive Worker.Advances (number : Nat) (machine : Machine) :
    Worker → Worker → Machine → Prop where
  | caller {stage next : CallStage} {after : Machine} : stage.Advances number machine next after →
      Advances number machine (.caller stage) (.caller next) after
  | ticker {ticker next : Ticker} {after : Machine} : ticker.Advances number machine next after →
      Advances number machine (.ticker ticker) (.ticker next) after
  | courier {courier next : Courier} {after : Machine} :
      courier.Advances number machine next after →
      Advances number machine (.courier courier) (.courier next) after

namespace Machine

variable {machine after : Machine} {worker : Nat}

/-! ### What is beside the point -/

theorem aside_afterRun (machine : Machine) (restart : Bool) (next : RunStage) :
    Aside machine (machine.afterRun restart next).2 := by
  cases next with
  | «over» result =>
      cases result with
      | error failure => exact .refl machine
      | ok outputs =>
          cases restart with
          | false => exact .refl machine
          | true => exact aside_startTicker machine none ∅
  | _ => exact .refl machine

theorem aside_closeDown (machine : Machine) :
    Aside machine { machine.dismiss machine.courier with courier := none } :=
  have aside := aside_dismiss machine machine.courier
  ⟨aside.engine, aside.scheduler, aside.graphGate, aside.callers⟩

/-- Fetching an event changes nothing but the board. -/
theorem board_of_fetch {channel : Nat} {place : String}
    (fetched : machine.fetch channel = some (place, after)) :
    ∃ board, after = { machine with engine := { machine.engine with board := board } } := by
  rw [fetch] at fetched
  split at fetched
  · cases fetched
  · cases fetched
    exact ⟨_, rfl⟩

/-- A step of a ticker does nothing but what is told of it. -/
theorem advances_stepTicker {ticker next : Ticker}
    (stepped : machine.stepTicker worker ticker = some (next, after)) :
    ticker.Advances worker machine next after := by
  obtain ⟨interval, inputs, due, stopped, ticks, stage⟩ := ticker
  cases stage with
  | waiting =>
      simp only [stepTicker] at stepped
      split at stepped
      · next told =>
          cases stepped
          exact .ends rfl told
      · next untold =>
          split at stepped
          · next due =>
              cases stepped
              exact .begins rfl (Bool.eq_false_iff.mpr untold) due
          · cases stepped
  | running run =>
      obtain ⟨⟨reached, middle⟩, moves, same⟩ := Option.map_eq_some_iff.mp stepped
      cases same
      exact .runs rfl moves
  | ended => cases stepped

/-- A step of a courier does nothing but what is told of it. -/
theorem advances_stepCourier {courier next : Courier}
    (stepped : machine.stepCourier worker courier = some (next, after)) :
    courier.Advances worker machine next after := by
  obtain ⟨channel, dismissed, stage⟩ := courier
  obtain ⟨⟨reached, middle⟩, moved, same⟩ := Option.map_eq_some_iff.mp stepped
  cases same
  cases dismissed with
  | true =>
      cases stage with
      | ended => cases moved
      | withdrawing =>
          cases moved
          exact .ends
      | _ =>
          cases moved
          exact .withdraws
  | false =>
      cases stage with
      | waiting =>
          obtain ⟨⟨place, left⟩, fetched, same⟩ := Option.map_eq_some_iff.mp moved
          cases same
          exact .fetches fetched
      | reporting place =>
          rcases machine.send_cases (Task.eventRecord place) with
            ⟨failure, shut, refused⟩ | ⟨ticket, scheduler, sent, same⟩
          · simp only [deliver, shut] at moved
            cases moved
            exact .refused refused
          · simp only [deliver, same] at moved
            cases moved
            exact .sends sent
      | recording ticket =>
          obtain ⟨result, found, same⟩ := Option.map_eq_some_iff.mp moved
          cases result with
          | error failure =>
              cases same
              exact .missed found
          | ok value =>
              cases same
              exact .noted found
      | running run =>
          obtain ⟨⟨later, left⟩, moves, same⟩ := Option.map_eq_some_iff.mp moved
          cases same
          exact .runs moves
      | withdrawing => cases moved
      | ended => cases moved

/-- A step of a worker other than worker zero does nothing but what is told of it. -/
theorem advances_step (other : worker ≠ server) (stepped : machine.step worker = some after) :
    ∃ held next middle, machine.workers.get? worker = some held ∧
      after = setWorker middle worker next ∧ held.Advances worker machine next middle := by
  rw [step, if_neg other] at stepped
  split at stepped
  · cases stepped
  · next stage found =>
      obtain ⟨⟨next, middle⟩, moves, rfl⟩ := Option.map_eq_some_iff.mp stepped
      exact ⟨_, _, middle, found, rfl, .caller (advances_stepCall moves)⟩
  · next ticker found =>
      obtain ⟨⟨next, middle⟩, moves, rfl⟩ := Option.map_eq_some_iff.mp stepped
      exact ⟨_, _, middle, found, rfl, .ticker (advances_stepTicker moves)⟩
  · next courier found =>
      obtain ⟨⟨next, middle⟩, moves, rfl⟩ := Option.map_eq_some_iff.mp stepped
      exact ⟨_, _, middle, found, rfl, .courier (advances_stepCourier moves)⟩

end Machine

/-! ## Who is inside the graph gate -/

section

variable {machine after : Machine} {worker holder : Nat} (other : holder ≠ worker)
  (held : machine.graphGate.holder? = some holder)

include other held

theorem RunStage.Advances.graphGate {stage next : RunStage}
    (advances : stage.Advances worker machine next after) :
    after.graphGate.holder? = some holder := by
  cases advances with
  | queues => exact Gate.holder?_claim held worker
  | works holds => exact absurd (Gate.eq_of_holder?_claim holds held) other
  | _ => exact held

theorem CallStage.Advances.graphGate {stage next : CallStage}
    (advances : stage.Advances worker machine next after) :
    after.graphGate.holder? = some holder := by
  cases advances with
  | queues => exact Gate.holder?_claim held worker
  | works holds => exact absurd (Gate.eq_of_holder?_claim holds held) other
  | halts => exact (congrArg Gate.holder? machine.aside_stopTicker.graphGate).trans held
  | dismisses => exact (congrArg Gate.holder? (machine.aside_dismiss _).graphGate).trans held
  | closesDown => exact (congrArg Gate.holder? machine.aside_closeDown.graphGate).trans held
  | @runs run next restart middle moves =>
      rw [(middle.aside_afterRun restart next).graphGate]
      exact (Machine.advances_stepRun moves).graphGate other held
  | _ => exact held

theorem Ticker.Advances.graphGate {ticker next : Ticker}
    (advances : ticker.Advances worker machine next after) :
    after.graphGate.holder? = some holder := by
  cases advances with
  | runs _ moves => exact (Machine.advances_stepRun moves).graphGate other held
  | _ => exact held

theorem Courier.Advances.graphGate {courier next : Courier}
    (advances : courier.Advances worker machine next after) :
    after.graphGate.holder? = some holder := by
  cases advances with
  | fetches fetched =>
      obtain ⟨board, rfl⟩ := Machine.board_of_fetch fetched
      exact held
  | runs moves => exact (Machine.advances_stepRun moves).graphGate other held
  | withdraws => exact Gate.holder?_leave held other.symm
  | _ => exact held

/-- No step of a worker other than worker zero puts others out of the graph gate. -/
theorem Worker.Advances.graphGate {before next : Worker}
    (advances : before.Advances worker machine next after) :
    after.graphGate.holder? = some holder := by
  cases advances with
  | caller advances => exact advances.graphGate other held
  | ticker advances => exact advances.graphGate other held
  | courier advances => exact advances.graphGate other held

end

end CardNet
