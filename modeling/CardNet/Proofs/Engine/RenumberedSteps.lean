import CardNet.Proofs.Engine.RenumberedMachines

/-!
# Steps of machines on matching boards

What worker zero, the callers, the tickers and the couriers do to machines that match, one by one, and
with it every step (`Machine.Matches.step`).
-/

namespace CardNet

namespace Machine

variable {renumber : Renumbering} {extent wider : Extent}

/-- One step of the service of a request whose task is not over. -/
theorem stepService_eq {machine : Machine} {service : Service Progress}
    (begun : ∀ result, service.progress ≠ .ended result) :
    machine.stepService service = ((machine.workOn service.progress).map proceed).or
      (if service.isOverdue machine.clock then some (proceed (machine.giveUp service))
        else none) := by
  rw [stepService]
  split
  · next result ended => exact absurd ended (begun result)
  · cases machine.workOn service.progress <;> rfl

namespace Matches

variable {first second : Machine}

/-! ### Worker zero -/

theorem endTask (machines : first.Matches renumber extent second)
    (result : Except Failure Value) :
    Concurs renumber.progress Progress.Within renumber extent (first.endTask result)
      (second.endTask result) :=
  .intro (by trivial) (machines.leaveGraph server)

theorem beginFiring (machines : first.Matches renumber extent second) {one two : Bench}
    (present : first.engine.bench = .ok one) (present' : second.engine.bench = .ok two)
    (transition : String) (answer : Option Value) :
    Concurs renumber.progress Progress.Within renumber extent
      (first.beginFiring one transition answer) (second.beginFiring two transition answer) := by
  rw [Machine.beginFiring, Machine.beginFiring]
  rcases machines.engine.launch present present' transition with
    ⟨failure, failed, failed'⟩ | ⟨flight, left, right, begun, begun', within, engines⟩
  · rw [failed, failed']
    exact machines.endTask (.error failure)
  · rw [begun, begun']
    exact .of_eq (by rw [machines.clock]; rfl) within (machines.withEngine extent.le_refl engines)

theorem beginNode (machines : first.Matches renumber extent second) {one two : Bench}
    (present : first.engine.bench = .ok one) (present' : second.engine.bench = .ok two)
    (benches : one.Matches renumber extent two) (id : String) (inputs : Values) :
    Concurs renumber.progress Progress.Within renumber extent (first.beginNode one id inputs)
      (second.beginNode two id inputs) := by
  rw [Machine.beginNode, Machine.beginNode, benches.nodeWork]
  rcases one.nodeWork id inputs with failure | ⟨transition | ⟨card, globals⟩ | value⟩
  · exact machines.endTask (.error failure)
  · exact machines.beginFiring present present' transition none
  · exact .of_eq (by rw [machines.clock]; rfl) trivial (machines.leaveGraph server)
  · exact machines.endTask (.ok value)

theorem enterTask (machines : first.Matches renumber extent second) {task : Task}
    (within : task.Within extent) :
    Concurs renumber.progress Progress.Within renumber extent (Machine.enterTask task first)
      (Machine.enterTask (renumber.task task) second) := by
  rw [Machine.enterTask, Machine.enterTask]
  rcases machines.engine.bench_cases with ⟨none, none'⟩ | ⟨one, two, present, present', benches⟩
  · rw [none, none']
    exact machines.endTask (.error .notBuilt)
  · rw [present, present']
    cases task with
    | fire transition =>
        have enabled : two.graph.net.isEnabled transition = one.graph.net.isEnabled transition := by
          rw [benches.graph]
          exact Net.isEnabled_mapActions ..
        simp only [Renumbering.task, Machine.beginTask, enabled]
        split
        · exact machines.beginFiring present present' transition _
        · exact machines.endTask _
    | walk plan inputs => exact .intro within (machines.leaveGraph server)
    | node id inputs => exact machines.beginNode present present' benches id inputs
    | input place value =>
        obtain ⟨same, engines⟩ := machines.engine.setPlace place value
        have ended := (machines.withEngine extent.le_refl engines).endTask
          (first.engine.setPlace place value).1
        simpa only [Renumbering.task, Machine.beginTask, same] using ended
    | event place =>
        obtain ⟨same, engines⟩ := machines.engine.noteEvent place
        have ended := (machines.withEngine extent.le_refl engines).endTask
          (first.engine.noteEvent place).1
        simpa only [Renumbering.task, Machine.beginTask, same] using ended

theorem landFiring (machines : first.Matches renumber extent second) (flight : Flight)
    (answer : Option Value) :
    Concurs renumber.progress Progress.Within renumber extent (first.landFiring flight answer)
      (second.landFiring (renumber.flight flight) answer) := by
  obtain ⟨same, engines⟩ := machines.engine.land flight
  simp only [Machine.landFiring, same]
  exact (machines.withEngine extent.le_refl engines).endTask _

theorem walkOn (machines : first.Matches renumber extent second) (results : Values)
    {steps : List PlanStep} (within : ∀ step ∈ steps, step.Within extent) :
    Concurs renumber.progress Progress.Within renumber extent (first.walkOn results steps)
      (second.walkOn results (steps.map renumber.step)) := by
  cases steps with
  | nil => exact .intro trivial machines
  | cons step rest =>
      obtain ⟨own, others⟩ := List.forall_mem_cons.mp within
      cases step with
      | act id action =>
          obtain ⟨same, boards⟩ := machines.engine.board.begin own []
          simp only [List.map_cons, Renumbering.step, Machine.walkOn, same]
          exact .of_eq (by rw [machines.clock]; rfl) others
            (machines.withEngine extent.le_refl (machines.engine.withBoard boards))
      | read id content =>
          simp only [List.map_cons, Renumbering.step, Machine.walkOn,
            machines.engine.board.value?]
          cases content.value? first.engine.board with
          | none => exact .intro others machines
          | some value => exact .intro others machines

theorem endStep (machines : first.Matches renumber extent second) (id : String) (job : Job)
    {steps : List PlanStep} (results : Values) (within : ∀ step ∈ steps, step.Within extent) :
    Concurs renumber.progress Progress.Within renumber extent (first.endStep id job steps results)
      (second.endStep id job (steps.map renumber.step) results) := by
  obtain ⟨same, boards⟩ := machines.engine.board.finish job
  have ended := machines.withEngine extent.le_refl (machines.engine.withBoard boards)
  simp only [Machine.endStep, same]
  cases (job.finish first.engine.board).1 with
  | ok value => exact .intro within ended
  | error message => exact .intro trivial ended

theorem endVisit (machines : first.Matches renumber extent second) (card : Card)
    (globals : Values) :
    Concurs renumber.progress Progress.Within renumber extent (first.endVisit card globals)
      (second.endVisit card globals) := by
  obtain ⟨same, engines⟩ := machines.engine.visit card globals
  simp only [Machine.endVisit, same]
  exact .intro trivial (machines.withEngine extent.le_refl engines)

theorem whenDue {φ : Type} {change : φ → φ} {within : Extent → φ → Prop}
    (machines : first.Matches renumber extent second) (wake : Nat) {one two : φ × Machine}
    (concurs : Concurs change within renumber extent one two) :
    Option.Rel (Concurs change within renumber extent) (first.whenDue wake one)
      (second.whenDue wake two) := by
  rw [Machine.whenDue, Machine.whenDue, machines.clock]
  split
  · exact .some concurs
  · exact .none

/-- A task is held up in both, or taken the same step further in both. -/
theorem workOn (machines : first.Matches renumber extent second) {progress : Progress}
    (within : progress.Within extent) :
    Option.Rel (Concurs renumber.progress Progress.Within renumber extent)
      (first.workOn progress) (second.workOn (renumber.progress progress)) := by
  cases progress with
  | fresh task =>
      have entered : Option.Rel (Concurs renumber.progress Progress.Within renumber extent)
          (first.atGraphGate server (.fresh task) (Machine.enterTask task))
          (second.atGraphGate server (.fresh (renumber.task task))
            (Machine.enterTask (renumber.task task))) :=
        machines.atGraphGate server within fun claimed => claimed.enterTask within
      cases task with
      | walk plan inputs => exact .some (.intro within machines)
      | fire transition => exact entered
      | node id inputs => exact entered
      | input place value => exact entered
      | event place => exact entered
  | firing flight wake answer => exact machines.whenDue wake (machines.landFiring flight answer)
  | walking steps results => exact .some (machines.walkOn results within)
  | acting id job wake steps results =>
      exact machines.whenDue wake (machines.endStep id job results within)
  | visiting card globals wake => exact machines.whenDue wake (machines.endVisit card globals)
  | ended result => exact .none

theorem giveUp (machines : first.Matches renumber extent second) (service : Service Progress) :
    Concurs renumber.progress Progress.Within renumber extent (first.giveUp service)
      (second.giveUp (service.map renumber.progress)) := by
  have late : second.scheduler.overdue (service.map renumber.progress) =
      first.scheduler.overdue service := by
    rw [machines.scheduler]
    rfl
  have next : (service.map renumber.progress).progress = renumber.progress service.progress := rfl
  rw [Machine.giveUp, Machine.giveUp, late, next]
  cases service.progress with
  | firing flight wake answer =>
      exact (machines.withEngine extent.le_refl (machines.engine.callOff flight)).endTask _
  | _ => exact (machines.withEngine extent.le_refl machines.engine).endTask _

theorem proceed {one two : Progress × Machine}
    (concurs : Concurs renumber.progress Progress.Within renumber extent one two) :
    ∃ wider, (Machine.proceed one).Matches renumber wider (Machine.proceed two) := by
  obtain ⟨progress, one⟩ := one
  obtain ⟨_, two⟩ := two
  obtain ⟨wider, -, same, within, machines⟩ := concurs
  cases same
  refine ⟨wider, ?_⟩
  have noted := machines.withScheduler (machines.waiting.proceed within)
  rwa [← Scheduler.proceed_map, ← machines.scheduler] at noted

/-- The service of a request is held up in both, or goes on in the same way in both. -/
theorem stepService (machines : first.Matches renumber extent second)
    {service : Service Progress} (within : service.progress.Within extent) :
    Option.Rel (fun one two => ∃ wider, Machine.Matches renumber wider one two)
      (first.stepService service) (second.stepService (service.map renumber.progress)) := by
  have next : (service.map renumber.progress).progress = renumber.progress service.progress := rfl
  by_cases ended : ∃ result, service.progress = .ended result
  · obtain ⟨result, ended⟩ := ended
    have concluded := machines.withScheduler (machines.waiting.conclude result)
    rw [← Scheduler.conclude_map, ← machines.scheduler] at concluded
    rw [Machine.stepService, Machine.stepService, next, ended]
    exact .some ⟨extent, concluded⟩
  · have begun : ∀ result, service.progress ≠ .ended result :=
      fun result same => ended ⟨result, same⟩
    have begun' : ∀ result, (service.map renumber.progress).progress ≠ .ended result := by
      intro result same
      rw [next] at same
      cases held : service.progress <;> rw [held] at same <;> cases same
      exact begun result held
    have worked := machines.workOn within
    have late : (service.map renumber.progress).isOverdue second.clock =
        service.isOverdue first.clock := by
      rw [machines.clock]
      rfl
    rw [stepService_eq begun, stepService_eq begun', next, late]
    revert worked
    generalize first.workOn service.progress = one
    generalize second.workOn (renumber.progress service.progress) = two
    rintro (concurs | -)
    · exact .some (Matches.proceed concurs)
    · simp only [Option.map_none, Option.none_or]
      split
      · exact .some (Matches.proceed (machines.giveUp service))
      · exact .none

/-- Worker zero is held up in both, or takes the same step in both. -/
theorem stepServer (machines : first.Matches renumber extent second) :
    Option.Rel (fun one two => ∃ wider, Machine.Matches renumber wider one two) first.stepServer
      second.stepServer := by
  have service : second.scheduler.service =
      first.scheduler.service.map (Service.map renumber.progress) := by
    rw [machines.scheduler]
    rfl
  have turned : second.scheduler.turn Progress.fresh second.clock =
      (first.scheduler.turn Progress.fresh first.clock).map
        (Scheduler.map renumber.task renumber.progress) := by
    rw [machines.scheduler, machines.clock]
    refine Scheduler.turn_map _ _ _ ?_ _
    exact fun task => rfl
  rw [Machine.stepServer, Machine.stepServer, service]
  cases held : first.scheduler.service with
  | none =>
      rw [Option.map_none]
      dsimp only
      rw [turned]
      cases next : first.scheduler.turn Progress.fresh first.clock with
      | none => exact .none
      | some scheduler =>
          exact .some ⟨extent, machines.withScheduler (machines.waiting.turn next)⟩
  | some service => exact machines.stepService (machines.waiting.service service held)

/-! ### Tickers and couriers from outside -/

theorem isTicking (machines : first.Matches renumber extent second) :
    second.isTicking = first.isTicking := by
  have held : second.ticker.bind second.workers.get? =
      (first.ticker.bind first.workers.get?).map renumber.worker := by
    rw [machines.ticker, Option.map_bind]
    exact congrArg (Option.bind first.ticker) (funext machines.workers)
  rw [Machine.isTicking, Machine.isTicking, held]
  rcases first.ticker.bind first.workers.get? with _ | ⟨stage | ticker | courier⟩
  · rfl
  · rfl
  · cases stage : ticker.stage with
    | _ => simp only [Option.map_some, Renumbering.worker, Renumbering.ticker, stage,
        Renumbering.tickStage]
  · rfl

theorem stopTicker (machines : first.Matches renumber extent second) :
    first.stopTicker.Matches renumber extent second.stopTicker := by
  rw [Machine.stopTicker, Machine.stopTicker, machines.ticker]
  cases first.ticker with
  | none => exact machines
  | some number =>
      have gone := machines.withTicker (rfl : none = none)
      dsimp only
      rw [machines.workers number]
      cases found : first.workers.get? number with
      | none => exact gone
      | some worker =>
          cases worker with
          | ticker ticker =>
              have within : ticker.Within extent := machines.staffed number _ found
              exact gone.setWorker number (.ticker { ticker with stopped := true }) within
          | caller stage => exact gone
          | courier courier => exact gone

theorem startTicker (machines : first.Matches renumber extent second) (interval : Option Nat)
    (inputs : Values) :
    (first.startTicker interval inputs).2.Matches renumber extent
      (second.startTicker interval inputs).2 := by
  rw [Machine.startTicker, Machine.startTicker, machines.isTicking]
  split
  · exact machines
  · let ticker : Ticker :=
      ⟨max (interval.getD first.engine.config.interval) 1, inputs, first.clock, false, 0, .waiting⟩
    have joined := machines.enlist (.ticker ticker) trivial
    rw [machines.engine.config, machines.clock]
    exact joined.withTicker (congrArg some machines.nextWorker)

theorem dismiss (machines : first.Matches renumber extent second) (number : Option Nat) :
    (first.dismiss number).Matches renumber extent (second.dismiss number) := by
  cases number with
  | none => exact machines
  | some number =>
      rw [Machine.dismiss, Machine.dismiss, Option.bind_some, Option.bind_some,
        machines.workers number]
      cases found : first.workers.get? number with
      | none => exact machines
      | some worker =>
          cases worker with
          | courier courier =>
              have within : courier.Within extent := machines.staffed number _ found
              exact machines.setWorker number (.courier { courier with dismissed := true }) within
          | caller stage => exact machines
          | ticker ticker => exact machines

theorem assign (machines : first.Matches renumber extent second) {channel : Nat}
    (within : channel < extent.slots) :
    (first.assign channel).Matches renumber extent (second.assign (renumber.channel channel)) := by
  have joined := machines.enlist (.courier ⟨channel, false, .waiting⟩) ⟨within, trivial⟩
  exact joined.withCourier (congrArg some machines.nextWorker)

/-! ### Callers -/

theorem beginCall (machines : first.Matches renumber extent second) (call : Call) :
    Concurs renumber.callStage CallStage.Within renumber extent (first.beginCall call)
      (second.beginCall call) := by
  cases call with
  | pause milliseconds =>
      cases milliseconds with
      | zero => exact .intro trivial machines
      | succ less =>
          exact .of_eq (congrArg (fun clock => CallStage.pausing (clock + (less + 1))) machines.clock)
            trivial machines
  | restart config cards globals => exact .intro trivial machines.stopTicker
  | discard => exact .intro trivial machines.stopTicker
  | _ => exact .intro trivial machines

theorem buildGraph (machines : first.Matches renumber extent second) (config : GraphConfig)
    (cards : List Card) (globals : Option Values) (restart : Bool) :
    Concurs renumber.callStage CallStage.Within renumber extent
      (Machine.buildGraph config cards globals restart first)
      (Machine.buildGraph config cards globals restart second) := by
  obtain ⟨wider, grows, same, within, engines⟩ := machines.engine.build config cards globals
  have built := machines.withEngine grows engines
  simp only [Machine.buildGraph, same]
  cases made : (first.engine.build config cards globals).1 with
  | error failure => exact (Concurs.intro trivial built).widen grows
  | ok graph => exact (Concurs.intro (within graph made) built).widen grows

theorem resolveNode (machines : first.Matches renumber extent second) (worker : Nat) (id : String)
    (inputs : Values) :
    Concurs renumber.callStage CallStage.Within renumber extent
      (Machine.resolveNode worker id inputs first) (Machine.resolveNode worker id inputs second) := by
  have left := machines.leaveGraph worker
  obtain ⟨same, within⟩ := machines.engine.nodeRequest id inputs
  simp only [Machine.resolveNode, Machine.within, same]
  cases found : first.engine.nodeRequest id inputs with
  | error failure => exact .intro trivial left
  | ok request => exact .intro (within request found) left

theorem splice (machines : first.Matches renumber extent second) (worker : Nat)
    (change : Rewiring) :
    Concurs renumber.callStage CallStage.Within renumber extent
      (Machine.splice worker change first) (Machine.splice worker change second) := by
  cases change with
  | add connection =>
      obtain ⟨result, one, two, wider, made, made', grows, after⟩ :=
        machines.engine.addConnection connection
      simp only [Machine.splice, Machine.within, rewire, made, made']
      exact (Concurs.intro trivial ((machines.withEngine grows after).leaveGraph worker)).widen grows
  | remove id =>
      obtain ⟨result, one, two, wider, made, made', grows, after⟩ :=
        machines.engine.removeConnection id
      simp only [Machine.splice, Machine.within, rewire, made, made']
      exact (Concurs.intro trivial ((machines.withEngine grows after).leaveGraph worker)).widen grows

theorem requestTask (machines : first.Matches renumber extent second) {request : Request Task}
    (within : request.task.Within extent) :
    Concurs renumber.callStage CallStage.Within renumber extent (first.requestTask request)
      (second.requestTask (request.map renumber.task)) := by
  obtain ⟨result, one, two, wider, sent, sent', grows, after⟩ := machines.send request within
  rw [Machine.requestTask, Machine.requestTask, sent, sent']
  cases result with
  | error failure => exact (Concurs.intro trivial after).widen grows
  | ok ticket => exact (Concurs.intro trivial after).widen grows

theorem afterRun (machines : first.Matches renumber extent second) (restart : Bool)
    {stage : RunStage} (within : stage.Within extent) :
    Concurs renumber.callStage CallStage.Within renumber extent (first.afterRun restart stage)
      (second.afterRun restart (renumber.runStage stage)) := by
  cases stage with
  | «over» result =>
      cases result with
      | error failure => exact .intro trivial machines
      | ok outputs =>
          cases restart with
          | false => exact .intro trivial machines
          | true => exact .intro trivial (machines.startTicker none ∅)
  | _ => exact .intro within machines

theorem endBuild (machines : first.Matches renumber extent second) (worker : Nat)
    (result : Except Failure Answer) (restart : Bool) :
    Concurs renumber.callStage CallStage.Within renumber extent
      (first.endBuild worker result restart) (second.endBuild worker result restart) := by
  cases restart <;> exact .intro trivial (machines.leaveRun worker)

theorem clear (machines : first.Matches renumber extent second) (worker : Nat) :
    Concurs renumber.callStage CallStage.Within renumber extent (Machine.clear worker first)
      (Machine.clear worker second) :=
  .intro trivial ((machines.withEngine extent.le_refl machines.engine.discard).leaveGraph worker)

theorem installGraph (machines : first.Matches renumber extent second) (worker : Nat)
    {graph : Graph} (restart : Bool) (within : graph.Within extent) :
    Concurs renumber.callStage CallStage.Within renumber extent
      (Machine.installGraph worker graph restart first)
      (Machine.installGraph worker (renumber.graph graph) restart second) :=
  .intro within
    ((machines.withEngine extent.le_refl (machines.engine.install within)).leaveGraph worker)

/-- What follows a step follows it in both. -/
theorem follow {φ ψ : Type} {change : φ → φ} {within : Extent → φ → Prop} {change' : ψ → ψ}
    {within' : Extent → ψ → Prop} {one two : Option (φ × Machine)}
    (next other : φ → Machine → ψ × Machine)
    (moved : Option.Rel (Concurs change within renumber extent) one two)
    (follows : ∀ {wider stage one two}, extent ≤ wider → within wider stage →
      Matches renumber wider one two →
      Concurs change' within' renumber wider (next stage one) (other (change stage) two)) :
    Option.Rel (Concurs change' within' renumber extent)
      (one.map fun (stage, machine) => next stage machine)
      (two.map fun (stage, machine) => other stage machine) := by
  rcases moved with @⟨⟨stage, machine⟩, ⟨_, matching⟩, wider, grows, same, known, machines⟩ | -
  · cases same
    exact .some ((follows grows known machines).widen grows)
  · exact .none

/-- A call is held up in both, or takes the same step in both. -/
theorem stepCall (machines : first.Matches renumber extent second) (worker : Nat)
    {stage : CallStage} (within : stage.Within extent) :
    Option.Rel (Concurs renumber.callStage CallStage.Within renumber extent)
      (first.stepCall worker stage) (second.stepCall worker (renumber.callStage stage)) := by
  cases stage with
  | fresh call => exact .some (machines.beginCall call)
  | building config cards globals restart =>
      exact machines.atRunGate worker trivial fun claimed =>
        claimed.buildGraph config cards globals restart
  | installing graph restart =>
      exact machines.atGraphGate worker within fun claimed =>
        claimed.installGraph worker restart within
  | assigning graph restart =>
      refine .some (.of_eq ?_ trivial (machines.assign within.channel))
      rw [machines.courier, Graph.report_graph]
      rfl
  | dismissing old report restart => exact .some (.intro trivial (machines.dismiss old))
  | running run restart =>
      exact follow (fun stage machine => machine.afterRun restart stage)
        (fun stage machine => machine.afterRun restart stage) (machines.stepRun worker within)
        fun _ known after => after.afterRun restart known
  | resolving id inputs =>
      exact machines.atGraphGate worker trivial fun claimed => claimed.resolveNode worker id inputs
  | requesting request => exact .some (machines.requestTask within)
  | awaiting ticket =>
      simp only [Renumbering.callStage, Machine.stepCall, machines.result?]
      cases first.scheduler.result? ticket with
      | none => exact .none
      | some result => exact .some (.intro trivial machines)
  | rewiring change =>
      exact machines.atRunGate worker trivial fun claimed => .intro trivial claimed
  | splicing change =>
      exact machines.atGraphGate worker trivial fun claimed => claimed.splice worker change
  | closingDown =>
      have dismissed := machines.dismiss first.courier
      refine .some (.intro trivial ?_)
      rw [machines.courier]
      exact dismissed.withCourier rfl
  | discarding => exact machines.atRunGate worker trivial fun claimed => .intro trivial claimed
  | clearing => exact machines.atGraphGate worker trivial fun claimed => claimed.clear worker
  | looking =>
      exact machines.atGraphGate worker trivial fun claimed =>
        .intro trivial (claimed.leaveGraph worker)
  | pausing wake => exact machines.whenDue wake (.intro trivial machines)
  | leaving result restart => exact .some (machines.endBuild worker result restart)
  | answered result => exact .none

/-! ### Tickers and couriers -/

theorem stepTicker (machines : first.Matches renumber extent second) (worker : Nat)
    {ticker : Ticker} (within : ticker.Within extent) :
    Option.Rel (Concurs renumber.ticker Ticker.Within renumber extent)
      (first.stepTicker worker ticker) (second.stepTicker worker (renumber.ticker ticker)) := by
  obtain ⟨interval, inputs, due, stopped, ticks, stage⟩ := ticker
  cases stage with
  | waiting =>
      simp only [Renumbering.ticker, Renumbering.tickStage, Machine.stepTicker, machines.clock]
      split
      · exact .some (.intro trivial machines)
      · split
        · exact .some (.intro trivial machines)
        · exact .none
  | running run =>
      refine follow (fun stage machine => (afterTick _ stage, machine))
        (fun stage machine => (afterTick _ stage, machine)) (machines.stepRun worker within)
        fun {wider stage one two} _ known after => ?_
      cases stage with
      | «over» result => cases result <;> exact .intro trivial after
      | _ => exact .intro known after
  | ended => exact .none

theorem fetch (machines : first.Matches renumber extent second) {channel : Nat}
    (within : channel < extent.slots) :
    Option.Rel (fun one two => two.1 = one.1 ∧ one.2.Matches renumber extent two.2)
      (first.fetch channel) (second.fetch (renumber.channel channel)) := by
  have same := machines.engine.board.channels channel within
  rw [Machine.fetch, Machine.fetch, same]
  cases (first.engine.board.channel channel).mail with
  | nil => exact .none
  | cons letter mail =>
      exact .some ⟨rfl, machines.withEngine extent.le_refl (machines.engine.withBoard
        (machines.engine.board.modifyChannel within fun held => { held with mail := mail }))⟩

theorem withdraw (machines : first.Matches renumber extent second) (worker : Nat)
    (stage : CourierStage) :
    Option.Rel (Concurs renumber.courierStage CourierStage.Within renumber extent)
      (first.withdraw worker stage) (second.withdraw worker (renumber.courierStage stage)) := by
  cases stage with
  | ended => exact .none
  | withdrawing => exact .some (.intro trivial (machines.leaveRun worker))
  | _ => exact .some (.intro trivial (machines.leaveGraph worker))

theorem deliver (machines : first.Matches renumber extent second) (worker : Nat) {channel : Nat}
    {stage : CourierStage} (known : channel < extent.slots) (within : stage.Within extent) :
    Option.Rel (Concurs renumber.courierStage CourierStage.Within renumber extent)
      (first.deliver worker channel stage)
      (second.deliver worker (renumber.channel channel) (renumber.courierStage stage)) := by
  cases stage with
  | waiting =>
      have fetched := machines.fetch known
      revert fetched
      simp only [Renumbering.courierStage, Machine.deliver]
      generalize first.fetch channel = one
      generalize second.fetch (renumber.channel channel) = two
      rintro (⟨same, after⟩ | -)
      · exact .some (.of_eq (congrArg CourierStage.reporting same) trivial after)
      · exact .none
  | reporting place =>
      obtain ⟨result, one, two, wider, sent, sent', grows, after⟩ :=
        machines.send (Task.eventRecord place) trivial
      have sent'' : second.send (Task.eventRecord place) = (result, two) := sent'
      simp only [Renumbering.courierStage, Machine.deliver, sent, sent'']
      cases result with
      | error failure => exact .some ((Concurs.intro trivial after).widen grows)
      | ok ticket => exact .some ((Concurs.intro trivial after).widen grows)
  | recording ticket =>
      simp only [Renumbering.courierStage, Machine.deliver, machines.result?]
      cases first.scheduler.result? ticket with
      | none => exact .none
      | some result => cases result <;> exact .some (.intro trivial machines)
  | running run =>
      refine follow (fun stage machine => (afterDelivery stage, machine))
        (fun stage machine => (afterDelivery stage, machine)) (machines.stepRun worker within)
        fun {wider stage one two} _ known after => ?_
      cases stage with
      | «over» result => exact .intro trivial after
      | _ => exact .intro known after
  | withdrawing => exact .none
  | ended => exact .none

theorem stepCourier (machines : first.Matches renumber extent second) (worker : Nat)
    {courier : Courier} (within : courier.Within extent) :
    Option.Rel (Concurs renumber.courier Courier.Within renumber extent)
      (first.stepCourier worker courier)
      (second.stepCourier worker (renumber.courier courier)) := by
  have moved : Option.Rel (Concurs renumber.courierStage CourierStage.Within renumber extent)
      (if courier.dismissed then first.withdraw worker courier.stage
        else first.deliver worker courier.channel courier.stage)
      (if courier.dismissed then second.withdraw worker (renumber.courierStage courier.stage)
        else second.deliver worker (renumber.channel courier.channel)
          (renumber.courierStage courier.stage)) := by
    split
    · exact machines.withdraw worker courier.stage
    · exact machines.deliver worker within.1 within.2
  refine follow (fun stage machine => ({ courier with stage := stage }, machine))
    (fun stage machine => ({ renumber.courier courier with stage := stage }, machine)) moved ?_
  exact fun grows known after => .intro ⟨Nat.lt_of_lt_of_le within.1 grows.1, known⟩ after

/-! ### All workers -/

/-- A worker is held up in both, or takes the same step in both. -/
theorem step (machines : first.Matches renumber extent second) (number : Nat) :
    Option.Rel (fun one two => ∃ wider, Machine.Matches renumber wider one two) (first.step number)
      (second.step number) := by
  have put : ∀ {φ : Type} {change : φ → φ} {within : Extent → φ → Prop} (worker : φ → Worker)
      {one two : Option (φ × Machine)},
      (∀ stage, renumber.worker (worker stage) = worker (change stage)) →
      (∀ extent stage, within extent stage → (worker stage).Within extent) →
      Option.Rel (Concurs change within renumber extent) one two →
      Option.Rel (fun one two => ∃ wider, Machine.Matches renumber wider one two)
        (one.map fun (stage, machine) => machine.setWorker number (worker stage))
        (two.map fun (stage, machine) => machine.setWorker number (worker stage)) := by
    rintro φ change within worker one two changes contains (⟨wider, -, same, known, after⟩ | -)
    · next left right =>
        obtain ⟨stage, machine⟩ := left
        obtain ⟨_, other⟩ := right
        cases same
        refine .some ⟨wider, ?_⟩
        have set := after.setWorker number (worker stage) (contains wider stage known)
        rwa [changes] at set
    · exact .none
  rw [Machine.step, Machine.step]
  split
  · exact machines.stepServer
  · rw [machines.workers number]
    cases found : first.workers.get? number with
    | none => exact .none
    | some worker =>
        have within := machines.staffed number worker found
        cases worker with
        | caller stage =>
            exact put .caller (fun _ => rfl) (fun _ _ known => known)
              (machines.stepCall number within)
        | ticker ticker =>
            exact put .ticker (fun _ => rfl) (fun _ _ known => known)
              (machines.stepTicker number within)
        | courier courier =>
            exact put .courier (fun _ => rfl) (fun _ _ known => known)
              (machines.stepCourier number within)

end Matches

end Machine

end CardNet
