import CardNet.Proofs.Engine.Frames
import CardNet.Proofs.Engine.RenumberedEngines

/-!
# Machines on matching boards

The numbers in a machine stand in its engine, in the tasks that wait or are served, and in what the
workers hold. With other numbers it is the same machine (`Machine.Matches`): every worker is held up in
both or takes the same step in both, and what it leaves are such machines again (`Machine.Matches.step`).
-/

namespace CardNet

namespace Renumbering

variable (renumber : Renumbering)

def progress : Progress → Progress
  | .fresh task => .fresh (renumber.task task)
  | .firing flight wake answer => .firing (renumber.flight flight) wake answer
  | .walking steps results => .walking (steps.map renumber.step) results
  | .acting id job wake steps results => .acting id job wake (steps.map renumber.step) results
  | .visiting card globals wake => .visiting card globals wake
  | .ended result => .ended result

def runStage : RunStage → RunStage
  | .planned inputs plan => .planned inputs (renumber.plan plan)
  | stage => stage

def callStage : CallStage → CallStage
  | .installing graph restart => .installing (renumber.graph graph) restart
  | .assigning graph restart => .assigning (renumber.graph graph) restart
  | .running stage restart => .running (renumber.runStage stage) restart
  | .requesting request => .requesting (request.map renumber.task)
  | stage => stage

def tickStage : TickStage → TickStage
  | .running stage => .running (renumber.runStage stage)
  | stage => stage

def ticker (ticker : Ticker) : Ticker := { ticker with stage := renumber.tickStage ticker.stage }

def courierStage : CourierStage → CourierStage
  | .running stage => .running (renumber.runStage stage)
  | stage => stage

def courier (courier : Courier) : Courier :=
  { courier with
    channel := renumber.channel courier.channel
    stage := renumber.courierStage courier.stage }

def worker : Worker → Worker
  | .caller stage => .caller (renumber.callStage stage)
  | .ticker ticker => .ticker (renumber.ticker ticker)
  | .courier courier => .courier (renumber.courier courier)

end Renumbering

@[simp] theorem Graph.report_graph (renumber : Renumbering) (graph : Graph) :
    (renumber.graph graph).report = graph.report := by
  have count : (graph.net.transitions.map fun _ => renumber.action).size =
      graph.net.transitions.size := List.length_map ..
  simp only [Graph.report, Renumbering.graph, Renumbering.circuit, Net.mapActions, count]
  rfl

/-! ## What was given out -/

def Progress.Within (extent : Extent) : Progress → Prop
  | .fresh task => task.Within extent
  | .firing flight _ _ => flight.firing.action.Within extent
  | .walking steps _ | .acting _ _ _ steps _ => ∀ step ∈ steps, step.Within extent
  | .visiting .. | .ended _ => True

def RunStage.Within (extent : Extent) : RunStage → Prop
  | .planned _ plan => plan.Within extent
  | _ => True

def CallStage.Within (extent : Extent) : CallStage → Prop
  | .installing graph _ | .assigning graph _ => graph.Within extent
  | .running stage _ => stage.Within extent
  | .requesting request => request.task.Within extent
  | _ => True

def TickStage.Within (extent : Extent) : TickStage → Prop
  | .running stage => stage.Within extent
  | _ => True

def CourierStage.Within (extent : Extent) : CourierStage → Prop
  | .running stage => stage.Within extent
  | _ => True

def Ticker.Within (extent : Extent) (ticker : Ticker) : Prop := ticker.stage.Within extent

def Courier.Within (extent : Extent) (courier : Courier) : Prop :=
  courier.channel < extent.slots ∧ courier.stage.Within extent

def Worker.Within (extent : Extent) : Worker → Prop
  | .caller stage => stage.Within extent
  | .ticker held => held.Within extent
  | .courier held => held.Within extent

section

variable {extent wider : Extent}

theorem PlanStep.Within.mono {step : PlanStep} (within : step.Within extent)
    (grows : extent ≤ wider) : step.Within wider := by
  cases step with
  | act id action => exact Action.Within.mono within grows
  | read id content => trivial

theorem Progress.Within.mono {progress : Progress} (within : progress.Within extent)
    (grows : extent ≤ wider) : progress.Within wider := by
  cases progress with
  | fresh task => exact Task.Within.mono within grows
  | firing flight wake answer => exact Action.Within.mono within grows
  | walking steps results => exact fun step member => (within step member).mono grows
  | acting id job wake steps results => exact fun step member => (within step member).mono grows
  | visiting card globals wake => trivial
  | ended result => trivial

theorem RunStage.Within.mono {stage : RunStage} (within : stage.Within extent)
    (grows : extent ≤ wider) : stage.Within wider := by
  cases stage with
  | planned inputs plan => exact Plan.Within.mono within grows
  | _ => trivial

theorem CallStage.Within.mono {stage : CallStage} (within : stage.Within extent)
    (grows : extent ≤ wider) : stage.Within wider := by
  cases stage with
  | installing graph restart => exact Graph.Within.mono within grows
  | assigning graph restart => exact Graph.Within.mono within grows
  | running stage restart => exact RunStage.Within.mono within grows
  | requesting request => exact Task.Within.mono within grows
  | _ => trivial

theorem TickStage.Within.mono {stage : TickStage} (within : stage.Within extent)
    (grows : extent ≤ wider) : stage.Within wider := by
  cases stage with
  | running stage => exact RunStage.Within.mono within grows
  | _ => trivial

theorem CourierStage.Within.mono {stage : CourierStage} (within : stage.Within extent)
    (grows : extent ≤ wider) : stage.Within wider := by
  cases stage with
  | running stage => exact RunStage.Within.mono within grows
  | _ => trivial

theorem Worker.Within.mono {worker : Worker} (within : worker.Within extent)
    (grows : extent ≤ wider) : worker.Within wider := by
  cases worker with
  | caller stage => exact CallStage.Within.mono within grows
  | ticker ticker => exact TickStage.Within.mono within grows
  | courier courier =>
      exact ⟨Nat.lt_of_lt_of_le within.1 grows.1, CourierStage.Within.mono within.2 grows⟩

end

/-! ## Machines -/

/-- The numbers in what a scheduler keeps were given out. -/
structure Scheduler.Within (scheduler : Scheduler Task Progress) (extent : Extent) : Prop where
  requests : ∀ held ∈ scheduler.requests, held.2.task.Within extent
  service : ∀ service, scheduler.service = some service → service.progress.Within extent

/-- Machines that differ in numbers alone. -/
structure Machine.Matches (renumber : Renumbering) (extent : Extent) (first second : Machine) :
    Prop where
  engine : first.engine.Matches renumber extent second.engine
  scheduler : second.scheduler = first.scheduler.map renumber.task renumber.progress
  waiting : first.scheduler.Within extent
  runGate : second.runGate = first.runGate
  graphGate : second.graphGate = first.graphGate
  clock : second.clock = first.clock
  workers : ∀ number,
    second.workers.get? number = (first.workers.get? number).map renumber.worker
  staffed : ∀ number worker, first.workers.get? number = some worker → worker.Within extent
  ticker : second.ticker = first.ticker
  courier : second.courier = first.courier
  nextWorker : second.nextWorker = first.nextWorker

namespace Scheduler.Within

variable {scheduler after : Scheduler Task Progress} {extent wider : Extent}

theorem mono (within : scheduler.Within extent) (grows : extent ≤ wider) :
    scheduler.Within wider where
  requests := fun held member => (within.requests held member).mono grows
  service := fun service held => (within.service service held).mono grows

theorem send (within : scheduler.Within extent) {request : Request Task} {ticket : Nat}
    (known : request.task.Within extent) (sent : scheduler.send request = .ok (ticket, after)) :
    after.Within extent := by
  obtain ⟨-, same, perm⟩ := Scheduler.send_spec sent
  refine ⟨fun held member => ?_, by rw [same]; exact within.service⟩
  rcases List.mem_cons.mp (perm.mem_iff.mp member) with rfl | before
  · exact known
  · exact within.requests held before

theorem turn (within : scheduler.Within extent) {now : Nat}
    (turned : scheduler.turn Progress.fresh now = some after) : after.Within extent := by
  obtain ⟨-, free, rfl | ⟨ticket, request, queue, popped, rfl⟩⟩ := Scheduler.turn_cases turned
  · exact ⟨nofun, fun service held => nomatch free.symm.trans held⟩
  · have split : scheduler.requests = (ticket, request) :: queue.toList :=
      Queue.toList_of_pop popped
    have rest := within.requests
    rw [split, List.forall_mem_cons] at rest
    exact ⟨rest.2, fun service held => by cases held; exact rest.1⟩

theorem proceed (within : scheduler.Within extent) {progress : Progress}
    (known : progress.Within extent) : (scheduler.proceed progress).Within extent where
  requests := within.requests
  service := by
    intro service held
    obtain ⟨before, -, rfl⟩ := Option.map_eq_some_iff.mp held
    exact known

theorem conclude (within : scheduler.Within extent) (result : Except Failure Value) :
    (scheduler.conclude result).Within extent where
  requests := by
    rw [Scheduler.requests, Scheduler.sorted_conclude]
    exact within.requests
  service := by
    intro service held
    rw [Scheduler.conclude] at held
    cases before : scheduler.service with
    | none =>
        rw [before] at held
        cases before.symm.trans held
    | some other =>
        rw [before] at held
        cases held

end Scheduler.Within

namespace Machine

variable {renumber : Renumbering} {extent wider : Extent}

/-- A stage with a machine, and the same stage in other numbers with one that matches, after more
numbers may have been given out. -/
def Concurs {φ : Type} (change : φ → φ) (within : Extent → φ → Prop) (renumber : Renumbering)
    (extent : Extent) (first second : φ × Machine) : Prop :=
  ∃ wider, extent ≤ wider ∧ second.1 = change first.1 ∧ within wider first.1 ∧
    first.2.Matches renumber wider second.2

theorem Concurs.of_eq {φ : Type} {change : φ → φ} {within : Extent → φ → Prop} {stage other : φ}
    {one two : Machine} (same : other = change stage) (known : within extent stage)
    (machines : one.Matches renumber extent two) :
    Concurs change within renumber extent (stage, one) (other, two) :=
  ⟨extent, extent.le_refl, same, known, machines⟩

theorem Concurs.intro {φ : Type} {change : φ → φ} {within : Extent → φ → Prop} {stage : φ}
    {one two : Machine} (known : within extent stage) (machines : one.Matches renumber extent two) :
    Concurs change within renumber extent (stage, one) (change stage, two) :=
  .of_eq rfl known machines

theorem Concurs.widen {φ : Type} {change : φ → φ} {within : Extent → φ → Prop}
    {first second : φ × Machine} (concurs : Concurs change within renumber wider first second)
    (grows : extent ≤ wider) : Concurs change within renumber extent first second := by
  obtain ⟨widest, further, same, known, machines⟩ := concurs
  exact ⟨widest, Extent.le_trans grows further, same, known, machines⟩

namespace Matches

variable {first second : Machine}

/-! ### Parts of a machine -/

theorem withEngine (machines : first.Matches renumber extent second) {one two : Engine}
    (grows : extent ≤ wider) (engines : one.Matches renumber wider two) :
    Matches renumber wider { first with engine := one } { second with engine := two } where
  engine := engines
  scheduler := machines.scheduler
  waiting := machines.waiting.mono grows
  runGate := machines.runGate
  graphGate := machines.graphGate
  clock := machines.clock
  workers := machines.workers
  staffed := fun number worker held => (machines.staffed number worker held).mono grows
  ticker := machines.ticker
  courier := machines.courier
  nextWorker := machines.nextWorker

theorem withScheduler (machines : first.Matches renumber extent second)
    {scheduler : Scheduler Task Progress} (within : scheduler.Within extent) :
    Matches renumber extent { first with scheduler := scheduler }
      { second with scheduler := scheduler.map renumber.task renumber.progress } :=
  ⟨machines.engine, rfl, within, machines.runGate, machines.graphGate, machines.clock,
    machines.workers, machines.staffed, machines.ticker, machines.courier, machines.nextWorker⟩

theorem withRunGate (machines : first.Matches renumber extent second) (gate : Gate) :
    Matches renumber extent { first with runGate := gate } { second with runGate := gate } :=
  ⟨machines.engine, machines.scheduler, machines.waiting, rfl, machines.graphGate, machines.clock,
    machines.workers, machines.staffed, machines.ticker, machines.courier, machines.nextWorker⟩

theorem withGraphGate (machines : first.Matches renumber extent second) (gate : Gate) :
    Matches renumber extent { first with graphGate := gate } { second with graphGate := gate } :=
  ⟨machines.engine, machines.scheduler, machines.waiting, machines.runGate, rfl, machines.clock,
    machines.workers, machines.staffed, machines.ticker, machines.courier, machines.nextWorker⟩

theorem withClock (machines : first.Matches renumber extent second) (time : Nat) :
    Matches renumber extent { first with clock := time } { second with clock := time } :=
  ⟨machines.engine, machines.scheduler, machines.waiting, machines.runGate, machines.graphGate, rfl,
    machines.workers, machines.staffed, machines.ticker, machines.courier, machines.nextWorker⟩

theorem withTicker (machines : first.Matches renumber extent second) {ticker other : Option Nat}
    (same : other = ticker) :
    Matches renumber extent { first with ticker := ticker } { second with ticker := other } :=
  ⟨machines.engine, machines.scheduler, machines.waiting, machines.runGate, machines.graphGate,
    machines.clock, machines.workers, machines.staffed, same, machines.courier, machines.nextWorker⟩

theorem withCourier (machines : first.Matches renumber extent second) {courier other : Option Nat}
    (same : other = courier) :
    Matches renumber extent { first with courier := courier } { second with courier := other } :=
  ⟨machines.engine, machines.scheduler, machines.waiting, machines.runGate, machines.graphGate,
    machines.clock, machines.workers, machines.staffed, machines.ticker, same, machines.nextWorker⟩

theorem setWorker (machines : first.Matches renumber extent second) (number : Nat)
    (worker : Worker) (within : worker.Within extent) :
    (first.setWorker number worker).Matches renumber extent
      (second.setWorker number (renumber.worker worker)) where
  engine := machines.engine
  scheduler := machines.scheduler
  waiting := machines.waiting
  runGate := machines.runGate
  graphGate := machines.graphGate
  clock := machines.clock
  workers := by
    intro other
    rw [get?_setWorker, get?_setWorker]
    split
    · rfl
    · exact machines.workers other
  staffed := by
    intro other held
    rw [get?_setWorker]
    split
    · rintro ⟨⟩
      exact within
    · exact machines.staffed other held
  ticker := machines.ticker
  courier := machines.courier
  nextWorker := machines.nextWorker

theorem enlist (machines : first.Matches renumber extent second) (worker : Worker)
    (within : worker.Within extent) :
    (first.enlist worker).2.Matches renumber extent
      (second.enlist (renumber.worker worker)).2 := by
  have joined := machines.setWorker first.nextWorker worker within
  rw [Machine.enlist, Machine.enlist, machines.nextWorker]
  exact ⟨joined.engine, joined.scheduler, joined.waiting, joined.runGate, joined.graphGate,
    joined.clock, joined.workers, joined.staffed, joined.ticker, joined.courier, rfl⟩

theorem leaveRun (machines : first.Matches renumber extent second) (worker : Nat) :
    (first.leaveRun worker).Matches renumber extent (second.leaveRun worker) := by
  rw [Machine.leaveRun, Machine.leaveRun, machines.runGate]
  exact machines.withRunGate _

theorem leaveGraph (machines : first.Matches renumber extent second) (worker : Nat) :
    (first.leaveGraph worker).Matches renumber extent (second.leaveGraph worker) := by
  rw [Machine.leaveGraph, Machine.leaveGraph, machines.graphGate]
  exact machines.withGraphGate _

theorem send (machines : first.Matches renumber extent second) (request : Request Task)
    (within : request.task.Within extent) :
    Concur (Matches renumber) extent (first.send request)
      (second.send (request.map renumber.task)) := by
  rw [Machine.send, Machine.send, machines.scheduler, Scheduler.send_map]
  cases sent : first.scheduler.send request with
  | error failure => exact .intro machines
  | ok accepted => exact .intro (machines.withScheduler (machines.waiting.send within sent))

/-! ### Gates -/

section

variable {φ : Type} {change : φ → φ} {known : Extent → φ → Prop} {stage : φ}
  {work other : Machine → φ × Machine}

theorem atRunGate (machines : first.Matches renumber extent second) (worker : Nat)
    (within : known extent stage)
    (works : ∀ {one two : Machine}, one.Matches renumber extent two →
      Concurs change known renumber extent (work one) (other two)) :
    Option.Rel (Concurs change known renumber extent) (first.atRunGate worker stage work)
      (second.atRunGate worker (change stage) other) := by
  have claimed := machines.withRunGate (first.runGate.claim worker)
  rw [Machine.atRunGate, Machine.atRunGate, machines.runGate]
  split
  · exact .some (works claimed)
  · split
    · exact .none
    · exact .some (.intro within claimed)

theorem atGraphGate (machines : first.Matches renumber extent second) (worker : Nat)
    (within : known extent stage)
    (works : ∀ {one two : Machine}, one.Matches renumber extent two →
      Concurs change known renumber extent (work one) (other two)) :
    Option.Rel (Concurs change known renumber extent) (first.atGraphGate worker stage work)
      (second.atGraphGate worker (change stage) other) := by
  have claimed := machines.withGraphGate (first.graphGate.claim worker)
  rw [Machine.atGraphGate, Machine.atGraphGate, machines.graphGate]
  split
  · exact .some (works claimed)
  · split
    · exact .none
    · exact .some (.intro within claimed)

end

/-! ### Runs -/

theorem openRun (machines : first.Matches renumber extent second) (worker : Nat)
    (inputs : Values) (force : Bool) :
    Concurs renumber.runStage RunStage.Within renumber extent
      (Machine.openRun worker inputs force first) (Machine.openRun worker inputs force second) := by
  obtain ⟨same, engines⟩ := machines.engine.opening inputs force
  have left := (machines.withEngine extent.le_refl engines).leaveGraph worker
  simp only [Machine.openRun, Machine.within, same]
  rcases (first.engine.opening inputs force).1 with failure | ⟨outputs | merged | merged⟩
  · exact .intro trivial left
  · exact .intro trivial left
  · exact .intro trivial left
  · exact .intro trivial left

theorem listPass (machines : first.Matches renumber extent second) (worker : Nat)
    (inputs : Values) (fired : Nat) :
    Concurs renumber.runStage RunStage.Within renumber extent
      (Machine.listPass worker inputs fired first)
      (Machine.listPass worker inputs fired second) := by
  have left := machines.leaveGraph worker
  simp only [Machine.listPass, Machine.within, machines.engine.transitions]
  cases first.engine.transitions with
  | error failure => exact .intro trivial left
  | ok transitions => exact .intro trivial left

theorem tryNext (machines : first.Matches renumber extent second) (inputs : Values) (fired : Nat)
    (progressed : Bool) (transitions : List String) :
    Concurs renumber.runStage RunStage.Within renumber extent
      (first.tryNext inputs fired progressed transitions)
      (second.tryNext inputs fired progressed transitions) := by
  cases transitions with
  | nil => cases progressed <;> exact .intro trivial machines
  | cons transition rest =>
      obtain ⟨result, one, two, wider, sent, sent', grows, after⟩ :=
        machines.send (Task.firing transition) trivial
      have sent'' : second.send (Task.firing transition) = (result, two) := sent'
      rw [Machine.tryNext, Machine.tryNext, sent, sent'']
      cases result with
      | error failure => exact (Concurs.intro trivial after).widen grows
      | ok ticket => exact (Concurs.intro trivial after).widen grows

theorem findPlan (machines : first.Matches renumber extent second) (worker : Nat)
    (inputs : Values) :
    Concurs renumber.runStage RunStage.Within renumber extent
      (Machine.findPlan worker inputs first) (Machine.findPlan worker inputs second) := by
  have left := machines.leaveGraph worker
  obtain ⟨same, within⟩ := machines.engine.plan
  simp only [Machine.findPlan, Machine.within, same]
  cases found : first.engine.plan with
  | error failure => exact .intro trivial left
  | ok plan =>
      cases plan with
      | none => exact .intro trivial left
      | some plan => exact .intro (within plan found) left

theorem closeRun (machines : first.Matches renumber extent second) (worker : Nat)
    (inputs : Values) (results : Option Values) :
    Concurs renumber.runStage RunStage.Within renumber extent
      (Machine.closeRun worker inputs results first)
      (Machine.closeRun worker inputs results second) := by
  obtain ⟨same, engines⟩ := machines.engine.close inputs results
  simp only [Machine.closeRun, Machine.within, same]
  exact .intro trivial ((machines.withEngine extent.le_refl engines).leaveGraph worker)

theorem endRun (machines : first.Matches renumber extent second) (worker : Nat)
    (result : Except Failure Values) :
    Concurs renumber.runStage RunStage.Within renumber extent (first.endRun worker result)
      (second.endRun worker result) := by
  cases result with
  | ok outputs =>
      exact .intro trivial
        ((machines.withEngine extent.le_refl machines.engine).leaveRun worker)
  | error failure =>
      exact .intro trivial
        ((machines.withEngine extent.le_refl machines.engine.forget).leaveRun worker)

theorem result? (machines : first.Matches renumber extent second) (ticket : Nat) :
    second.scheduler.result? ticket = first.scheduler.result? ticket := by
  rw [machines.scheduler, Scheduler.result?_map]

theorem afterFiring (machines : first.Matches renumber extent second) (limit : Nat)
    (inputs : Values) (fired : Nat) (progressed : Bool) (rest : List String)
    (result : Except Failure Value) :
    Concurs renumber.runStage RunStage.Within renumber extent
      (Machine.afterFiring limit inputs fired progressed rest result, first)
      (Machine.afterFiring limit inputs fired progressed rest result, second) := by
  unfold Machine.afterFiring
  split
  · exact .intro trivial machines
  · split
    · exact .intro trivial machines
    · exact .intro trivial machines
  · exact .intro trivial machines

/-- A run is held up in both, or takes the same step in both. -/
theorem stepRun (machines : first.Matches renumber extent second) (worker : Nat)
    {stage : RunStage} (within : stage.Within extent) :
    Option.Rel (Concurs renumber.runStage RunStage.Within renumber extent)
      (first.stepRun worker stage) (second.stepRun worker (renumber.runStage stage)) := by
  cases stage with
  | arriving inputs force =>
      exact machines.atRunGate worker trivial fun claimed => .intro trivial claimed
  | opening inputs force =>
      exact machines.atGraphGate worker trivial fun claimed => claimed.openRun worker inputs force
  | listing inputs fired =>
      exact machines.atGraphGate worker trivial fun claimed => claimed.listPass worker inputs fired
  | passing inputs fired progressed rest =>
      exact .some (machines.tryNext inputs fired progressed rest)
  | firing inputs fired progressed rest ticket =>
      simp only [Renumbering.runStage, Machine.stepRun, machines.result?, machines.engine.config]
      cases first.scheduler.result? ticket with
      | none => exact .none
      | some result => exact .some (machines.afterFiring _ inputs fired progressed rest result)
  | planning inputs =>
      exact machines.atGraphGate worker trivial fun claimed => claimed.findPlan worker inputs
  | planned inputs plan =>
      obtain ⟨result, one, two, wider, sent, sent', grows, after⟩ :=
        machines.send (Task.planRun plan inputs) within
      have sent'' : second.send (Task.planRun (renumber.plan plan) inputs) = (result, two) := sent'
      simp only [Renumbering.runStage, Machine.stepRun, sent, sent'']
      cases result with
      | error failure => exact .some ((Concurs.intro trivial after).widen grows)
      | ok ticket => exact .some ((Concurs.intro trivial after).widen grows)
  | walking inputs ticket =>
      simp only [Renumbering.runStage, Machine.stepRun, machines.result?]
      cases first.scheduler.result? ticket with
      | none => exact .none
      | some result => cases result <;> exact .some (.intro trivial machines)
  | closing inputs results =>
      exact machines.atGraphGate worker trivial fun claimed =>
        claimed.closeRun worker inputs results
  | leaving result => exact .some (machines.endRun worker result)
  | «over» result => exact .none

end Matches

end Machine

end CardNet
