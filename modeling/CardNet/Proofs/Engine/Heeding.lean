import CardNet.Proofs.Engine.Conduct
import CardNet.Proofs.Graph.Restraints

/-!
# Machines under restraints

A restraint says for which transitions firings and plans may do anything. Whatever happens on a
machine keeps to it, in whatever order the workers take their steps, as long as the connections that
are laid out have transfers that it allows (`Machine.Unfolds.heeds`).
-/

namespace CardNet

/-- Tokens do not matter for restraints. -/
theorem Graph.Heeds.of_bare {graph other : Graph} {restraint : Restraint}
    (heeds : graph.Heeds restraint) (same : other.bare = graph.bare) : other.Heeds restraint where
  fits := by
    have mode : other.mode = graph.mode := show other.bare.mode = graph.bare.mode by rw [same]
    rw [mode]
    exact heeds.fits
  net := by
    have net : other.net.bare = graph.net.bare := show other.bare.net = graph.bare.net by rw [same]
    rw [Net.transitions_of_bare net]
    exact heeds.net
  plans := by
    have plan : other.plan = graph.plan := show other.bare.plan = graph.bare.plan by rw [same]
    have paths : other.paths = graph.paths := show other.bare.paths = graph.bare.paths by rw [same]
    unfold Offers
    rw [plan, paths]
    exact heeds.plans
  unplanned := by
    have plan : other.plan = graph.plan := show other.bare.plan = graph.bare.plan by rw [same]
    have paths : other.paths = graph.paths := show other.bare.paths = graph.bare.paths by rw [same]
    have mode : other.mode = graph.mode := show other.bare.mode = graph.bare.mode by rw [same]
    unfold Offers
    rw [plan, paths, mode]
    exact heeds.unplanned

/-- What does nothing for any transition does nothing for one. -/
theorem PlanStep.Heeds.without {step : PlanStep} (heeds : step.Heeds .unplanned) (id : String) :
    step.Heeds (.without id) := by
  cases step with
  | act => exact heeds.elim
  | read => trivial

theorem Plan.Heeds.without {plan : Plan} (heeds : plan.Heeds .unplanned) (id : String) :
    plan.Heeds (.without id) :=
  fun step member => (heeds step member).without id

namespace Progress

/-- The task that is served fires no transition that is barred, and acts for none. -/
def Heeds (restraint : Restraint) : Progress → Prop
  | fresh task => ∀ plan, task.plan? = some plan → plan.Heeds restraint
  | firing flight _ _ => restraint.fires flight.firing.transition
  | walking steps _ => ∀ step ∈ steps, step.Heeds restraint
  | acting id _ _ steps _ => restraint.acts id ∧ ∀ step ∈ steps, step.Heeds restraint
  | visiting _ _ _ | ended _ => True

end Progress

/-- A run edits nothing. -/
theorem RunStage.edits_stance (stage : RunStage) : stage.stance.edits = false := by
  cases stage <;> rfl

/-- Nobody edits but callers. -/
theorem Worker.exists_caller_of_edits {held : Worker} (edits : held.stance.edits = true) :
    ∃ stage, held = .caller stage := by
  cases held with
  | caller stage => exact ⟨stage, rfl⟩
  | ticker ticker =>
      obtain ⟨interval, inputs, due, stopped, ticks, stage⟩ := ticker
      cases stage with
      | running stage => cases stage.edits_stance.symm.trans edits
      | _ => cases edits
  | courier courier =>
      obtain ⟨channel, dismissed, stage⟩ := courier
      cases stage with
      | running stage => cases stage.edits_stance.symm.trans edits
      | _ => cases edits

theorem Worker.Told.isDismissed {held told : Worker} (tells : held.Told told)
    (dismissed : held.isDismissed = true) : told.isDismissed = true := by
  cases tells with
  | same => exact dismissed
  | stopped ticker => exact dismissed
  | dismissed courier => rfl

/-- The connections that a step of a call lays out. -/
def CallStage.laid (stage : CallStage) (machine : Machine) (worker : Nat) : List Connection :=
  match stage with
  | building config _ _ _ =>
      if (machine.runGate.claim worker).holder? = some worker then config.connections else []
  | splicing (.add connection) =>
      if (machine.graphGate.claim worker).holder? = some worker then [connection] else []
  | _ => []

/-- A graph that a call is about to take over heeds a restraint. -/
def CallStage.Bears (restraint : Restraint) : CallStage → Prop
  | installing graph _ => graph.Heeds restraint
  | _ => True

namespace Machine

variable {machine middle after : Machine} {worker : Nat} {restraint : Restraint}

/-! ## The service of a request -/

/-- What a step of a task comes to: it keeps to a restraint, and a firing that has begun is inside
the graph gate. -/
def Upholds (restraint : Restraint) (moved : Progress × Machine) : Prop :=
  moved.1.Heeds restraint ∧
    (moved.1.flight?.isSome = true → moved.2.graphGate.holder? = some server)

/-- A task that is not in the middle of a firing need not be inside the graph gate. -/
theorem upholds_of_grounded {moved : Progress × Machine} (heeds : moved.1.Heeds restraint)
    (rests : moved.1.flight? = none) : Upholds restraint moved := by
  refine ⟨heeds, fun flies => ?_⟩
  rw [rests] at flies
  cases flies

end Machine

/-- What a step of a task that keeps to a restraint does keeps to it. -/
theorem Progress.Advances.upholds {machine after : Machine} {progress next : Progress}
    {restraint : Restraint}
    (heeds : ∀ graph, machine.engine.graph = some graph → graph.Heeds restraint)
    (before : progress.Heeds restraint) (advances : progress.Advances machine next after) :
    Machine.Upholds restraint (next, after) := by
  cases advances with
  | queues => exact Machine.upholds_of_grounded before rfl
  | @launches _ transition _ _ flight _ holds held _ launched =>
      obtain ⟨enabled, same, -⟩ := Engine.launch_spec held launched
      obtain ⟨action, found⟩ := Session.get?_of_isEnabled enabled
      refine ⟨?_, fun _ => holds⟩
      change restraint.fires flight.firing.transition
      rw [same]
      exact (heeds _ held).net transition (Registry.mem_names_of_get? found)
  | works _ works => cases works <;> exact Machine.upholds_of_grounded trivial rfl
  | departs => exact Machine.upholds_of_grounded (before _ rfl) rfl
  | acts =>
      refine Machine.upholds_of_grounded ⟨before _ List.mem_cons_self, fun other member => ?_⟩ rfl
      exact before other (List.mem_cons_of_mem _ member)
  | reads | skips =>
      exact Machine.upholds_of_grounded
        (fun other member => before other (List.mem_cons_of_mem _ member)) rfl
  | acted => exact Machine.upholds_of_grounded before.2 rfl
  | lands | arrives | failed | visited => exact Machine.upholds_of_grounded trivial rfl

namespace Machine

variable {machine middle after : Machine} {worker : Nat} {restraint : Restraint}

/-! ## Edits -/

/-- Where nothing but tokens changes of the graph, restraints are heeded as before. -/
theorem heeds_of_layout (heeds : ∀ graph, machine.engine.graph = some graph → graph.Heeds restraint)
    (layout : after.engine.graph.map Graph.bare = machine.engine.graph.map Graph.bare) :
    ∀ graph, after.engine.graph = some graph → graph.Heeds restraint := by
  intro graph present
  rw [present, Option.map_some, eq_comm, Option.map_eq_some_iff] at layout
  obtain ⟨before, held, same⟩ := layout
  exact (heeds before held).of_bare same.symm

/-- Changing a connection keeps to a restraint that does not bar it. -/
theorem heeds_rewire (lenient : restraint.Lenient) {engine : Engine}
    (heeds : ∀ graph, engine.graph = some graph → graph.Heeds restraint) {change : Rewiring}
    (may : ∀ connection, change = .add connection → restraint.fires connection.transfer) :
    ∀ graph, (rewire engine change).2.graph = some graph → graph.Heeds restraint := by
  cases present : engine.graph with
  | none =>
      have lost : (rewire engine change).2.graph = none := by
        cases change <;>
          simp only [rewire, Engine.addConnection, Engine.removeConnection, Engine.bench,
            Engine.bench?, present, Option.map_none]
      intro graph left
      cases lost.symm.trans left
  | some before =>
      have held : (Bench.mk before engine.board).graph.Heeds restraint := heeds before present
      cases change with
      | add connection =>
          have edited := Bench.heeds_addConnection held lenient (may connection rfl)
          intro graph left
          simp only [rewire, Engine.addConnection, Engine.bench_eq present] at left
          split at left
          · next done =>
              rw [done] at edited
              cases left
              exact edited
          · next done =>
              rw [done] at edited
              cases left
              exact edited
      | remove id =>
          have edited := Bench.heeds_removeConnection held id
          intro graph left
          simp only [rewire, Engine.removeConnection, Engine.bench_eq present] at left
          split at left <;> next done =>
            rw [done] at edited
            cases left
            exact edited

end Machine

namespace CallStage

variable {machine after : Machine} {worker : Nat} {restraint : Restraint} {stage next : CallStage}

theorem bears_beginCall (machine : Machine) (call : Call) :
    (machine.beginCall call).1.Bears restraint := by
  cases call with
  | pause milliseconds => cases milliseconds <;> trivial
  | _ => trivial

theorem bears_afterRun (machine : Machine) (restart : Bool) (next : RunStage) :
    (machine.afterRun restart next).1.Bears restraint := by
  cases next with
  | «over» result => cases result <;> trivial
  | _ => trivial

section

variable (lenient : restraint.Lenient) (known : stage.Bears restraint)
  (may : ∀ connection ∈ stage.laid machine worker, restraint.fires connection.transfer)
  (advances : stage.Advances worker machine next after)

include lenient known may advances

/-- A call that edits the graph keeps to a restraint. -/
theorem Advances.heeds
    (heeds : ∀ graph, machine.engine.graph = some graph → graph.Heeds restraint)
    (edits : stage.stance.edits = true) :
    ∀ graph, after.engine.graph = some graph → graph.Heeds restraint := by
  cases advances with
  | waits | queues => exact heeds
  | works holds works =>
      cases works with
      | installed =>
          rintro _ ⟨⟩
          exact known
      | spliced =>
          apply Machine.heeds_rewire lenient heeds
          rintro connection rfl
          apply may
          rw [laid, if_pos holds]
          exact List.mem_singleton_self connection
      | cleared => exact nofun
      | _ => cases edits
  | enters _ enters => cases enters <;> cases edits
  | @runs run => cases run.edits_stance.symm.trans edits
  | _ => cases edits

/-- A graph that a call has built keeps to a restraint. -/
theorem Advances.bears (fits : restraint.Fits machine.engine.config.mode) :
    next.Bears restraint := by
  cases advances with
  | begins | halts => exact bears_beginCall ..
  | waits | queues => exact known
  | enters holds enters =>
      cases enters with
      | built made =>
          rw [laid, if_pos holds] at may
          exact Graph.heeds_of_build made fits lenient may
      | _ => trivial
  | works _ works => cases works <;> trivial
  | runs => exact bears_afterRun ..
  | @leaves _ restart => cases restart <;> trivial
  | _ => trivial

end

end CallStage

namespace Machine

variable {machine middle after : Machine} {worker : Nat} {restraint : Restraint}

/-! ## All incidents -/

/-- Nothing on a machine does, or is about to do, anything for a transition that is barred. -/
structure Heeds (machine : Machine) (restraint : Restraint) : Prop where
  fits : restraint.Fits machine.engine.config.mode
  graph : ∀ graph, machine.engine.graph = some graph → graph.Heeds restraint
  callers : ∀ number stage, machine.workers.get? number = some (.caller stage) →
    stage.Bears restraint
  plans : ∀ number held plan, machine.workers.get? number = some held →
    held.stance.plan = some plan → plan.Heeds restraint
  requests : ∀ entry ∈ machine.scheduler.requests, ∀ plan, entry.2.task.plan? = some plan →
    plan.Heeds restraint
  progress : ∀ progress, machine.progress? = some progress → progress.Heeds restraint
  gate : machine.flight?.isSome = true → machine.graphGate.holder? = some server

theorem heeds_idle {config : EngineConfig} (fits : restraint.Fits config.mode) (board : Board) :
    (idle config board).Heeds restraint where
  fits := fits
  graph := nofun
  callers := by simp [idle]
  plans := by simp [idle]
  requests := by
    have empty : (idle config board).scheduler.requests = [] := rfl
    simp [empty]
  progress := by
    have free : (idle config board).progress? = none := rfl
    simp [free]
  gate := by
    have free : (idle config board).progress? = none := rfl
    simp [flight?, free]

/-- The connections that are laid out in an incident. -/
def laid (machine : Machine) : Incident → List Connection
  | .step worker =>
      match machine.workers.get? worker with
      | some (.caller stage) => stage.laid machine worker
      | _ => []
  | _ => []

/-- Workers that join or are told something do nothing for transitions. -/
theorem Heeds.company (heeds : machine.Heeds restraint) (company : Company machine after)
    (engine : after.engine.frame = machine.engine.frame)
    (scheduler : after.scheduler = machine.scheduler)
    (gate : after.graphGate = machine.graphGate) : after.Heeds restraint where
  fits := by
    have config : after.engine.config = machine.engine.config :=
      congrArg Engine.Frame.config engine
    rw [config]
    exact heeds.fits
  graph := heeds_of_layout heeds.graph (congrArg Engine.Frame.layout engine)
  callers := by
    intro number stage found
    rcases company.known number _ found with ⟨held, before, tells⟩ | ⟨-, -, new⟩
    · cases tells
      exact heeds.callers number stage before
    · cases new
      trivial
  plans := by
    intro number told plan found has
    rcases company.known number told found with ⟨held, before, tells⟩ | ⟨-, -, new⟩
    · rw [tells.stance] at has
      exact heeds.plans number held plan before has
    · rw [new.stance] at has
      cases has
  requests := by
    rw [scheduler]
    exact heeds.requests
  progress := by
    rw [progress?, scheduler]
    exact heeds.progress
  gate := by
    rw [flight?, progress?, scheduler, gate]
    exact heeds.gate

/-- What a step of the service comes to. -/
theorem Heeds.proceed (heeds : machine.Heeds restraint) {service : Service Progress}
    (served : machine.scheduler.service = some service) {moved : Progress × Machine}
    (serves : Serves machine moved.2) (frame : moved.2.engine.frame = machine.engine.frame)
    (upholds : Upholds restraint moved) : (proceed moved).Heeds restraint := by
  have scheduler : (Machine.proceed moved).scheduler = machine.scheduler.proceed moved.1 := by
    rw [Machine.proceed, serves.scheduler]
  have progress : (Machine.proceed moved).progress? = some moved.1 := by
    rw [progress?, scheduler, Scheduler.service_proceed served]
    rfl
  refine ⟨?_, heeds_of_layout heeds.graph (congrArg Engine.Frame.layout frame), ?_, ?_, ?_, ?_, ?_⟩
  · change restraint.Fits moved.2.engine.config.mode
    rw [serves.config]
    exact heeds.fits
  · change ∀ number stage, moved.2.workers.get? number = _ → _
    rw [serves.workers]
    exact heeds.callers
  · change ∀ number held plan, moved.2.workers.get? number = _ → _
    rw [serves.workers]
    exact heeds.plans
  · rw [scheduler, Scheduler.requests_proceed]
    exact heeds.requests
  · intro next found
    cases progress.symm.trans found
    exact upholds.1
  · rw [flight?, progress]
    exact upholds.2

/-- A step of worker zero keeps to a restraint. -/
theorem Heeds.serve (heeds : machine.Heeds restraint) (order : machine.InOrder)
    (stepped : machine.stepServer = some after) : after.Heeds restraint := by
  cases tends_stepServer stepped with
  | @turns scheduler _ turned =>
      obtain ⟨ticket, request, -, split, service, -⟩ := Scheduler.turn_spec order.orderly turned
      have begun : progress? { machine with scheduler := scheduler } =
          some (.fresh request.task) := by
        rw [progress?, service]
        rfl
      refine ⟨heeds.fits, heeds.graph, heeds.callers, heeds.plans, ?_, ?_, ?_⟩
      · intro entry member
        exact heeds.requests entry (split ▸ List.mem_cons_of_mem _ member)
      · intro progress found
        cases begun.symm.trans found
        exact heeds.requests (ticket, request) (split ▸ List.mem_cons_self)
      · simp [flight?, begun, Progress.flight?]
  | @answers service result served ended =>
      obtain ⟨free, requests, -⟩ := Scheduler.conclude_spec served result
      refine ⟨heeds.fits, heeds.graph, heeds.callers, heeds.plans, ?_, ?_, ?_⟩
      · rw [requests]
        exact heeds.requests
      · simp [progress?, free]
      · simp [flight?, progress?, free]
  | @works service next middle served _ worked =>
      have advances := advances_workOn worked
      have before := heeds.progress service.progress (by rw [progress?, served, Option.map_some])
      exact heeds.proceed served advances.serves advances.attends.1
        (advances.upholds heeds.graph before)
  | @givesUp service served =>
      exact heeds.proceed served (serves_giveUp machine service) (machine.frame_giveUp service)
        (upholds_of_grounded trivial rfl)

theorem Exchange.service {stance next : Stance} {quits : Bool}
    (exchange : Exchange machine after stance next quits) :
    after.scheduler.service = machine.scheduler.service := by
  cases exchange with
  | keep scheduler => rw [scheduler]
  | send sent => exact (Scheduler.send_frame sent).1
  | quit scheduler => rw [scheduler]

section

variable {held next : Worker} {quits : Bool}

/-- A plan that a worker has in hand after a step it has had before, or it is one of the graph. -/
theorem Heeds.plan (heeds : machine.Heeds restraint)
    (found : machine.workers.get? worker = some held)
    (exchange : Exchange machine middle held.stance next.stance quits) {plan : Plan}
    (has : next.stance.plan = some plan) : plan.Heeds restraint := by
  cases exchange with
  | keep _ _ _ plans =>
      rcases plans plan has with before | ⟨graph, present, offers⟩
      · exact heeds.plans worker held plan found before
      · exact (heeds.graph graph present).plans plan offers
  | send _ _ _ waits =>
      rw [waits] at has
      cases has
  | quit _ idle =>
      rw [idle] at has
      cases has

/-- What is requested after a step was requested before, or is for a plan that a worker had in
hand. -/
theorem Heeds.sent (heeds : machine.Heeds restraint)
    (found : machine.workers.get? worker = some held)
    (exchange : Exchange machine middle held.stance next.stance quits) :
    ∀ entry ∈ middle.scheduler.requests, ∀ plan, entry.2.task.plan? = some plan →
      plan.Heeds restraint := by
  cases exchange with
  | keep scheduler =>
      rw [scheduler]
      exact heeds.requests
  | quit scheduler =>
      rw [scheduler]
      exact heeds.requests
  | send sent task =>
      intro entry member plan runs
      rcases (Scheduler.mem_requests_of_send sent).mp member with rfl | before
      · exact heeds.plans worker held plan found (task.symm.trans runs)
      · exact heeds.requests entry before plan runs

/-- A step of a worker that keeps to the gates keeps to a restraint, when it does so in its edits. -/
theorem Heeds.conduct (heeds : machine.Heeds restraint)
    (found : machine.workers.get? worker = some held)
    (conduct : Conduct worker held.stance next.stance machine middle quits)
    (edits : held.stance.edits = true →
      ∀ graph, middle.engine.graph = some graph → graph.Heeds restraint)
    (bears : ∀ stage, next = .caller stage → stage.Bears restraint)
    (gate : machine.graphGate.holder? = some server →
      middle.graphGate.holder? = some server) : (setWorker middle worker next).Heeds restraint where
  fits := by
    change restraint.Fits middle.engine.config.mode
    rw [conduct.config]
    exact heeds.fits
  graph := by
    cases changes : held.stance.edits with
    | true => exact edits changes
    | false => exact heeds_of_layout heeds.graph (conduct.layout changes)
  callers := by
    intro number stage now
    rw [get?_setWorker] at now
    split at now
    · exact bears stage (Option.some.inj now)
    · rcases conduct.company.known number _ now with ⟨known, before, tells⟩ | ⟨-, -, new⟩
      · cases tells
        exact heeds.callers number stage before
      · cases new
        trivial
  plans := by
    intro number other plan now has
    rw [get?_setWorker] at now
    split at now
    · cases now
      exact heeds.plan found conduct.exchange has
    · rcases conduct.company.known number other now with ⟨known, before, tells⟩ | ⟨-, -, new⟩
      · rw [tells.stance] at has
        exact heeds.plans number known plan before has
      · rw [new.stance] at has
        cases has
  requests := by
    have sent := heeds.sent found conduct.exchange
    exact sent
  progress := by
    change ∀ progress, middle.scheduler.service.map _ = some progress → _
    rw [conduct.exchange.service]
    exact heeds.progress
  gate := by
    intro flies
    have still : (setWorker middle worker next).flight? = machine.flight? := by
      change (middle.scheduler.service.map _).bind _ = (machine.scheduler.service.map _).bind _
      rw [conduct.exchange.service]
    rw [still] at flies
    exact gate (heeds.gate flies)

end

/-- A step of a worker other than worker zero keeps to a restraint. -/
theorem Heeds.work (heeds : machine.Heeds restraint) (order : machine.InOrder)
    (lenient : restraint.Lenient)
    (may : ∀ connection ∈ machine.laid (.step worker), restraint.fires connection.transfer)
    (other : worker ≠ server) (stepped : machine.step worker = some after) :
    after.Heeds restraint := by
  obtain ⟨held, next, middle, found, rfl, advances⟩ := advances_step other stepped
  obtain ⟨quits, conduct, -⟩ := advances.conduct order.numbered
  rw [laid, found] at may
  refine heeds.conduct found conduct (fun edits => ?_) ?_ fun gate =>
    advances.graphGate other.symm gate
  · obtain ⟨stage, rfl⟩ := Worker.exists_caller_of_edits edits
    cases advances with
    | caller advances =>
        exact advances.heeds lenient (heeds.callers worker stage found) may heeds.graph edits
  · rintro stage rfl
    cases advances with
    | @caller before _ _ advances =>
        exact advances.bears lenient (heeds.callers worker before found) may heeds.fits

/-- Whatever happens keeps to a restraint, if it lays out no connection whose transfer is barred. -/
theorem Heeds.undergo (heeds : machine.Heeds restraint) (order : machine.InOrder)
    (lenient : restraint.Lenient) {incident : Incident}
    (may : ∀ connection ∈ machine.laid incident, restraint.fires connection.transfer)
    (happened : machine.undergo incident = some after) : after.Heeds restraint := by
  cases incident with
  | call call =>
      cases happened
      exact heeds.company (company_enlist order.numbered (.caller call)) rfl rfl rfl
  | tick interval inputs =>
      cases happened
      have aside := aside_startTicker machine interval inputs
      exact heeds.company (company_startTicker order.numbered interval inputs)
        (congrArg Engine.frame aside.engine) aside.scheduler aside.graphGate
  | halt =>
      cases happened
      have aside := aside_stopTicker machine
      exact heeds.company machine.company_stopTicker (congrArg Engine.frame aside.engine)
        aside.scheduler aside.graphGate
  | wait time =>
      rw [Machine.undergo] at happened
      split at happened
      · cases happened
        exact heeds.company (company_of_workers rfl rfl) rfl rfl rfl
      · cases happened
  | board change =>
      cases happened
      exact ⟨heeds.fits, heeds.graph, heeds.callers, heeds.plans, heeds.requests, heeds.progress,
        heeds.gate⟩
  | step worker =>
      by_cases zero : worker = server
      · subst zero
        exact heeds.serve order happened
      · exact heeds.work order lenient may zero happened

theorem Unfolds.heeds {α : Type} {allowed : Machine → Incident → Bool}
    {observe : α → Machine → Incident → Machine → α} {first : Machine} {start seen : α}
    (unfolds : Unfolds allowed observe first start machine seen) (order : first.InOrder)
    (heeds : first.Heeds restraint) (lenient : restraint.Lenient)
    (may : ∀ machine incident, allowed machine incident = true →
      ∀ connection ∈ machine.laid incident, restraint.fires connection.transfer) :
    machine.InOrder ∧ machine.Heeds restraint := by
  induction unfolds with
  | start => exact ⟨order, heeds⟩
  | happen incident _ allows happened ih =>
      obtain ⟨orderly, known⟩ := ih
      exact ⟨orderly.undergo happened,
        known.undergo orderly lenient (may _ incident allows) happened⟩

end Machine

end CardNet
