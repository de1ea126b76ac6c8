import CardNet.Proofs.Engine.Occurrences

/-!
# Numbers that stay

Other numbers in which all those that were given out stand for themselves change nothing that a machine
holds (`Renumbering.Keeps`). Whatever has become of a machine that began without a graph holds only
numbers that were given out (`Machine.matches_self`), so that on two boards that match it is two machines
that match (`Machine.Matches.onBoards`).
-/

namespace CardNet

namespace Renumbering.Keeps

variable {renumber : Renumbering} {extent : Extent}

theorem action (keeps : renumber.Keeps extent) {action : Action} (within : action.Within extent) :
    renumber.action action = action := by
  cases action with
  | start card channel => exact congrArg (Action.start card) (keeps.channel channel within)
  | _ => rfl

theorem steps (keeps : renumber.Keeps extent) {steps : List PlanStep}
    (within : ∀ step ∈ steps, step.Within extent) : steps.map renumber.step = steps := by
  refine (List.map_congr_left fun step member => ?_).trans (List.map_id _)
  have known := within step member
  cases step with
  | act id action => exact congrArg (PlanStep.act id) (keeps.action known)
  | read id content => rfl

theorem plan (keeps : renumber.Keeps extent) {plan : Plan} (within : plan.Within extent) :
    renumber.plan plan = plan :=
  congrArg (Plan.mk plan.entries) (keeps.steps within)

theorem graph (keeps : renumber.Keeps extent) {graph : Graph} (within : graph.Within extent) :
    renumber.graph graph = graph := by
  have net : renumber.circuit graph.net = graph.net := by
    have transitions : graph.net.transitions.map (fun _ => renumber.action) =
        graph.net.transitions :=
      Registry.map_eq_self fun id action found => keeps.action (within.net id action found)
    rw [Renumbering.circuit, Net.mapActions, transitions]
  have paths : graph.paths.map (fun _ => renumber.plan) = graph.paths :=
    Registry.map_eq_self fun id plan found => keeps.plan (within.plans plan (.inr ⟨id, found⟩))
  have plan : graph.plan.map renumber.plan = graph.plan := by
    cases held : graph.plan with
    | none => rfl
    | some plan => exact congrArg some (keeps.plan (within.plans plan (.inl held)))
  have subscriptions : graph.subscriptions.map (fun _ => renumber.subscription) =
      graph.subscriptions :=
    Registry.map_eq_self fun id held found =>
      congrArg (Subscription.mk held.anchor) (keeps.number _ _
        (within.subscriptions held (Registry.mem_values_iff.mpr ⟨id, found⟩)))
  rw [Renumbering.graph, net, paths, plan, subscriptions, keeps.channel _ within.channel]

theorem task (keeps : renumber.Keeps extent) {task : Task} (within : task.Within extent) :
    renumber.task task = task := by
  cases task with
  | walk plan inputs => exact congrArg (Task.walk · inputs) (keeps.plan within)
  | _ => rfl

theorem progress (keeps : renumber.Keeps extent) {progress : Progress}
    (within : progress.Within extent) : renumber.progress progress = progress := by
  cases progress with
  | fresh task => exact congrArg Progress.fresh (keeps.task within)
  | firing flight wake answer =>
      have same : renumber.flight flight = flight := by
        rw [Renumbering.flight, keeps.action within]
      exact congrArg (Progress.firing · wake answer) same
  | walking steps results => exact congrArg (Progress.walking · results) (keeps.steps within)
  | acting id job wake steps results =>
      exact congrArg (Progress.acting id job wake · results) (keeps.steps within)
  | visiting card globals wake => rfl
  | ended result => rfl

theorem runStage (keeps : renumber.Keeps extent) {stage : RunStage}
    (within : stage.Within extent) : renumber.runStage stage = stage := by
  cases stage with
  | planned inputs plan => exact congrArg (RunStage.planned inputs) (keeps.plan within)
  | _ => rfl

theorem callStage (keeps : renumber.Keeps extent) {stage : CallStage}
    (within : stage.Within extent) : renumber.callStage stage = stage := by
  cases stage with
  | installing graph restart =>
      exact congrArg (CallStage.installing · restart) (keeps.graph within)
  | assigning graph restart =>
      exact congrArg (CallStage.assigning · restart) (keeps.graph within)
  | running stage restart => exact congrArg (CallStage.running · restart) (keeps.runStage within)
  | requesting request =>
      exact congrArg (fun task => CallStage.requesting ⟨request.label, request.priority, task⟩)
        (keeps.task within)
  | _ => rfl

theorem worker (keeps : renumber.Keeps extent) {worker : Worker} (within : worker.Within extent) :
    renumber.worker worker = worker := by
  cases worker with
  | caller stage => exact congrArg Worker.caller (keeps.callStage within)
  | ticker ticker =>
      have stage : renumber.tickStage ticker.stage = ticker.stage := by
        cases held : ticker.stage with
        | running stage =>
            rw [Worker.Within, Ticker.Within, held] at within
            exact congrArg TickStage.running (keeps.runStage within)
        | _ => rfl
      simp only [Renumbering.worker, Renumbering.ticker, stage]
  | courier courier =>
      have stage : renumber.courierStage courier.stage = courier.stage := by
        cases held : courier.stage with
        | running stage =>
            rw [Worker.Within, Courier.Within, held] at within
            exact congrArg CourierStage.running (keeps.runStage within.2)
        | _ => rfl
      simp only [Renumbering.worker, Renumbering.courier, stage, keeps.channel _ within.1]

theorem scheduler (keeps : renumber.Keeps extent) {scheduler : Scheduler Task Progress}
    (within : scheduler.Within extent) :
    scheduler.map renumber.task renumber.progress = scheduler :=
  Scheduler.map_eq_self scheduler (fun held member => keeps.task (within.requests held member))
    fun service held => keeps.progress (within.service service held)

end Renumbering.Keeps

namespace Machine

variable {renumber : Renumbering} {extent : Extent} {machine after : Machine}

theorem matches_idle (config : EngineConfig) {board : Board} (numbered : board.Numbered) :
    (idle config board).Matches .same board.extent (idle config board) where
  engine :=
    { config := rfl
      graph := rfl
      within := nofun
      board :=
        { values := rfl
          records := rfl
          counters := rfl
          log := rfl
          given := rfl
          slots := fun _ => rfl
          numbers := fun _ _ => rfl
          listeners := fun slot =>
            ((List.map_congr_left fun held _ => rfl).trans (List.map_id _)).symm
          within := numbered
          channels := fun _ _ => rfl }
      records := rfl }
  scheduler := rfl
  waiting := ⟨List.forall_mem_nil _, fun _ served => by cases served⟩
  runGate := rfl
  graphGate := rfl
  clock := rfl
  workers := fun _ => by simp [idle]
  staffed := fun _ _ held => by simp [idle] at held
  ticker := rfl
  courier := rfl
  nextWorker := rfl

/-- Whatever has become of a machine that began without a graph holds only numbers that were given
out. -/
theorem matches_self {config : EngineConfig} {board : Board} {occurrences : List Occurrence}
    (numbered : board.Numbered)
    (reached : (idle config board).meetAll occurrences = some machine) :
    machine.Matches .same machine.engine.board.extent machine := by
  have course := (matches_idle config numbered).meetAll occurrences
  rw [reached] at course
  obtain ⟨extent, machines⟩ := course
  rwa [machines.engine.board.given]

/-- A machine on two boards that match, when numbers that were given out stand for themselves. -/
theorem Matches.onBoards (machines : machine.Matches .same extent machine)
    (keeps : renumber.Keeps extent) {one two : Board} (boards : one.Matches renumber extent two) :
    (machine.onBoard fun _ => one).Matches renumber extent (machine.onBoard fun _ => two) where
  engine :=
    { config := rfl
      graph := by
        change machine.engine.graph = machine.engine.graph.map renumber.graph
        cases held : machine.engine.graph with
        | none => rfl
        | some graph => exact congrArg some (keeps.graph (machines.engine.within graph held)).symm
      within := machines.engine.within
      board := boards
      records := rfl }
  scheduler := (keeps.scheduler machines.waiting).symm
  waiting := machines.waiting
  runGate := rfl
  graphGate := rfl
  clock := rfl
  workers := by
    intro number
    change machine.workers.get? number = (machine.workers.get? number).map renumber.worker
    cases held : machine.workers.get? number with
    | none => rfl
    | some worker => exact congrArg some (keeps.worker (machines.staffed number worker held)).symm
  staffed := machines.staffed
  ticker := rfl
  courier := rfl
  nextWorker := rfl

end Machine

end CardNet
