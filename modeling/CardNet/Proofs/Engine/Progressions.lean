import CardNet.Proofs.Engine.Accords

/-!
# Steps of runs on machines that accord with what is seen

A step of a run leaves a machine of which is known what the run has done and found
(`Machine.Accords.goes`), at every stage of the run: in line, at the opening, in the passes, along the
plan, at the close and at the end.
-/

namespace CardNet

variable {layout : Circuit} {cards : List Card} {connections : List Connection} {watch : Watch}

/-! ## What the engine is asked in a run -/

namespace Engine

variable {engine : Engine} {inputs : Values} {fired : Nat}

/-- The transitions that a pass is to try. -/
theorem At.list (known : engine.At layout cards connections watch (.listing inputs fired)) :
    ∃ names, engine.transitions = .ok names ∧
      engine.At layout cards connections watch (.passing inputs fired false names) := by
  obtain ⟨bench, done, passes, between, rfl⟩ := known
  have bare := Graph.bare_spent (bench.opened inputs).graph done
  refine ⟨(bench.opened inputs).graph.net.transitions.names, ?_, bench, done, passes,
    between.passing, rfl⟩
  rw [transitions, bench_eq passes.graph]
  change Except.ok ((bench.opened inputs).graph.spent done).transitions.names = _
  rw [Net.transitions_of_bare bare]

/-- After a pass that has fired something comes another. -/
theorem At.again
    (known : engine.At layout cards connections watch (.passing inputs fired true [])) :
    engine.At layout cards connections watch (.listing inputs fired) := by
  obtain ⟨bench, done, passes, passing, same⟩ := known
  exact ⟨bench, done, passes, passing.between, same⟩

/-- After a pass that has fired nothing the run has gone its course. -/
theorem At.spent
    (known : engine.At layout cards connections watch (.passing inputs fired false [])) :
    engine.At layout cards connections watch (.closing inputs none) := by
  obtain ⟨bench, done, passes, passing, -⟩ := known
  have mode : (bench.opened inputs).graph.mode = .visual := by
    rw [Bench.graph_opened]
    exact passes.visual
  refine ⟨bench, done, passes.toEngaged, ?_⟩
  unfold Graph.Course
  rw [mode]
  refine ⟨passing.exhausts, passes.within, fun transition inside => ?_⟩
  rw [Circuit.delay_of_bare (bench.bare_opened inputs)]
  exact passes.prompt transition inside

/-- A run looks for its plan. Without one it has gone its course. -/
theorem At.findPlan (known : engine.At layout cards connections watch (.planning inputs)) :
    (engine.plan = .ok none ∧
        engine.At layout cards connections watch (.closing inputs (some ∅))) ∨
      ∃ plan, engine.plan = .ok (some plan) ∧
        engine.At layout cards connections watch (.planned inputs plan) := by
  obtain ⟨bench, engaged, function⟩ := known
  have asked : engine.plan = .ok bench.graph.plan := by
    rw [plan, bench_eq engaged.graph]
    rfl
  obtain ⟨laid, -, ready⟩ := engaged.sound.ready
  rcases ready.compiled function with ⟨nowhere, unplanned⟩ | ⟨plan, planned, -⟩
  · refine .inl ⟨asked.trans (by rw [unplanned]), bench, [], engaged, ?_⟩
    have mode : (bench.opened inputs).graph.mode = .function := by
      rw [Bench.graph_opened]
      exact function
    unfold Graph.Course
    rw [mode]
    refine ⟨[], ?_, rfl, rfl⟩
    rw [Net.entryPlaces_of_bare (bench.bare_opened inputs), nowhere]
    exact Graph.regionOrder_nil _
  · exact .inr ⟨plan, asked.trans (by rw [planned]), bench, engaged, function, planned⟩

end Engine

namespace Machine

/-- What a step of a worker does whose run, if it is in one, comes to another stage, and what is known
then. -/
structure Goes (machine : Machine) (layout : Circuit) (cards : List Card)
    (connections : List Connection) (watch : Watch) (number : Nat) (before after : Option RunStage)
    (middle : Machine) (seen : Watch) : Prop where
  workers : middle.workers = machine.workers
  nextWorker : middle.nextWorker = machine.nextWorker
  config : middle.engine.config = machine.engine.config
  others : ∀ holder, holder ≠ number → machine.runGate.holder? = some holder →
    middle.runGate.holder? = some holder
  own : after.any RunStage.isOpen = true → middle.runGate.holder? = some number
  heard : ∀ ticket, before.bind RunStage.ticket? = some ticket →
    machine.scheduler.result? ticket ≠ none
  scheduler : middle.scheduler = machine.scheduler ∨ ∃ request ticket,
    machine.scheduler.send request = .ok (ticket, middle.scheduler) ∧
      (request.task.SetsEntry layout ∨ after.bind RunStage.ticket? = some ticket)
  follows : ∀ stage, after = some stage → stage.isOpen = true →
    middle.Follows layout cards connections seen stage
  waits : before.any RunStage.isOpen = false → after.any RunStage.isOpen = false →
    middle.engine = machine.engine ∧ middle.clock = machine.clock ∧ seen = watch
  ends : before.any RunStage.isOpen = true → after.any RunStage.isOpen = false →
    middle.engine.Rested layout cards connections seen.Faithful

variable {machine middle : Machine} {number : Nat} {stage next : RunStage}

/-- What a step of a run does, and what is known then. -/
abbrev Moves (machine : Machine) (layout : Circuit) (cards : List Card)
    (connections : List Connection) (watch : Watch) (number : Nat) (stage : RunStage)
    (moved : RunStage × Machine) : Prop :=
  machine.Goes layout cards connections watch number (some stage) (some moved.1) moved.2
    (watch.afterMove machine.engine moved.2.engine (some stage) (some moved.1))

/-- A step of an open run that sends no request and stays in the run gate. -/
private theorem goes_inside (alone : machine.runGate.holder? = some number) {engine : Engine}
    {gate : Gate} (config : engine.config = machine.engine.config) (before : stage.isOpen = true)
    (heard : ∀ ticket, stage.ticket? = some ticket → machine.scheduler.result? ticket ≠ none)
    (after : next.isOpen = true) (free : next.ticket? = none)
    (known : engine.At layout cards connections
      (watch.afterMove machine.engine engine (some stage) (some next)) next) :
    machine.Goes layout cards connections watch number (some stage) (some next)
      { machine with engine := engine, graphGate := gate }
      (watch.afterMove machine.engine engine (some stage) (some next)) where
  workers := rfl
  nextWorker := rfl
  config := config
  others := fun _ _ held => held
  own := fun _ => alone
  heard := heard
  scheduler := .inl rfl
  follows := by
    rintro _ ⟨⟩ -
    unfold Follows
    rw [free]
    exact known
  waits := fun closed => by cases before.symm.trans closed
  ends := fun _ closed => by cases after.symm.trans closed

/-- A step of an open run that sends a request. -/
private theorem goes_sent (alone : machine.runGate.holder? = some number)
    (orderly : machine.scheduler.Orderly) (before : stage.isOpen = true)
    (unsent : stage.ticket? = none) {request : Request Task} {ticket : Nat}
    {scheduler : Scheduler.OfTasks}
    (sent : machine.scheduler.send request = .ok (ticket, scheduler))
    (waits : next.ticket? = some ticket) {left : Option Nat}
    (known : machine.engine.Pursues layout cards connections
      (watch.afterMove machine.engine machine.engine (some stage) (some next)) next left
      (.fresh request.task)) :
    machine.Goes layout cards connections watch number (some stage) (some next)
      { machine with scheduler := scheduler }
      (watch.afterMove machine.engine machine.engine (some stage) (some next)) where
  workers := rfl
  nextWorker := rfl
  config := rfl
  others := fun _ _ held => held
  own := fun _ => alone
  heard := fun _ waits => by cases unsent.symm.trans waits
  scheduler := .inr ⟨request, ticket, sent, .inr waits⟩
  follows := by
    rintro _ ⟨⟩ -
    unfold Follows
    rw [waits]
    refine ⟨left, .fresh request.task, Scheduler.comes_of_send sent, known, ?_⟩
    rintro service there rfl
    -- The ticket is a new one, so it is not that of the request which is served.
    have served : machine.scheduler.service = some service :=
      (Scheduler.send_frame sent).1.symm.trans there
    have given := orderly.numbered service.ticket (by
      rw [Scheduler.tickets, served]
      exact List.mem_cons_self ..)
    rw [← (Scheduler.send_spec sent).1] at given
    exact absurd given (Nat.lt_irrefl _)
  waits := fun closed => by cases before.symm.trans closed
  ends := fun _ closed => by
    cases (RunStage.isOpen_of_ticket? waits).symm.trans closed

/-- A step of an open run at the graph gate stands in line, or does its work inside. -/
private theorem goes_atGraphGate (alone : machine.runGate.holder? = some number)
    {work : Machine → RunStage × Machine} {moved : RunStage × Machine}
    (entered : machine.atGraphGate number stage work = some moved) (before : stage.isOpen = true)
    (free : stage.ticket? = none)
    (still : ∀ engine, watch.afterMove machine.engine engine (some stage) (some stage) = watch)
    (known : machine.engine.At layout cards connections watch stage)
    (inside : ∀ gate : Gate, machine.Moves layout cards connections watch number stage
      (work { machine with graphGate := gate })) :
    machine.Moves layout cards connections watch number stage moved := by
  rw [atGraphGate] at entered
  split at entered
  · cases entered
    exact inside _
  · split at entered
    · cases entered
    · cases entered
      refine goes_inside alone rfl before (fun _ waits => by cases free.symm.trans waits) before
        free ?_
      rw [still]
      exact known

section

variable (accords : machine.Accords layout cards connections watch)

include accords

/-- A worker enters the run gate only when nobody is in it. -/
private theorem goes_arriving {inputs : Values} {force : Bool}
    (there : machine.stage? number = some (.arriving inputs force)) {moved : RunStage × Machine}
    (stepped : machine.stepRun number (.arriving inputs force) = some moved) :
    machine.Moves layout cards connections watch number (.arriving inputs force) moved := by
  have others : ∀ holder, holder ≠ number → machine.runGate.holder? = some holder →
      (machine.runGate.claim number).holder? = some holder := fun holder _ held =>
    Gate.holder?_claim held number
  simp only [stepRun, atRunGate] at stepped
  split at stepped
  · next held =>
      cases stepped
      have resting : machine.Resting := by
        intro other stage known
        by_contra opened
        have opened := (Bool.not_eq_false _).mp opened
        have holder := Gate.holder?_claim (accords.alone other stage known opened) number
        obtain rfl := Option.some.inj (held.symm.trans holder)
        obtain rfl := Option.some.inj (there.symm.trans known)
        cases opened
      exact {
        workers := rfl
        nextWorker := rfl
        config := rfl
        others := others
        own := fun _ => held
        heard := by rintro _ ⟨⟩
        scheduler := .inl rfl
        follows := by
          rintro _ ⟨⟩ -
          exact accords.resting resting
        waits := by rintro - ⟨⟩
        ends := by rintro ⟨⟩ }
  · split at stepped
    · cases stepped
    · cases stepped
      exact {
        workers := rfl
        nextWorker := rfl
        config := rfl
        others := others
        own := by rintro ⟨⟩
        heard := by rintro _ ⟨⟩
        scheduler := .inl rfl
        follows := by
          rintro _ ⟨⟩ ⟨⟩
        waits := fun _ _ => ⟨rfl, rfl, rfl⟩
        ends := by rintro ⟨⟩ }

/-- What is known of a run that takes a step itself. -/
private theorem Accords.at_of_free (there : machine.stage? number = some stage)
    (free : stage.ticket? = none) (opened : stage.isOpen = true) :
    machine.engine.At layout cards connections watch stage := by
  have follows := accords.running number stage there opened
  unfold Follows at follows
  rw [free] at follows
  exact follows

/-- What is known of a run that hears of its request. -/
private theorem Accords.pursues_of_result (there : machine.stage? number = some stage)
    {ticket : Nat} {result : Except Failure Value} (waits : stage.ticket? = some ticket)
    (heard : machine.scheduler.result? ticket = some result) :
    ∃ left, machine.engine.Pursues layout cards connections watch stage left (.ended result) := by
  have follows := accords.running number stage there (RunStage.isOpen_of_ticket? waits)
  unfold Follows at follows
  rw [waits] at follows
  obtain ⟨left, progress, comes, pursues, -⟩ := follows
  obtain rfl := comes.eq_ended accords.orderly heard
  exact ⟨left, pursues⟩

/-- A run is answered from the records or opened. -/
private theorem goes_opening (setting : Setting cards connections) {inputs : Values} {force : Bool}
    (there : machine.stage? number = some (.opening inputs force)) {moved : RunStage × Machine}
    (stepped : machine.stepRun number (.opening inputs force) = some moved) :
    machine.Moves layout cards connections watch number (.opening inputs force) moved := by
  have alone := accords.alone number _ there rfl
  have rested : machine.engine.Rested layout cards connections watch.Faithful :=
    accords.at_of_free there rfl rfl
  refine goes_atGraphGate alone stepped rfl rfl (fun _ => rfl) rested fun gate => ?_
  simp only [openRun, within]
  rcases rested.opening setting inputs force with ⟨outputs, opening⟩ |
    ⟨merged, engine, config, ⟨opening, known⟩ | ⟨opening, known⟩⟩
  · simp only [opening]
    exact goes_inside alone rfl rfl (by rintro _ ⟨⟩) rfl rfl rested
  · simp only [opening]
    exact goes_inside alone config rfl (by rintro _ ⟨⟩) rfl rfl known
  · simp only [opening]
    exact goes_inside alone config rfl (by rintro _ ⟨⟩) rfl rfl known

private theorem goes_listing {inputs : Values} {fired : Nat}
    (there : machine.stage? number = some (.listing inputs fired)) {moved : RunStage × Machine}
    (stepped : machine.stepRun number (.listing inputs fired) = some moved) :
    machine.Moves layout cards connections watch number (.listing inputs fired) moved := by
  have alone := accords.alone number _ there rfl
  have known := accords.at_of_free there rfl rfl
  obtain ⟨names, listed, passing⟩ := known.list
  refine goes_atGraphGate alone stepped rfl rfl (fun _ => rfl) known fun gate => ?_
  simp only [listPass, within, listed]
  exact goes_inside alone rfl rfl (by rintro _ ⟨⟩) rfl rfl passing

/-- A run tries the next transition, or begins another pass, or has gone its course. -/
private theorem goes_passing {inputs : Values} {fired : Nat} {progressed : Bool}
    {rest : List String}
    (there : machine.stage? number = some (.passing inputs fired progressed rest))
    {moved : RunStage × Machine}
    (stepped : machine.stepRun number (.passing inputs fired progressed rest) = some moved) :
    machine.Moves layout cards connections watch number (.passing inputs fired progressed rest)
      moved := by
  have alone := accords.alone number _ there rfl
  have known := accords.at_of_free there rfl rfl
  cases stepped
  cases rest with
  | nil =>
      cases progressed with
      | true => exact goes_inside alone rfl rfl (by rintro _ ⟨⟩) rfl rfl known.again
      | false => exact goes_inside alone rfl rfl (by rintro _ ⟨⟩) rfl rfl known.spent
  | cons transition rest =>
      obtain ⟨ticket, scheduler, sent⟩ := accords.orderly.send_ok (Task.firing transition)
      obtain ⟨bench, done, passes, passing, rfl⟩ := known
      simp only [tryNext, send, sent]
      exact goes_sent alone accords.orderly rfl rfl sent rfl (.fire passes passing)

/-- A run hears of a firing. -/
private theorem goes_firing {inputs : Values} {fired ticket : Nat} {progressed : Bool}
    {rest : List String}
    (there : machine.stage? number = some (.firing inputs fired progressed rest ticket))
    {moved : RunStage × Machine}
    (stepped : machine.stepRun number (.firing inputs fired progressed rest ticket) =
      some moved) :
    machine.Moves layout cards connections watch number
      (.firing inputs fired progressed rest ticket) moved := by
  have alone := accords.alone number _ there rfl
  obtain ⟨result, heard, rfl⟩ := Option.map_eq_some_iff.mp stepped
  obtain ⟨left, pursues⟩ := accords.pursues_of_result there rfl heard
  have known : machine.engine.At layout cards connections watch
      (afterFiring machine.engine.config.maxFirings inputs fired progressed rest result) := by
    cases pursues with
    | fired known => exact known
  have open_free : (afterFiring machine.engine.config.maxFirings inputs fired progressed rest
      result).isOpen = true ∧ (afterFiring machine.engine.config.maxFirings inputs fired progressed
      rest result).ticket? = none := by
    unfold afterFiring
    split
    · exact ⟨rfl, rfl⟩
    · split <;> exact ⟨rfl, rfl⟩
    · exact ⟨rfl, rfl⟩
  refine goes_inside alone rfl rfl ?_ open_free.1 open_free.2 known
  rintro _ ⟨⟩ unheard
  cases heard.symm.trans unheard

private theorem goes_planning {inputs : Values}
    (there : machine.stage? number = some (.planning inputs)) {moved : RunStage × Machine}
    (stepped : machine.stepRun number (.planning inputs) = some moved) :
    machine.Moves layout cards connections watch number (.planning inputs) moved := by
  have alone := accords.alone number _ there rfl
  have known := accords.at_of_free there rfl rfl
  refine goes_atGraphGate alone stepped rfl rfl (fun _ => rfl) known fun gate => ?_
  rcases known.findPlan with ⟨asked, closed⟩ | ⟨plan, asked, planned⟩
  · simp only [Machine.findPlan, within, asked]
    exact goes_inside alone rfl rfl (by rintro _ ⟨⟩) rfl rfl closed
  · simp only [Machine.findPlan, within, asked]
    exact goes_inside alone rfl rfl (by rintro _ ⟨⟩) rfl rfl planned

private theorem goes_planned {inputs : Values} {plan : Plan}
    (there : machine.stage? number = some (.planned inputs plan)) {moved : RunStage × Machine}
    (stepped : machine.stepRun number (.planned inputs plan) = some moved) :
    machine.Moves layout cards connections watch number (.planned inputs plan) moved := by
  have alone := accords.alone number _ there rfl
  obtain ⟨bench, engaged, function, planned⟩ := accords.at_of_free there rfl rfl
  obtain ⟨ticket, scheduler, sent⟩ := accords.orderly.send_ok (Task.planRun plan inputs)
  simp only [stepRun, send, sent] at stepped
  cases stepped
  exact goes_sent alone accords.orderly rfl rfl sent rfl (.plan (.start engaged function planned))

/-- A run hears of its plan. -/
private theorem goes_walking {inputs : Values} {ticket : Nat}
    (there : machine.stage? number = some (.walking inputs ticket)) {moved : RunStage × Machine}
    (stepped : machine.stepRun number (.walking inputs ticket) = some moved) :
    machine.Moves layout cards connections watch number (.walking inputs ticket) moved := by
  have alone := accords.alone number _ there rfl
  obtain ⟨result, heard, rfl⟩ := Option.map_eq_some_iff.mp stepped
  obtain ⟨left, pursues⟩ := accords.pursues_of_result there rfl heard
  have known : machine.engine.At layout cards connections watch (afterPlan inputs result) := by
    cases pursues with
    | walked known => exact known
  have told : ∀ other, (RunStage.walking inputs ticket).ticket? = some other →
      machine.scheduler.result? other ≠ none := by
    rintro _ ⟨⟩ unheard
    cases heard.symm.trans unheard
  cases result <;> exact goes_inside alone rfl rfl told rfl rfl known

/-- A run is recorded, with what it has found. -/
private theorem goes_closing (setting : Setting cards connections) {inputs : Values}
    {results : Option Values} (there : machine.stage? number = some (.closing inputs results))
    {moved : RunStage × Machine}
    (stepped : machine.stepRun number (.closing inputs results) = some moved) :
    machine.Moves layout cards connections watch number (.closing inputs results) moved := by
  have alone := accords.alone number _ there rfl
  have known := accords.at_of_free there rfl rfl
  refine goes_atGraphGate alone stepped rfl rfl (fun _ => rfl) known fun gate => ?_
  obtain ⟨bench, done, engaged, course⟩ := known
  obtain ⟨outputs, engine, closed, rested, config⟩ := engaged.close setting course results
  simp only [closeRun, within, closed]
  exact goes_inside alone config rfl (by rintro _ ⟨⟩) rfl rfl rested

/-- A run ends. When it has failed, what is recorded is not used again. -/
private theorem goes_leaving {result : Except Failure Values}
    (there : machine.stage? number = some (.leaving result)) {moved : RunStage × Machine}
    (stepped : machine.stepRun number (.leaving result) = some moved) :
    machine.Moves layout cards connections watch number (.leaving result) moved := by
  have known := accords.at_of_free there rfl rfl
  cases stepped
  have rested : (machine.endRun number result).2.engine.Rested layout cards connections
      watch.Faithful := by
    cases result with
    | ok outputs => exact known
    | error failure =>
        obtain ⟨graph, held, sound, bare⟩ := known
        exact ⟨⟨graph, held, sound, bare⟩, fun _ => ⟨graph, held, sound, .inl rfl⟩⟩
  exact {
    workers := rfl
    nextWorker := rfl
    config := by cases result <;> rfl
    others := fun holder other held => Gate.holder?_leave held other.symm
    own := nofun
    heard := nofun
    scheduler := .inl rfl
    follows := by
      rintro _ ⟨⟩ ⟨⟩
    waits := nofun
    ends := fun _ _ => rested }

/-- What a step of a run does, and what is known then. -/
theorem Accords.goes (setting : Setting cards connections)
    (there : machine.stage? number = some stage) {moved : RunStage × Machine}
    (stepped : machine.stepRun number stage = some moved) :
    machine.Moves layout cards connections watch number stage moved := by
  cases stage with
  | arriving => exact goes_arriving accords there stepped
  | opening => exact goes_opening accords setting there stepped
  | listing => exact goes_listing accords there stepped
  | passing => exact goes_passing accords there stepped
  | firing => exact goes_firing accords there stepped
  | planning => exact goes_planning accords there stepped
  | planned => exact goes_planned accords there stepped
  | walking => exact goes_walking accords there stepped
  | closing => exact goes_closing accords setting there stepped
  | leaving => exact goes_leaving accords there stepped
  | «over» => cases stepped

end

end Machine

end CardNet
