import CardNet.Proofs.Engine.Progressions

/-!
# Interleavings accord with what is seen of them

Every step of every worker, every call for a run or for an input on an entry, and time as it passes keep a
machine in accord with what is seen of it (`Machine.Accords.happen`). So it is in accord after all
interleavings that begin at rest (`Machine.Interleaves.accords`).
-/

namespace CardNet

variable {layout : Circuit} {cards : List Card} {connections : List Connection} {watch seen : Watch}

namespace Machine

variable {machine middle after : Machine} {number : Nat} {held next : Worker}

/-! ## Steps of workers -/

/-- A run that is over is none. -/
theorem Goes.over {before : Option RunStage} {result : Except Failure Values}
    (goes : machine.Goes layout cards connections watch number before (some (.over result)) middle
      seen) : machine.Goes layout cards connections watch number before none middle seen :=
  { goes with
    own := nofun
    follows := nofun
    waits := fun closed _ => goes.waits closed rfl
    ends := fun opened _ => goes.ends opened rfl }

theorem Goes.stages {before after : Option RunStage}
    (goes : machine.Goes layout cards connections watch number before after middle seen)
    (next : Worker) (other : Nat) : (middle.setWorker number next).stage? other =
      if other = number then next.run? else machine.stage? other := by
  rw [stage?_setWorker, stage?, stage?, goes.workers]

/-- Who waits for a request that is not answered goes on to wait. -/
private theorem Goes.awaits
    (goes : machine.Goes layout cards connections watch number held.run? next.run? middle seen)
    (found : machine.workers.get? number = some held) {ticket : Nat}
    (awaits : machine.RunAwaits ticket) (unanswered : machine.scheduler.result? ticket = none) :
    (middle.setWorker number next).RunAwaits ticket := by
  obtain ⟨waiter, stage, there, waits⟩ := awaits
  refine ⟨waiter, stage, ?_, waits⟩
  rw [goes.stages]
  split
  · next same =>
      subst same
      rw [stage?, found, Option.bind_some] at there
      refine absurd unanswered (goes.heard ticket ?_)
      rw [there]
      exact waits
  · exact there

section

variable (accords : machine.Accords layout cards connections watch)
  (goes : machine.Goes layout cards connections watch number held.run? next.run? middle seen)
  (found : machine.workers.get? number = some held)

include accords goes found

/-- A run of another worker is open only when this one is in no open run, and then the step does not
matter to it. -/
private theorem Accords.followsOther {other : Nat} {stage : RunStage} (differ : other ≠ number)
    (there : machine.stage? other = some stage) (opened : stage.isOpen = true) :
    middle.Follows layout cards connections seen stage := by
  have alone := accords.alone other stage there opened
  have before : held.run?.any RunStage.isOpen = false := by
    by_contra inside
    obtain ⟨run, running, inside⟩ := (Option.any_eq_true _ _).mp ((Bool.not_eq_false _).mp inside)
    have holder := accords.alone number run (by rw [stage?, found]; exact running) inside
    exact differ (Option.some.inj (alone.symm.trans holder))
  have after : next.run?.any RunStage.isOpen = false := by
    by_contra inside
    have holder := goes.own ((Bool.not_eq_false _).mp inside)
    exact differ (Option.some.inj ((goes.others other differ alone).symm.trans holder))
  obtain ⟨engine, clock, rfl⟩ := goes.waits before after
  have follows := accords.running other stage there opened
  unfold Follows at follows ⊢
  rw [engine, clock]
  split at follows
  · exact follows
  · obtain ⟨left, progress, comes, pursues, inTime⟩ := follows
    rcases goes.scheduler with same | ⟨request, ticket, sent, -⟩
    · rw [same]
      exact ⟨left, progress, comes, pursues, inTime⟩
    · refine ⟨left, progress, comes.send sent, pursues, fun service served => ?_⟩
      rw [(Scheduler.send_frame sent).1] at served
      exact inTime service served

/-- A step of a worker other than worker zero. -/
theorem Accords.stride (callers : ∀ stage, next = .caller stage → stage.Partakes layout) :
    (middle.setWorker number next).Accords layout cards connections seen := by
  have stages := goes.stages next
  have orderly := accords.orderly
  have here : (middle.setWorker number next).workers.get? number = some next := by
    rw [get?_setWorker, if_pos rfl]
  have before : ∀ {other : Nat}, other ≠ number →
      (middle.setWorker number next).workers.get? other = machine.workers.get? other := by
    intro other differ
    rw [get?_setWorker, if_neg differ, goes.workers]
  have awaits : ∀ ticket ∈ machine.scheduler.tickets, machine.RunAwaits ticket →
      (middle.setWorker number next).RunAwaits ticket := fun ticket known waits =>
    goes.awaits found waits (orderly.result?_eq_none known)
  refine ⟨fun other worker there => ?_, fun other stage there => ?_,
    fun other stage there opened => ?_, ?_, ?_, fun entry waits => ?_, fun service served => ?_,
    fun resting => ?_, fun other stage there opened => ?_⟩
  · change other < middle.nextWorker
    rw [goes.nextWorker]
    by_cases same : other = number
    · exact same ▸ accords.numbered number held found
    · exact accords.numbered other worker ((before same).symm.trans there)
  · by_cases same : other = number
    · subst same
      exact callers stage (Option.some.inj (here.symm.trans there))
    · exact accords.callers other stage ((before same).symm.trans there)
  · rw [stages] at there
    split at there
    · next same =>
        subst same
        refine goes.own ?_
        rw [there]
        exact opened
    · next differ => exact goes.others other differ (accords.alone other stage there opened)
  · change middle.scheduler.Orderly
    rcases goes.scheduler with same | ⟨request, ticket, sent, -⟩
    · rw [same]
      exact orderly
    · exact orderly.send sent
  · change middle.scheduler.limit = middle.engine.config.taskTimeout
    rw [goes.config, ← accords.limit]
    rcases goes.scheduler with same | ⟨request, ticket, sent, -⟩
    · rw [same]
    · exact (Scheduler.send_frame sent).2.2
  · have old : ∀ entry ∈ machine.scheduler.requests, entry.2.task.SetsEntry layout ∨
        (middle.setWorker number next).RunAwaits entry.1 := fun entry waits =>
      (accords.waiting entry waits).imp_right
        (awaits entry.1 (List.mem_append_right _ (List.mem_map_of_mem waits)))
    rcases goes.scheduler with same | ⟨request, ticket, sent, kind⟩
    · exact old entry (same ▸ waits)
    · rcases (Scheduler.mem_requests_of_send sent).mp waits with rfl | earlier
      · refine kind.imp_right fun waits => ?_
        obtain ⟨run, running, waits⟩ := Option.bind_eq_some_iff.mp waits
        refine ⟨number, run, ?_, waits⟩
        rw [stages, if_pos rfl]
        exact running
      · exact old entry earlier
  · have there : machine.scheduler.service = some service := by
      rcases goes.scheduler with same | ⟨request, ticket, sent, -⟩
      · exact same ▸ served
      · exact (Scheduler.send_frame sent).1.symm.trans served
    refine (accords.served service there).imp_right (awaits service.ticket ?_)
    rw [Scheduler.tickets, there]
    exact List.mem_cons_self ..
  · change middle.engine.Rested layout cards connections seen.Faithful
    have closed : next.run?.any RunStage.isOpen = false := by
      cases running : next.run? with
      | none => rfl
      | some run =>
          refine resting number run ?_
          rw [stages, if_pos rfl]
          exact running
    cases opened : held.run?.any RunStage.isOpen with
    | true => exact goes.ends opened closed
    | false =>
        obtain ⟨engine, -, rfl⟩ := goes.waits opened closed
        rw [engine]
        refine accords.resting fun other stage there => ?_
        by_cases same : other = number
        · subst same
          rw [stage?, found, Option.bind_some] at there
          rw [there] at opened
          exact opened
        · refine resting other stage ?_
          rw [stages, if_neg same]
          exact there
  · change middle.Follows layout cards connections seen stage
    rw [stages] at there
    split at there
    · exact goes.follows stage there opened
    · next differ => exact accords.followsOther goes found differ there opened

end

/-- A worker in no open run leaves everything alone but for requests to set the values of entries. -/
theorem goes_beside {before after : Option RunStage} (outside : before.any RunStage.isOpen = false)
    (still : after.any RunStage.isOpen = false) {scheduler : Scheduler.OfTasks}
    (sends : scheduler = machine.scheduler ∨ ∃ request ticket,
      machine.scheduler.send request = .ok (ticket, scheduler) ∧ request.task.SetsEntry layout) :
    machine.Goes layout cards connections watch number before after
      { machine with scheduler := scheduler } watch where
  workers := rfl
  nextWorker := rfl
  config := rfl
  others := fun _ _ held => held
  own := fun opened => nomatch still.symm.trans opened
  heard := by
    intro ticket waits
    obtain ⟨stage, rfl, waits⟩ := Option.bind_eq_some_iff.mp waits
    cases (RunStage.isOpen_of_ticket? waits).symm.trans outside
  scheduler := sends.imp_right fun ⟨request, ticket, sent, sets⟩ =>
    ⟨request, ticket, sent, .inl sets⟩
  follows := by
    rintro stage rfl opened
    cases opened.symm.trans still
  waits := fun _ _ => ⟨rfl, rfl, rfl⟩
  ends := fun opened => nomatch outside.symm.trans opened

/-- A step of the run of a worker. -/
theorem Accords.goOn (setting : Setting cards connections)
    (accords : machine.Accords layout cards connections watch)
    (found : machine.workers.get? number = some held) {stage : RunStage}
    (running : held.run? = some stage) {moved : RunStage × Machine}
    (stepped : machine.stepRun number stage = some moved) :
    machine.Goes layout cards connections watch number held.run? (held.goOn moved.1).run? moved.2
      (watch.afterMove machine.engine moved.2.engine held.run? (held.goOn moved.1).run?) := by
  have there : machine.stage? number = some stage := by
    rw [stage?, found]
    exact running
  have goes := accords.goes setting there stepped
  rw [running, Worker.run?_goOn]
  obtain ⟨next, middle⟩ := moved
  cases next with
  | «over» result =>
      have same : watch.afterMove machine.engine middle.engine (some stage) (some (.over result)) =
          watch.afterMove machine.engine middle.engine (some stage) none := by
        cases stage <;> rfl
      exact same ▸ goes.over
  | _ => exact goes

/-- What a step of a caller does that runs the graph or sets the value of an entry. -/
theorem Accords.goesCall (setting : Setting cards connections)
    (accords : machine.Accords layout cards connections watch) {stage : CallStage}
    (found : machine.workers.get? number = some (.caller stage)) {moved : CallStage × Machine}
    (stepped : machine.stepCall number stage = some moved) :
    machine.Goes layout cards connections watch number (Worker.caller stage).run?
        (Worker.caller moved.1).run? moved.2 (watch.afterMove machine.engine moved.2.engine
          (Worker.caller stage).run? (Worker.caller moved.1).run?) ∧
      moved.1.Partakes layout := by
  have partakes := accords.callers number stage found
  cases stage with
  | fresh call =>
      cases stepped
      cases call with
      | exec inputs force => exact ⟨goes_beside rfl rfl (.inl rfl), rfl⟩
      | setInput place value => exact ⟨goes_beside rfl rfl (.inl rfl), partakes⟩
      | _ => exact partakes.elim
  | running run restart =>
      obtain rfl : restart = false := partakes
      obtain ⟨⟨next, middle⟩, moves, rfl⟩ := Option.map_eq_some_iff.mp stepped
      have goes := accords.goOn setting found rfl moves
      cases next with
      | «over» result => cases result <;> exact ⟨goes, trivial⟩
      | _ => exact ⟨goes, rfl⟩
  | requesting request =>
      cases stepped
      obtain ⟨ticket, scheduler, sent⟩ := accords.orderly.send_ok request
      simp only [requestTask, send, sent]
      exact ⟨goes_beside rfl rfl (.inr ⟨request, ticket, sent, partakes⟩), trivial⟩
  | awaiting ticket =>
      obtain ⟨result, -, rfl⟩ := Option.map_eq_some_iff.mp stepped
      exact ⟨goes_beside rfl rfl (.inl rfl), trivial⟩
  | answered result => cases stepped
  | _ => exact partakes.elim

/-- What a step of a ticker does. -/
theorem Accords.goesTicker (setting : Setting cards connections)
    (accords : machine.Accords layout cards connections watch) {ticker : Ticker}
    (found : machine.workers.get? number = some (.ticker ticker)) {moved : Ticker × Machine}
    (stepped : machine.stepTicker number ticker = some moved) :
    machine.Goes layout cards connections watch number (Worker.ticker ticker).run?
      (Worker.ticker moved.1).run? moved.2 (watch.afterMove machine.engine moved.2.engine
        (Worker.ticker ticker).run? (Worker.ticker moved.1).run?) := by
  obtain ⟨interval, inputs, due, stopped, ticks, stage⟩ := ticker
  cases stage with
  | waiting =>
      simp only [stepTicker] at stepped
      split at stepped
      · cases stepped
        exact goes_beside rfl rfl (.inl rfl)
      · split at stepped
        · cases stepped
          exact goes_beside rfl rfl (.inl rfl)
        · cases stepped
  | running run =>
      obtain ⟨⟨next, middle⟩, moves, rfl⟩ := Option.map_eq_some_iff.mp stepped
      exact accords.goOn setting found rfl moves
  | ended => cases stepped

/-- A step of a worker other than worker zero keeps what is known. -/
theorem Accords.work (setting : Setting cards connections)
    (accords : machine.Accords layout cards connections watch) (other : number ≠ server)
    (part : machine.takesPart number = true) (stepped : machine.step number = some after) :
    after.Accords layout cards connections (watch.afterStep number machine after) := by
  have steps : ∀ {held next : Worker} {middle : Machine},
      machine.workers.get? number = some held → after = middle.setWorker number next →
      machine.Goes layout cards connections watch number held.run? next.run? middle
        (watch.afterMove machine.engine middle.engine held.run? next.run?) →
      (∀ stage, next = .caller stage → stage.Partakes layout) →
      after.Accords layout cards connections (watch.afterStep number machine after) := by
    rintro held next middle found rfl goes callers
    have same : watch.afterStep number machine (middle.setWorker number next) =
        watch.afterMove machine.engine middle.engine held.run? next.run? := by
      rw [Watch.afterStep, if_neg other, goes.stages, if_pos rfl, stage?, found]
      rfl
    rw [same]
    exact accords.stride goes found callers
  rw [takesPart, if_neg other] at part
  rw [step, if_neg other] at stepped
  cases found : machine.workers.get? number with
  | none =>
      rw [found] at part
      cases part
  | some held =>
      rw [found] at part stepped
      cases held with
      | caller stage =>
          obtain ⟨⟨next, middle⟩, moves, same⟩ := Option.map_eq_some_iff.mp stepped
          obtain ⟨goes, partakes⟩ := accords.goesCall setting found moves
          refine steps found same.symm goes ?_
          rintro _ ⟨⟩
          exact partakes
      | ticker ticker =>
          obtain ⟨⟨next, middle⟩, moves, same⟩ := Option.map_eq_some_iff.mp stepped
          exact steps found same.symm (accords.goesTicker setting found moves) (by rintro _ ⟨⟩)
      | courier => cases part

/-! ## Everything that happens -/

/-- Workers that are in the same runs make no difference. -/
theorem Accords.regard (accords : machine.Accords layout cards connections watch)
    (engine : after.engine = machine.engine) (scheduler : after.scheduler = machine.scheduler)
    (runGate : after.runGate = machine.runGate) (clock : after.clock = machine.clock)
    (stages : after.stage? = machine.stage?)
    (workers : ∀ number held, after.workers.get? number = some held →
      number < after.nextWorker ∧ ∀ stage, held = .caller stage → stage.Partakes layout) :
    after.Accords layout cards connections watch := by
  have awaits : after.RunAwaits = machine.RunAwaits := by
    funext ticket
    rw [RunAwaits, RunAwaits, stages]
  refine ⟨fun number held there => (workers number held there).1,
    fun number stage there => (workers number _ there).2 stage rfl, ?_, ?_, ?_, ?_, ?_, ?_, ?_⟩
  · rw [stages, runGate]
    exact accords.alone
  · rw [scheduler]
    exact accords.orderly
  · rw [scheduler, engine]
    exact accords.limit
  · rw [scheduler, awaits]
    exact accords.waiting
  · rw [scheduler, awaits]
    exact accords.served
  · rw [Resting, stages, engine]
    exact accords.resting
  · rw [stages]
    intro number stage there opened
    have follows := accords.running number stage there opened
    unfold Follows at follows ⊢
    rw [engine, scheduler, clock]
    exact follows

/-- Who joins outside of all runs makes no difference. -/
theorem Accords.enlist (accords : machine.Accords layout cards connections watch) {worker : Worker}
    (idle : worker.run? = none) (partakes : ∀ stage, worker = .caller stage → stage.Partakes layout)
    (ticker : Option Nat) :
    Accords { (machine.enlist worker).2 with ticker := ticker } layout cards connections watch := by
  have free : machine.workers.get? machine.nextWorker = none :=
    Option.eq_none_iff_forall_ne_some.mpr fun held there =>
      Nat.lt_irrefl _ (accords.numbered _ held there)
  refine accords.regard rfl rfl rfl rfl (stage?_enlist idle free) fun number held there => ?_
  have set : (machine.setWorker machine.nextWorker worker).workers.get? number = some held := there
  rw [get?_setWorker] at set
  split at set
  · next same =>
      obtain rfl := Option.some.inj set
      exact ⟨same ▸ Nat.lt_succ_self _, partakes⟩
  · refine ⟨Nat.lt_succ_of_lt (accords.numbered number held set), ?_⟩
    rintro stage rfl
    exact accords.callers number stage set

theorem Accords.stopTicker (accords : machine.Accords layout cards connections watch) :
    machine.stopTicker.Accords layout cards connections watch := by
  obtain ⟨engine, scheduler, runGate, clock, nextWorker⟩ := machine.stopTicker_frame
  refine accords.regard engine scheduler runGate clock machine.stage?_stopTicker
    fun number held there => ?_
  rw [nextWorker]
  rcases machine.get?_stopTicker number with same | ⟨ticker, before, after⟩
  · rw [same] at there
    refine ⟨accords.numbered number held there, ?_⟩
    rintro stage rfl
    exact accords.callers number stage there
  · obtain rfl := Option.some.inj (after.symm.trans there)
    exact ⟨accords.numbered number _ before, nofun⟩

/-- Time passes while nothing is late. -/
theorem Accords.wait (accords : machine.Accords layout cards connections watch) {time : Nat}
    (waits : machine.mayWait time = true) :
    Accords { machine with clock := time } layout cards connections watch := by
  refine { accords with running := fun number stage there opened => ?_ }
  have follows := accords.running number stage there opened
  unfold Follows at follows ⊢
  split at follows
  · exact follows
  · obtain ⟨left, progress, comes, pursues, inTime⟩ := follows
    refine ⟨left, progress, comes, pursues, fun service served same => ?_⟩
    have before := inTime service served same
    have served : machine.scheduler.service = some service := served
    rw [mayWait, served, Bool.and_eq_true] at waits
    obtain ⟨early, within⟩ := waits
    unfold Service.InTime at before ⊢
    cases reached : service.progress with
    | firing | acting =>
        rw [reached] at before early
        obtain ⟨begun, wake, deadline, -, -⟩ := before
        exact ⟨begun, wake, deadline, of_decide_eq_true early, within⟩
    | visiting | ended => trivial
    | fresh | walking =>
        rw [reached] at early
        cases early

/-- Everything that may happen keeps what is known. -/
theorem Accords.happen (setting : Setting cards connections)
    (accords : machine.Accords layout cards connections watch) {incident : Incident}
    (admitted : machine.admits incident = true) (happened : machine.undergo incident = some after) :
    after.Accords layout cards connections (watch.after machine incident after) := by
  cases incident with
  | call call =>
      cases happened
      refine accords.enlist rfl ?_ machine.ticker
      rintro _ ⟨⟩
      cases call with
      | exec => trivial
      | setInput place value =>
          obtain ⟨graph, held, -, bare⟩ := accords.keeps
          have entry : graph.net.entryPlaces.contains place = true := by
            rw [admits, hasEntry, held] at admitted
            exact admitted
          rw [Net.entryPlaces_of_bare bare] at entry
          exact List.contains_iff_mem.mp entry
      | _ => cases admitted
  | tick interval inputs =>
      cases happened
      rw [startTicker]
      split
      · exact accords
      · refine accords.enlist rfl ?_ _
        rintro _ ⟨⟩
  | halt =>
      cases happened
      exact accords.stopTicker
  | wait time =>
      rw [undergo] at happened
      split at happened <;> cases happened
      exact accords.wait admitted
  | board change => cases admitted
  | step worker =>
      by_cases zero : worker = server
      · subst zero
        rw [undergo, step, if_pos rfl] at happened
        exact accords.serve setting happened
      · exact accords.work setting zero admitted happened

/-- A machine at rest accords with what is seen of it: nothing. -/
theorem AtRest.accords {first : Machine} (rest : first.AtRest cards connections) {graph : Graph}
    (held : first.engine.graph = some graph) :
    first.Accords graph.net cards connections .blank where
  numbered := rest.numbered
  callers := by
    intro number stage there
    obtain ⟨result, rfl⟩ := rest.callers number stage there
    trivial
  alone := fun number stage there opened =>
    nomatch opened.symm.trans (rest.resting number stage there)
  orderly := rest.orderly
  limit := rest.limit
  waiting := by
    rw [rest.empty]
    exact fun entry waits => absurd waits List.not_mem_nil
  served := fun service served => nomatch rest.idle.symm.trans served
  resting := fun _ => rest.settled.rested held rfl
  running := fun number stage there opened =>
    nomatch opened.symm.trans (rest.resting number stage there)

/-- Whatever runs are called for and whatever entries are set in whatever order, a machine accords with
what is seen of it. -/
theorem Interleaves.accords (setting : Setting cards connections) {first last : Machine}
    (rest : first.AtRest cards connections) {graph : Graph}
    (held : first.engine.graph = some graph) (interleaves : first.Interleaves last watch) :
    last.Accords graph.net cards connections watch := by
  unfold Interleaves at interleaves
  induction interleaves with
  | start => exact rest.accords held
  | happen incident _ admitted happened ih => exact ih.happen setting admitted happened

end Machine

end CardNet
