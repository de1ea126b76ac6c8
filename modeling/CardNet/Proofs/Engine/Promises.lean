import CardNet.Proofs.Engine.Deliveries

/-!
# Promises are kept

What a step of the scheduler means for the requests of runs and couriers, and what a step of a worker
means for the promises that a transition will be tried: a request keeps its result, one that tries a
transition either fires it or finds that it may not fire, and a run or a courier that promises to try a
transition goes on to do so (`Worker.Strides.promises`).
-/

namespace CardNet

namespace Scheduler

variable {scheduler after : OfTasks} {request : Request Task} {ticket other : Nat}
  {transition : String} {result : Except Failure Value}

/-! ## Sending -/

/-- Sending a request changes nothing but what waits. -/
theorem send_frame (sent : scheduler.send request = .ok (ticket, after)) :
    after.service = scheduler.service ∧ after.fates = scheduler.fates ∧
      after.limit = scheduler.limit := by
  obtain ⟨-, same, -⟩ := send_spec sent
  rw [same]
  exact ⟨rfl, rfl, rfl⟩

theorem mem_requests_of_send (sent : scheduler.send request = .ok (ticket, after))
    {entry : Nat × Request Task} :
    entry ∈ after.requests ↔ entry = (ticket, request) ∨ entry ∈ scheduler.requests := by
  rw [(send_spec sent).2.2.mem_iff, List.mem_cons]

theorem Ends.send (ends : scheduler.Ends other result)
    (sent : scheduler.send request = .ok (ticket, after)) : after.Ends other result := by
  obtain ⟨service, fates, -⟩ := send_frame sent
  rw [Ends, result?, fates, service]
  exact ends

theorem Tries.send (tries : scheduler.Tries other transition)
    (sent : scheduler.send request = .ok (ticket, after)) : after.Tries other transition := by
  rcases tries with ⟨known, waits, fires⟩ | served
  · exact .inl ⟨known, (mem_requests_of_send sent).mpr (.inr waits), fires⟩
  · rw [Tries, (send_frame sent).1]
    exact .inr served

/-- A request to fire a transition tries it. -/
theorem tries_of_send (sent : scheduler.send (Task.firing transition) = .ok (ticket, after)) :
    after.Tries ticket transition :=
  .inl ⟨Task.firing transition, (mem_requests_of_send sent).mpr (.inl rfl), rfl⟩

theorem notes_of_send (sent : scheduler.send request = .ok (ticket, after)) (place : String) :
    after.notes place = scheduler.notes place + (request.task.notes place).toNat := by
  obtain ⟨service, -, -⟩ := send_frame sent
  rw [notes, notes, service, (send_spec sent).2.2.countP_eq, List.countP_cons]
  cases request.task.notes place with
  | false => rfl
  | true => exact Nat.add_right_comm ..

/-! ## Service -/

/-- A result is known of a request that has ended, whose sender may not have heard. -/
theorem Ends.result? (ends : scheduler.Ends ticket result) (orderly : scheduler.Orderly)
    {heard : Except Failure Value} (found : scheduler.result? ticket = some heard) :
    heard = result := by
  rcases ends with known | ⟨service, served, rfl, -⟩
  · exact Option.some.inj (found.symm.trans known)
  · have unanswered := orderly.unanswered service.ticket (by
      rw [tickets, served]
      exact List.mem_cons_self ..)
    rw [Scheduler.result?, unanswered] at found
    cases found

/-- What is answered has not been answered before. -/
theorem Orderly.result?_eq_none (orderly : scheduler.Orderly) (known : ticket ∈ scheduler.tickets) :
    scheduler.result? ticket = none := by
  rw [Scheduler.result?, orderly.unanswered ticket known]

section

variable {now : Nat} (orderly : scheduler.Orderly)
  (turned : scheduler.turn Progress.fresh now = some after)

include orderly turned

theorem Ends.turn (ends : scheduler.Ends ticket result) : after.Ends ticket result := by
  obtain ⟨_, _, free, -, -, -, fates, -⟩ := turn_spec orderly turned
  rcases ends with known | ⟨service, served, -⟩
  · exact .inl (by rw [Scheduler.result?, fates]; exact known)
  · cases free.symm.trans served

theorem Tries.turn (tries : scheduler.Tries ticket transition) :
    after.Tries ticket transition := by
  obtain ⟨first, request, free, split, service, -⟩ := turn_spec orderly turned
  rcases tries with ⟨known, waits, fires⟩ | ⟨service, served, -⟩
  · rw [split, List.mem_cons] at waits
    rcases waits with same | later
    · cases same
      exact .inr ⟨_, service, rfl, .inl (by rw [fires])⟩
    · exact .inl ⟨known, later, fires⟩
  · cases free.symm.trans served

theorem notes_of_turn (place : String) : after.notes place = scheduler.notes place := by
  obtain ⟨first, request, free, split, service, -⟩ := turn_spec orderly turned
  rw [notes, notes, free, service, split]
  simp only [Option.toList, List.countP_cons, List.countP_nil, Progress.notes]
  omega

end

section

variable {service : Service Progress} (served : scheduler.service = some service)

include served

theorem service_proceed (next : Progress) :
    (scheduler.proceed next).service = some { service with progress := next } := by
  rw [proceed, served]
  rfl

/-- A request that has ended is not gone on with. -/
theorem Ends.proceed (ends : scheduler.Ends ticket result)
    (begun : ∀ ended, service.progress ≠ .ended ended) (next : Progress) :
    (scheduler.proceed next).Ends ticket result := by
  rcases ends with known | ⟨other, held, -, ended⟩
  · exact .inl known
  · obtain rfl := Option.some.inj (served.symm.trans held)
    exact absurd ended (begun result)

theorem Ends.conclude (ends : scheduler.Ends ticket result) (orderly : scheduler.Orderly)
    {last : Except Failure Value} (ended : service.progress = .ended last) :
    (scheduler.conclude last).Ends ticket result := by
  obtain ⟨-, -, -, fates⟩ := conclude_spec served last
  refine .inl ?_
  rw [Scheduler.result?, fates]
  rcases ends with known | ⟨other, held, rfl, same⟩
  · rw [if_neg]
    · exact known
    · rintro rfl
      have unanswered : scheduler.result? service.ticket = none := orderly.result?_eq_none (by
        rw [tickets, served]
        exact List.mem_cons_self ..)
      cases unanswered.symm.trans known
  · obtain rfl := Option.some.inj (served.symm.trans held)
    rw [if_pos rfl]
    cases ended.symm.trans same
    rfl

theorem Tries.conclude (tries : scheduler.Tries ticket transition) {last : Except Failure Value}
    (ended : service.progress = .ended last) :
    (scheduler.conclude last).Tries ticket transition := by
  obtain ⟨-, requests, -⟩ := conclude_spec served last
  rcases tries with ⟨known, waits, fires⟩ | ⟨other, held, -, tries⟩
  · exact .inl ⟨known, requests ▸ waits, fires⟩
  · obtain rfl := Option.some.inj (served.symm.trans held)
    rw [ended] at tries
    rcases tries with tries | ⟨_, _, tries, -⟩ <;> cases tries

theorem notes_of_conclude {last : Except Failure Value} (ended : service.progress = .ended last)
    (place : String) : (scheduler.conclude last).notes place = scheduler.notes place := by
  obtain ⟨free, requests, -⟩ := conclude_spec served last
  rw [notes, notes, free, requests, served]
  simp [ended, Progress.notes]

theorem notes_of_proceed (next : Progress) (place : String) :
    (scheduler.proceed next).notes place + (service.progress.notes place).toNat =
      scheduler.notes place + (next.notes place).toNat := by
  rw [notes, notes, service_proceed served, served, requests_proceed]
  simp only [Option.toList_some, List.countP_singleton]
  cases service.progress.notes place with
  | false => cases next.notes place <;> rfl
  | true => cases next.notes place <;> simp

end

/-- A request that tries to fire waits, or is served. -/
theorem Tries.mem_tickets (tries : scheduler.Tries ticket transition) :
    ticket ∈ scheduler.tickets := by
  rw [tickets, List.mem_append]
  rcases tries with ⟨request, waits, -⟩ | ⟨service, served, rfl, -⟩
  · exact .inr (List.mem_map_of_mem waits)
  · rw [served]
    exact .inl (List.mem_cons_self ..)

/-- What is done for requests from one scheduler to the next: their results stay, and a request that
tries a transition goes on to do so, or has fired it. -/
structure Furthers (before after : OfTasks) (transition : String) : Prop where
  ends : ∀ ticket result, before.Ends ticket result → after.Ends ticket result
  tries : ∀ ticket, before.Tries ticket transition →
    after.Tries ticket transition ∨ after.Bears ticket

theorem Furthers.refl (scheduler : OfTasks) (transition : String) :
    scheduler.Furthers scheduler transition := ⟨fun _ _ ends => ends, fun _ => .inl⟩

theorem furthers_of_send (sent : scheduler.send request = .ok (ticket, after))
    (transition : String) : scheduler.Furthers after transition :=
  ⟨fun _ _ ends => ends.send sent, fun _ tries => .inl (tries.send sent)⟩

theorem furthers_of_turn {now : Nat} (orderly : scheduler.Orderly)
    (turned : scheduler.turn Progress.fresh now = some after) (transition : String) :
    scheduler.Furthers after transition :=
  ⟨fun _ _ ends => ends.turn orderly turned, fun _ tries => .inl (tries.turn orderly turned)⟩

theorem furthers_of_conclude {service : Service Progress} (orderly : scheduler.Orderly)
    (served : scheduler.service = some service) (ended : service.progress = .ended result)
    (transition : String) : scheduler.Furthers (scheduler.conclude result) transition :=
  ⟨fun _ _ ends => ends.conclude served orderly ended,
    fun _ tries => .inl (tries.conclude served ended)⟩

/-- A request that is gone on with is furthered when it goes on to try what it tried, or has fired
it. -/
theorem furthers_of_proceed {service : Service Progress}
    (served : scheduler.service = some service) (begun : ∀ ended, service.progress ≠ .ended ended)
    {next : Progress} (goes : service.progress.Tries transition →
      next.Tries transition ∨ ∃ result, next = .ended result ∧ Bearing result) :
    scheduler.Furthers (scheduler.proceed next) transition := by
  refine ⟨fun _ _ ends => ends.proceed served begun next, fun ticket tries => ?_⟩
  have now := service_proceed served next
  rcases tries with ⟨request, waits, fires⟩ | ⟨other, held, rfl, tries⟩
  · exact .inl (.inl ⟨request, waits, fires⟩)
  · obtain rfl := Option.some.inj (served.symm.trans held)
    rcases goes tries with still | ⟨result, ended, bearing⟩
    · exact .inl (.inr ⟨_, now, rfl, still⟩)
    · exact .inr ⟨result, .inr ⟨_, now, rfl, ended⟩, bearing⟩

end Scheduler

/-! ## Runs and couriers -/

section

variable {before after : Scheduler.OfTasks} {lasting : Bool} {transition : String}

theorem RunStage.Promises.mono {stage : RunStage}
    (promises : stage.Promises before lasting transition)
    (furthers : before.Furthers after transition) : stage.Promises after lasting transition := by
  cases stage with
  | firing inputs fired progressed rest awaited =>
      rcases promises with already | later | tries | ⟨result, ends, bears⟩
      · exact .inl already
      · exact .inr (.inl later)
      · exact .inr (.inr (furthers.tries awaited tries))
      · exact .inr (.inr (.inr ⟨result, furthers.ends awaited result ends, bears⟩))
  | _ => exact promises

theorem CourierStage.Promises.mono {stage : CourierStage} (promises : stage.Promises before)
    (furthers : before.Furthers after transition) : stage.Promises after := by
  cases stage with
  | recording awaited =>
      obtain ⟨value, ends⟩ := promises
      exact ⟨value, furthers.ends awaited _ ends⟩
  | running run => cases run <;> exact promises
  | waiting | reporting | withdrawing | ended => exact promises

/-- A run that promises something is open. -/
theorem RunStage.Promises.isOpen {stage : RunStage}
    (promises : stage.Promises before lasting transition) : stage.isOpen = true := by
  cases stage with
  | opening | listing | passing | firing => rfl
  | _ => exact promises.elim

end

namespace RunStage.Moves

variable {machine middle : Machine} {number : Nat} {lasting : Bool} {transition : String}
  {stage next : RunStage} (moves : stage.Moves number machine next middle)
  (fine : next.hasFailed = false)

include moves fine

/-- What a step of a run leaves as it is, unless the run fails. -/
theorem frame : middle.workers = machine.workers ∧ middle.nextWorker = machine.nextWorker ∧
    middle.engine.frame = machine.engine.frame := by
  cases moves with
  | opened held => exact ⟨rfl, rfl, Engine.frame_opened held _⟩
  | closed => exact ⟨rfl, rfl, Engine.frame_close ..⟩
  | failed => cases fine
  | _ => exact ⟨rfl, rfl, rfl⟩

/-- A step of a run sends a request to fire, or none. -/
theorem scheduler : middle.scheduler = machine.scheduler ∨ ∃ other ticket,
    machine.scheduler.send (Task.firing other) = .ok (ticket, middle.scheduler) ∧
      ∃ inputs fired progressed rest, next = .firing inputs fired progressed rest ticket := by
  cases moves with
  | attempt sent => exact .inr ⟨_, _, sent, _, _, _, _, rfl⟩
  | failed => cases fine
  | _ => exact .inl rfl

/-- A run that promises to try a transition goes on to do so. -/
theorem promises (orderly : machine.scheduler.Orderly)
    (listed : ∀ graph, machine.engine.graph = some graph → transition ∈ graph.net.transitions.names)
    (promises : stage.Promises machine.scheduler lasting transition) :
    next.Promises middle.scheduler lasting transition := by
  cases moves with
  | wait => exact promises
  | enter => exact promises.elim
  | opened => trivial
  | recalled => cases promises.2
  | listed held => exact .inr (listed _ held)
  | again => trivial
  | spent =>
      cases promises with
      | inl progressed => cases progressed
      | inr inside => cases inside
  | attempt sent =>
      rcases promises with already | inside
      · exact .inl already
      · rcases List.mem_cons.mp inside with rfl | later
        · exact .inr (.inr (.inl (Scheduler.tries_of_send sent)))
        · exact .inr (.inl later)
  | fired => exact .inl rfl
  | idle found fruitless =>
      rcases promises with already | later | tries | ⟨result, ends, bears⟩
      · exact .inl already
      · exact .inr later
      · cases found.symm.trans (orderly.result?_eq_none tries.mem_tickets)
      · exact absurd (bears _ (ends.result? orderly found).symm) fruitless
  | closed => exact promises.elim
  | left => exact promises.elim
  | failed => cases fine

end RunStage.Moves

/-! ## Workers -/

namespace Machine

variable {machine after : Machine} {number : Nat} {lasting : Bool} {transition : String}

theorem stage?_setWorker (machine : Machine) (number other : Nat) (worker : Worker) :
    (machine.setWorker number worker).stage? other =
      if other = number then worker.run? else machine.stage? other := by
  rw [stage?, get?_setWorker]
  split <;> rfl

theorem courier?_setWorker (machine : Machine) (number other : Nat) (worker : Worker) :
    (machine.setWorker number worker).courier? other =
      if other = number then worker.courier? else machine.courier? other := by
  rw [courier?, get?_setWorker]
  split <;> rfl

/-- Who joins outside of all runs is in none. -/
theorem stage?_enlist {worker : Worker} (idle : worker.run? = none)
    (free : machine.workers.get? machine.nextWorker = none) :
    (machine.enlist worker).2.stage? = machine.stage? := by
  funext number
  refine (stage?_setWorker machine machine.nextWorker number worker).trans ?_
  split
  · next same => rw [idle, same, stage?, free]; rfl
  · rfl

/-- Nothing but a mark on the ticker changes when it is told to stop. -/
theorem get?_stopTicker (machine : Machine) (number : Nat) :
    machine.stopTicker.workers.get? number = machine.workers.get? number ∨ ∃ ticker,
      machine.workers.get? number = some (.ticker ticker) ∧
        machine.stopTicker.workers.get? number = some (.ticker { ticker with stopped := true }) := by
  rw [stopTicker]
  split
  · exact .inl rfl
  · next stopped _ =>
      dsimp only
      split
      · next ticker found =>
          change (machine.setWorker stopped _).workers.get? number = _ ∨ ∃ other, _ ∧
            (machine.setWorker stopped _).workers.get? number = _
          rw [get?_setWorker]
          split
          · next same => exact .inr ⟨ticker, same ▸ found, rfl⟩
          · exact .inl rfl
      · exact .inl rfl

/-- A ticker that is told to stop goes on with its run. -/
theorem run?_stopped (ticker : Ticker) : (Worker.ticker { ticker with stopped := true }).run? =
    (Worker.ticker ticker).run? := by
  obtain ⟨interval, inputs, due, stopped, ticks, stage⟩ := ticker
  cases stage <;> rfl

theorem stage?_stopTicker (machine : Machine) : machine.stopTicker.stage? = machine.stage? := by
  funext number
  rw [stage?, stage?]
  rcases machine.get?_stopTicker number with same | ⟨ticker, before, after⟩
  · rw [same]
  · rw [before, after]
    exact run?_stopped ticker

theorem courier?_stopTicker (machine : Machine) : machine.stopTicker.courier? = machine.courier? := by
  funext number
  rw [courier?, courier?]
  rcases machine.get?_stopTicker number with same | ⟨ticker, before, after⟩
  · rw [same]
  · rw [before, after]
    rfl

/-- What the ticker is told changes nothing but the workers. -/
theorem stopTicker_frame (machine : Machine) :
    machine.stopTicker.engine = machine.engine ∧
      machine.stopTicker.scheduler = machine.scheduler ∧
      machine.stopTicker.runGate = machine.runGate ∧ machine.stopTicker.clock = machine.clock ∧
      machine.stopTicker.nextWorker = machine.nextWorker := by
  rw [stopTicker]
  split
  · exact ⟨rfl, rfl, rfl, rfl, rfl⟩
  · dsimp only
    split <;> exact ⟨rfl, rfl, rfl, rfl, rfl⟩

/-- Promises are kept while runs and couriers stay where they are. -/
theorem Promises.mono (promises : machine.Promises lasting transition)
    (stages : after.stage? = machine.stage?) (couriers : after.courier? = machine.courier?)
    (furthers : machine.scheduler.Furthers after.scheduler transition) :
    after.Promises lasting transition := by
  rcases promises with ⟨number, stage, there, promises⟩ | ⟨rfl, number, courier, there, promises⟩
  · exact .inl ⟨number, stage, stages ▸ there, promises.mono furthers⟩
  · exact .inr ⟨rfl, number, courier, couriers ▸ there, promises.mono furthers⟩

end Machine

namespace Worker

theorem courier?_goOn (held : Worker) (stage : RunStage) :
    (held.goOn stage).courier? =
      held.courier?.map fun courier => { courier with stage := Machine.afterDelivery stage } := by
  cases held <;> rfl

/-- A courier that is in a run. -/
theorem stage_of_run? {held : Worker} {courier : Courier} (there : held.courier? = some courier)
    {run : RunStage} (running : held.run? = some run) : courier.stage = .running run := by
  cases held with
  | caller | ticker => cases there
  | courier other =>
      cases there
      obtain ⟨channel, dismissed, stage⟩ := courier
      cases stage with
      | running => cases running; rfl
      | _ => cases running

namespace Strides

variable {machine middle : Machine} {own : List String} {number : Nat} {held next : Worker}
  (strides : held.Strides own number machine next middle)
  (fine : ∀ run, next.run? = some run → run.hasFailed = false)

/-- A run of a worker that goes on has not failed when the worker shows no failure. -/
theorem fine_of_goOn {run : RunStage}
    (fine : ∀ other, (held.goOn run).run? = some other → other.hasFailed = false) :
    run.hasFailed = false := by
  rw [run?_goOn] at fine
  cases run with
  | «over» => rfl
  | _ => exact fine _ rfl

include strides fine

/-- What a step of a worker leaves as it is. -/
theorem frame : middle.workers = machine.workers ∧ middle.nextWorker = machine.nextWorker ∧
    middle.engine.graph.map Graph.bare = machine.engine.graph.map Graph.bare ∧
    middle.engine.board.bells = machine.engine.board.bells := by
  cases strides with
  | run running moves =>
      obtain ⟨workers, number, frame⟩ := moves.frame (fine_of_goOn fine)
      exact ⟨workers, number, congrArg Engine.Frame.layout frame,
        congrArg (fun frame => frame.post.1) frame⟩
  | aside _ _ beside =>
      obtain ⟨scheduler, gate, rfl, -⟩ := beside
      exact ⟨rfl, rfl, rfl, rfl⟩
  | fetch fetched =>
      unfold Machine.fetch at fetched
      split at fetched <;> cases fetched
      exact ⟨rfl, rfl, rfl, rfl⟩
  | report | shut | noted | missed => exact ⟨rfl, rfl, rfl, rfl⟩

/-- A step of a worker sends at most one request, for which the worker waits if it is one of a run or
of a courier. -/
theorem scheduler : middle.scheduler = machine.scheduler ∨ ∃ request ticket,
    machine.scheduler.send request = .ok (ticket, middle.scheduler) ∧
      (request.task.isAside own = true ∨
        (∃ transition inputs fired progressed rest, request.task = .fire transition ∧
          next.run? = some (.firing inputs fired progressed rest ticket)) ∨
        ∃ place channel, request.task = .event place ∧
          held = .courier ⟨channel, false, .reporting place⟩ ∧
          next = .courier ⟨channel, false, .recording ticket⟩) := by
  cases strides with
  | @run _ stage run _ running moves =>
      rcases moves.scheduler (fine_of_goOn fine) with same | ⟨other, ticket, sent, waiting⟩
      · exact .inl same
      · obtain ⟨inputs, fired, progressed, rest, rfl⟩ := waiting
        exact .inr ⟨_, ticket, sent,
          .inr (.inl ⟨other, inputs, fired, progressed, rest, rfl, run?_goOn ..⟩)⟩
  | aside _ _ beside =>
      obtain ⟨scheduler, gate, rfl, same | ⟨request, ticket, aside, sent⟩⟩ := beside
      · exact .inl same
      · exact .inr ⟨request, ticket, sent, .inl aside⟩
  | fetch fetched =>
      unfold Machine.fetch at fetched
      split at fetched <;> cases fetched
      exact .inl rfl
  | report sent => exact .inr ⟨_, _, sent, .inr (.inr ⟨_, _, rfl, rfl, rfl⟩)⟩
  | shut | noted | missed => exact .inl rfl

theorem furthers (transition : String) :
    machine.scheduler.Furthers middle.scheduler transition := by
  rcases strides.scheduler fine with same | ⟨request, ticket, sent, -⟩
  · rw [same]
    exact .refl ..
  · exact Scheduler.furthers_of_send sent transition

theorem orderly (orderly : machine.scheduler.Orderly) : middle.scheduler.Orderly := by
  rcases strides.scheduler fine with same | ⟨request, ticket, sent, -⟩
  · rw [same]
    exact orderly
  · exact orderly.send sent

variable {lasting : Bool} {transition : String}

/-- A promise of the run of a worker is kept by its next step. -/
theorem run_promises (orderly : machine.scheduler.Orderly)
    (listed : ∀ graph, machine.engine.graph = some graph → transition ∈ graph.net.transitions.names)
    {stage : RunStage} (there : held.run? = some stage)
    (promises : stage.Promises machine.scheduler lasting transition) :
    ∃ run, next.run? = some run ∧ run.Promises middle.scheduler lasting transition := by
  cases strides with
  | @run _ stage run _ running moves =>
      obtain rfl := Option.some.inj (running.symm.trans there)
      have promised := moves.promises (fine_of_goOn fine) orderly listed promises
      refine ⟨run, ?_, promised⟩
      rw [run?_goOn]
      cases run with
      | «over» => exact promised.elim
      | _ => rfl
  | aside apart => cases promises.isOpen.symm.trans (apart.2 stage there).1
  | fetch | report | shut | noted | missed => cases there

/-- A promise of a courier is kept by its next step. -/
theorem courier_promises (transition : String) (orderly : machine.scheduler.Orderly)
    {courier : Courier}
    (there : held.courier? = some courier) (promises : courier.stage.Promises machine.scheduler) :
    (∃ run, next.run? = some run ∧ run.Promises middle.scheduler true transition) ∨
      ∃ after, next.courier? = some after ∧ after.stage.Promises middle.scheduler := by
  have furthers := strides.furthers fine transition
  cases strides with
  | @run _ stage run _ running moves =>
      rw [stage_of_run? there running] at promises
      rw [courier?_goOn, there, run?_goOn]
      cases stage with
      | arriving inputs force =>
          obtain rfl : force = true := promises
          cases moves with
          | wait => exact .inr ⟨_, rfl, rfl⟩
          | enter => exact .inl ⟨_, rfl, rfl, rfl⟩
          | failed => cases fine_of_goOn fine
      | _ => exact promises.elim
  | aside apart =>
      cases held with
      | caller | ticker => cases there
      | courier => cases apart.1
  | fetch | report | shut =>
      cases there
      exact promises.elim
  | noted => exact .inr ⟨_, rfl, rfl⟩
  | missed found =>
      cases there
      obtain ⟨value, ends⟩ := promises
      cases ends.result? orderly found

/-- Promises are kept by a step of a worker. -/
theorem promises (found : machine.workers.get? number = some held)
    (orderly : machine.scheduler.Orderly)
    (listed : ∀ graph, machine.engine.graph = some graph → transition ∈ graph.net.transitions.names)
    (promises : machine.Promises lasting transition) :
    (middle.setWorker number next).Promises lasting transition := by
  obtain ⟨workers, -⟩ := strides.frame fine
  have furthers := strides.furthers fine transition
  have here : (middle.setWorker number next).stage? number = next.run? := by
    rw [Machine.stage?_setWorker, if_pos rfl]
  rcases promises with ⟨other, stage, there, promises⟩ | ⟨rfl, other, courier, there, promises⟩
  · by_cases same : other = number
    · subst same
      rw [Machine.stage?, found] at there
      obtain ⟨run, running, promised⟩ := strides.run_promises fine orderly listed there promises
      exact .inl ⟨other, run, here.trans running, promised⟩
    · refine .inl ⟨other, stage, ?_, promises.mono furthers⟩
      rw [Machine.stage?_setWorker, if_neg same, Machine.stage?, workers]
      exact there
  · by_cases same : other = number
    · subst same
      rw [Machine.courier?, found] at there
      rcases strides.courier_promises fine transition orderly there promises with
        ⟨run, running, promised⟩ | ⟨after, stays, promised⟩
      · exact .inl ⟨other, run, here.trans running, promised⟩
      · refine .inr ⟨rfl, other, after, ?_, promised⟩
        rw [Machine.courier?_setWorker, if_pos rfl]
        exact stays
    · refine .inr ⟨rfl, other, courier, ?_, promises.mono furthers⟩
      rw [Machine.courier?_setWorker, if_neg same, Machine.courier?, workers]
      exact there

end Strides

end Worker

end CardNet
