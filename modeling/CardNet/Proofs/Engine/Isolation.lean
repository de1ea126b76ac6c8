import CardNet.Proofs.Engine.Conduct
import CardNet.Proofs.Engine.Logs

/-!
# Runs are kept apart

A run is under way from when it has reset the graph until it has stored its outputs, has failed, or
was dropped with its courier. Whatever happens meanwhile, and whoever takes steps, nobody else resets
the graph or stores outputs, and of the graph nothing but tokens changes
(`Machine.runs_kept_apart`). So a run that has reset a graph finds it there until the end.
-/

namespace CardNet

namespace Machine

variable {machine middle after : Machine} {worker : Nat}

/-! ## The service of a request -/

/-- What a task comes to in a step of its service: the records are left alone, and while there is a
graph the task does not fail for want of one. -/
def Finds (machine : Machine) (moved : Progress × Machine) : Prop :=
  moved.2.engine.records = machine.engine.records ∧
    (machine.engine.graph.isSome = true → moved.1 ≠ .ended (.error .notBuilt))

/-- Whether a task has failed because there is no graph. -/
def lacksGraph : Progress → Bool
  | .ended (.error .notBuilt) => true
  | _ => false

theorem finds_of_records {moved : Progress × Machine}
    (records : moved.2.engine.records = machine.engine.records)
    (fine : machine.engine.graph.isSome = true → lacksGraph moved.1 = false) :
    machine.Finds moved := by
  refine ⟨records, fun built same => ?_⟩
  have fine := fine built
  rw [same] at fine
  cases fine

end Machine

/-- What is done for a task on a graph does not fail for want of one. -/
theorem Task.Works.finds {engine after : Engine} {clock : Nat} {task : Task} {next : Progress}
    (works : task.Works engine clock next after) :
    after.records = engine.records ∧
      (engine.graph.isSome = true → Machine.lacksGraph next = false) := by
  cases works with
  | unbuilt absent =>
      refine ⟨rfl, fun built => ?_⟩
      rw [absent] at built
      cases built
  | grounded _ _ refused =>
      unfold Engine.launch at refused
      split at refused <;> cases refused
      exact ⟨rfl, fun _ => rfl⟩
  | refused _ refused =>
      unfold Bench.nodeWork at refused
      dsimp only at refused
      split at refused
      · cases refused
      · split at refused
        · cases refused
          exact ⟨rfl, fun _ => rfl⟩
        · split at refused <;> cases refused
  | sets held =>
      simp only [Engine.setPlace, Engine.bench_eq held, Bench.setPlace]
      split
      · exact ⟨rfl, fun _ => rfl⟩
      · split <;> exact ⟨rfl, fun _ => rfl⟩
  | notes held =>
      simp only [Engine.noteEvent, Engine.bench_eq held, Bench.noteEvent]
      split <;> exact ⟨rfl, fun _ => rfl⟩
  | disabled | answered | visits => exact ⟨rfl, fun _ => rfl⟩

/-- What one step of a task does. -/
theorem Progress.Advances.finds {machine after : Machine} {progress next : Progress}
    (advances : progress.Advances machine next after) : machine.Finds (next, after) := by
  cases advances with
  | works _ works => exact Machine.finds_of_records works.finds.1 works.finds.2
  | launches _ _ _ launched =>
      exact Machine.finds_of_records (Engine.records_launch launched) fun _ => rfl
  | @lands flight wake answer =>
      refine Machine.finds_of_records (Engine.records_land ..) fun built => ?_
      obtain ⟨graph, held⟩ := Option.isSome_iff_exists.mp built
      simp only [Engine.land, Engine.bench_eq held]
      cases (graph.net.land machine.engine.board flight).1 <;> rfl
  | @visited card globals =>
      refine Machine.finds_of_records rfl fun _ => ?_
      simp only [Engine.visit]
      cases (card.call none (some globals) machine.engine.board).1 <;> rfl
  | _ => exact Machine.finds_of_records rfl fun _ => rfl

namespace Machine

variable {machine middle after : Machine} {worker : Nat}

/-- What a step of worker zero leaves as it is. -/
structure Attended (before after : Machine) : Prop where
  frame : after.engine.frame = before.engine.frame
  records : after.engine.records = before.engine.records
  workers : after.workers = before.workers
  /-- While there is a graph, nothing that is requested fails for want of one. -/
  found : before.engine.graph.isSome = true → ∀ ticket,
    after.scheduler.Ends ticket (.error .notBuilt) → before.scheduler.Ends ticket (.error .notBuilt)

theorem attended_proceed {service : Service Progress} {moved : Progress × Machine}
    (served : machine.scheduler.service = some service) (serves : Serves machine moved.2)
    (frame : moved.2.engine.frame = machine.engine.frame) (finds : machine.Finds moved) :
    Attended machine (proceed moved) where
  frame := frame
  records := finds.1
  workers := serves.workers
  found := by
    intro built ticket ends
    have scheduler : (proceed moved).scheduler = machine.scheduler.proceed moved.1 := by
      rw [proceed, serves.scheduler]
    rw [scheduler] at ends
    rcases ends with heard | ⟨other, held, -, ended⟩
    · exact .inl heard
    · rw [Scheduler.service_proceed served] at held
      cases held
      exact (finds.2 built ended).elim

theorem attended_stepServer (orderly : machine.scheduler.Orderly)
    (stepped : machine.stepServer = some after) : Attended machine after := by
  cases tends_stepServer stepped with
  | turns _ turned =>
      obtain ⟨first, request, -, -, service, -, fates, -⟩ := Scheduler.turn_spec orderly turned
      refine ⟨rfl, rfl, rfl, fun _ ticket ends => ?_⟩
      rcases ends with heard | ⟨other, held, -, ended⟩
      · refine .inl ?_
        rw [Scheduler.result?, ← fates]
        exact heard
      · cases service.symm.trans held
        cases ended
  | @answers service result served ended =>
      obtain ⟨free, -, -, fates⟩ := Scheduler.conclude_spec served result
      refine ⟨rfl, rfl, rfl, fun _ ticket ends => ?_⟩
      rcases ends with heard | ⟨other, held, -⟩
      · by_cases same : ticket = service.ticket
        · rw [Scheduler.result?, fates, if_pos same] at heard
          cases heard
          exact .inr ⟨service, served, same.symm, ended⟩
        · rw [Scheduler.result?, fates, if_neg same] at heard
          exact .inl heard
      · cases free.symm.trans held
  | works served _ worked =>
      have advances := advances_workOn worked
      exact attended_proceed served advances.serves advances.attends.1 advances.finds
  | @givesUp service served =>
      refine attended_proceed served (serves_giveUp machine service)
        (machine.frame_giveUp service) (finds_of_records ?_ fun _ => rfl)
      obtain ⟨ticket, label, deadline, progress⟩ := service
      cases progress with
      | firing flight wake answer => exact Engine.records_callOff ..
      | _ => rfl

/-! ## Spells -/

/-- Whether a worker is in a run that has reset the graph and has neither stored its outputs nor
failed, and was not dropped. -/
def isUnderway (machine : Machine) (number : Nat) : Bool :=
  (machine.workers.get? number).any fun held => held.stance.underway

/-- The graphs, but for tokens, that the runs that are under way have reset. -/
def spellsAfter (spells : Nat → Option Graph) (before : Machine) (incident : Incident)
    (after : Machine) : Nat → Option Graph :=
  match incident with
  | .step worker =>
      Function.update spells worker <|
        if after.isUnderway worker then
          if before.isUnderway worker then spells worker else after.engine.graph.map Graph.bare
        else none
  | _ => spells

/-- What is known of a machine and of the runs that are under way. -/
structure Isolates (machine : Machine) (spells : Nat → Option Graph) : Prop where
  order : machine.InOrder
  idle : ∀ number, machine.isUnderway number = false → spells number = none
  underway : ∀ number, machine.isUnderway number = true → ∃ layout, spells number = some layout ∧
    machine.engine.graph.map Graph.bare = some layout
  found : ∀ number held ticket, machine.workers.get? number = some held →
    held.stance.underway = true → held.stance.ticket = some ticket →
      ¬machine.scheduler.Ends ticket (.error .notBuilt)

theorem exists_of_isUnderway {number : Nat} (underway : machine.isUnderway number = true) :
    ∃ held, machine.workers.get? number = some held ∧ held.stance.underway = true :=
  (Option.any_eq_true _ _).mp underway

/-- A worker that was told something, or has just joined, is in no other run than before. -/
theorem Company.isUnderway (company : Company machine after) (number : Nat) :
    after.isUnderway number = machine.isUnderway number := by
  rw [Machine.isUnderway, Machine.isUnderway]
  cases found : machine.workers.get? number with
  | some held =>
      obtain ⟨told, there, tells⟩ := company.kept number held found
      rw [there, Option.any_some, Option.any_some, tells.stance]
  | none =>
      cases now : after.workers.get? number with
      | none => rfl
      | some told =>
          rcases company.known number told now with ⟨held, there, -⟩ | ⟨-, -, new⟩
          · cases found.symm.trans there
          · rw [Option.any_some, new.stance]
            rfl

/-- Nobody else is in a run while one is under way. -/
theorem Isolates.alone {spells : Nat → Option Graph} (isolates : machine.Isolates spells)
    {number other : Nat} {layout : Graph} (spell : spells number = some layout)
    (differ : other ≠ number) : spells other = none := by
  refine isolates.idle other ?_
  by_contra goes
  have there : machine.isUnderway number = true := by
    by_contra rests
    cases (isolates.idle number (by simpa using rests)).symm.trans spell
  obtain ⟨held, found, underway⟩ := exists_of_isUnderway there
  obtain ⟨beside, present, underway'⟩ := exists_of_isUnderway
    (show machine.isUnderway other = true by simpa using goes)
  have inside := (Worker.stance_of_underway underway).1
  have outside := isolates.order.alone found inside present differ
  cases outside.symm.trans (Worker.stance_of_underway underway').1

theorem isolates_idle (config : EngineConfig) (board : Board) :
    (idle config board).Isolates fun _ => none where
  order := inOrder_idle config board
  idle := fun _ _ => rfl
  underway := by simp [isUnderway, Machine.idle]
  found := by simp [Machine.idle]

/-- Workers that join or are told something do not interfere with a run. -/
theorem Isolates.company {spells : Nat → Option Graph} (isolates : machine.Isolates spells)
    (company : Company machine after) (order : after.InOrder)
    (layout : after.engine.graph.map Graph.bare = machine.engine.graph.map Graph.bare)
    (scheduler : after.scheduler = machine.scheduler) : after.Isolates spells where
  order := order
  idle := by
    intro number rests
    rw [company.isUnderway] at rests
    exact isolates.idle number rests
  underway := by
    intro number goes
    rw [company.isUnderway] at goes
    rw [layout]
    exact isolates.underway number goes
  found := by
    intro number told ticket now underway waits
    rw [scheduler]
    rcases company.known number told now with ⟨held, found, tells⟩ | ⟨-, -, new⟩
    · rw [tells.stance] at underway waits
      exact isolates.found number held ticket found underway waits
    · rw [new.stance] at waits
      cases waits

/-- A new ticket has no result. -/
theorem not_ends_of_send {scheduler next : Scheduler.OfTasks} {request : Request Task}
    {ticket : Nat} (orderly : scheduler.Orderly) (sent : scheduler.send request = .ok (ticket, next))
    (result : Except Failure Value) : ¬next.Ends ticket result := by
  obtain ⟨rfl, -, -⟩ := Scheduler.send_spec sent
  obtain ⟨service, fates, -⟩ := Scheduler.send_frame sent
  rintro (heard | ⟨held, served, same, -⟩)
  · rw [Scheduler.result?, fates] at heard
    cases known : scheduler.fates.get? scheduler.tally.submitted with
    | none =>
        rw [known] at heard
        cases heard
    | some fate => exact Nat.lt_irrefl _ (orderly.known _ fate known)
  · have inside : held.ticket ∈ scheduler.tickets := by
      rw [Scheduler.tickets, ← service, served]
      exact List.mem_cons_self
    rw [same] at inside
    exact Nat.lt_irrefl _ (orderly.numbered _ inside)

section

variable {spells : Nat → Option Graph} {held next : Worker} {quits : Bool}

/-- A worker that is not alone inside the run gate leaves the layout of the graph as it is. -/
theorem Isolates.layout (isolates : machine.Isolates spells)
    (found : machine.workers.get? worker = some held)
    (conduct : Conduct worker held.stance next.stance machine middle quits) {number : Nat}
    (differ : number ≠ worker) (underway : machine.isUnderway number = true) :
    middle.engine.graph.map Graph.bare = machine.engine.graph.map Graph.bare := by
  obtain ⟨other, present, goes⟩ := exists_of_isUnderway underway
  apply conduct.layout
  by_contra edits
  have inside := Worker.inside_of_edits (show held.stance.edits = true by simpa using edits)
  cases (isolates.order.alone present (Worker.stance_of_underway goes).1 found
    (Ne.symm differ)).symm.trans inside

/-- A step of a worker other than worker zero does not interfere with the run of another, and its
own run goes on with the graph that it has reset. -/
theorem Isolates.work (isolates : machine.Isolates spells)
    (found : machine.workers.get? worker = some held)
    (conduct : Conduct worker held.stance next.stance machine middle quits) :
    (setWorker middle worker next).Isolates
      (spellsAfter spells machine (.step worker) (setWorker middle worker next)) := by
  have own : (setWorker middle worker next).isUnderway worker = next.stance.underway := by
    rw [isUnderway, get?_setWorker, if_pos rfl]
    rfl
  have before : machine.isUnderway worker = held.stance.underway := by
    rw [isUnderway, found]
    rfl
  have others : ∀ number, number ≠ worker →
      (setWorker middle worker next).isUnderway number = machine.isUnderway number := by
    intro number differ
    rw [isUnderway, get?_setWorker, if_neg differ]
    exact conduct.company.isUnderway number
  refine ⟨isolates.order.work found conduct, ?_, ?_, ?_⟩
  · intro number rests
    by_cases same : number = worker
    · subst same
      rw [spellsAfter, Function.update_self, rests]
      rfl
    · rw [others number same] at rests
      rw [spellsAfter, Function.update_of_ne same]
      exact isolates.idle number rests
  · intro number goes
    by_cases same : number = worker
    · subst same
      rw [spellsAfter, Function.update_self, goes, if_pos rfl]
      by_cases ongoing : machine.isUnderway number = true
      · obtain ⟨layout, spell, present⟩ := isolates.underway number ongoing
        have edits := (Worker.stance_of_underway (before.symm.trans ongoing)).2.1
        exact ⟨layout, by rw [if_pos ongoing]; exact spell, (conduct.layout edits).trans present⟩
      · rw [if_neg ongoing]
        rcases conduct.underway (own.symm.trans goes) with still | ⟨edits, -, built⟩
        · exact (ongoing (before.trans still)).elim
        · obtain ⟨graph, present⟩ := Option.isSome_iff_exists.mp built
          have layout := conduct.layout edits
          rw [present] at layout
          exact ⟨graph.bare, layout, layout⟩
    · rw [others number same] at goes
      obtain ⟨layout, spell, present⟩ := isolates.underway number goes
      refine ⟨layout, ?_, (isolates.layout found conduct same goes).trans present⟩
      rw [spellsAfter, Function.update_of_ne same]
      exact spell
  · intro number other ticket now underway waits
    rw [get?_setWorker] at now
    split at now
    · cases now
      cases conduct.exchange with
      | keep scheduler asks _ _ =>
          have waited := asks ticket waits
          rcases conduct.underway underway with still | ⟨-, free, -⟩
          · have known := isolates.found worker held ticket found still waited
            rw [← scheduler] at known
            exact known
          · cases free.symm.trans waited
      | send sent _ _ same =>
          rw [same] at waits
          cases waits
          exact not_ends_of_send isolates.order.orderly sent _
      | quit _ idle =>
          rw [idle] at waits
          cases waits
    · rcases conduct.company.known number other now with ⟨known, there, tells⟩ | ⟨-, -, new⟩
      · rw [tells.stance] at underway waits
        have fine := isolates.found number known ticket there underway waits
        cases conduct.exchange with
        | keep scheduler _ _ _ =>
            rw [← scheduler] at fine
            exact fine
        | send sent _ _ _ =>
            obtain ⟨service, fates, -⟩ := Scheduler.send_frame sent
            intro ends
            apply fine
            rw [Scheduler.Ends, Scheduler.result?, ← service, ← fates]
            exact ends
        | quit scheduler _ =>
            rw [← scheduler] at fine
            exact fine
      · rw [new.stance] at waits
        cases waits

/-- The service of requests does not interfere with a run. -/
theorem Isolates.serve (isolates : machine.Isolates spells)
    (stepped : machine.stepServer = some after) :
    after.Isolates (spellsAfter spells machine (.step server) after) := by
  have attended := attended_stepServer isolates.order.orderly stepped
  have still : after.isUnderway = machine.isUnderway := by
    funext number
    rw [isUnderway, isUnderway, attended.workers]
  have absent : machine.isUnderway server = false := by
    by_contra goes
    obtain ⟨held, found, -⟩ := exists_of_isUnderway
      (show machine.isUnderway server = true by simpa using goes)
    exact Nat.lt_irrefl _ (isolates.order.numbered.known _ held found).1
  have same : spellsAfter spells machine (.step server) after = spells := by
    rw [spellsAfter, still, absent]
    exact Function.update_eq_self_iff.mpr (isolates.idle server absent).symm
  rw [same]
  refine ⟨isolates.order.serve (serving_of_stepServer stepped), still ▸ isolates.idle, ?_, ?_⟩
  · intro number goes
    rw [still] at goes
    obtain ⟨layout, spell, present⟩ := isolates.underway number goes
    exact ⟨layout, spell, (congrArg Engine.Frame.layout attended.frame).trans present⟩
  · intro number held ticket found underway waits ends
    rw [attended.workers] at found
    obtain ⟨layout, -, present⟩ := isolates.underway number
      ((Option.any_eq_true _ _).mpr ⟨held, found, underway⟩)
    have built : machine.engine.graph.isSome = true := by
      rw [← Option.isSome_map, present]
      rfl
    exact isolates.found number held ticket found underway waits (attended.found built ticket ends)

end

/-- Whatever happens, runs are kept apart. -/
theorem Isolates.undergo {spells : Nat → Option Graph} (isolates : machine.Isolates spells)
    {incident : Incident} (happened : machine.undergo incident = some after) :
    after.Isolates (spellsAfter spells machine incident after) := by
  have order := isolates.order.undergo happened
  cases incident with
  | call call =>
      cases happened
      exact isolates.company (company_enlist isolates.order.numbered (.caller call)) order rfl rfl
  | tick interval inputs =>
      cases happened
      have aside := aside_startTicker machine interval inputs
      exact isolates.company (company_startTicker isolates.order.numbered interval inputs) order
        (by rw [aside.engine]) aside.scheduler
  | halt =>
      cases happened
      have aside := aside_stopTicker machine
      exact isolates.company machine.company_stopTicker order (by rw [aside.engine]) aside.scheduler
  | wait time =>
      rw [Machine.undergo] at happened
      split at happened
      · cases happened
        exact isolates.company (company_of_workers rfl rfl) order rfl rfl
      · cases happened
  | board change =>
      cases happened
      exact isolates.company (company_of_workers rfl rfl) order rfl rfl
  | step worker =>
      by_cases zero : worker = server
      · subst zero
        exact isolates.serve happened
      · obtain ⟨held, next, middle, quits, found, rfl, conduct, -⟩ :=
          conduct_step isolates.order.numbered zero happened
        exact isolates.work found conduct

/-! ## The end of a run -/

/-- What a step makes of a run that is under way on a graph of some layout. -/
inductive Sequel (worker : Nat) (layout : Graph) (machine after : Machine) : Prop where
  | goesOn : after.isUnderway worker = true → after.engine.records = machine.engine.records →
      Sequel worker layout machine after
  /-- The outputs are read from the graph that was reset, and stored. -/
  | stored {graph : Graph} : machine.engine.graph = some graph → graph.bare = layout →
      after.stage? worker = some (.leaving (.ok (Bench.mk graph machine.engine.board).outputs)) →
      after.engine.records.outputs = (Bench.mk graph machine.engine.board).outputs →
      Sequel worker layout machine after
  | failed {failure : Failure} : failure ≠ .notBuilt →
      after.stage? worker = some (.leaving (.error failure)) →
      after.engine.records = machine.engine.records → Sequel worker layout machine after
  | dropped {courier : Courier} : machine.workers.get? worker = some (.courier courier) →
      courier.dismissed = true → after.stage? worker = none →
      after.engine.records = machine.engine.records → Sequel worker layout machine after

/-- What a step of a run that is under way comes to. -/
inductive RunSequel (graph : Graph) (machine : Machine) (moved : RunStage × Machine) : Prop where
  | goesOn : moved.1.stance.underway = true →
      moved.2.engine.records = machine.engine.records → RunSequel graph machine moved
  | stored : moved.1 = .leaving (.ok (Bench.mk graph machine.engine.board).outputs) →
      moved.2.engine.records.outputs = (Bench.mk graph machine.engine.board).outputs →
      RunSequel graph machine moved
  | failed {failure : Failure} : failure ≠ .notBuilt → moved.1 = .leaving (.error failure) →
      moved.2.engine.records = machine.engine.records → RunSequel graph machine moved

/-- A step of a run that is under way goes on with it, or ends it with outputs or a failure. -/
theorem runSequel_of_advances {graph : Graph} (held : machine.engine.graph = some graph)
    {stage next : RunStage} (underway : stage.stance.underway = true)
    (orderly : machine.scheduler.Orderly)
    (fine : ∀ ticket, stage.stance.ticket = some ticket →
      ¬machine.scheduler.Ends ticket (.error .notBuilt))
    (advances : stage.Advances worker machine next after) :
    RunSequel graph machine (next, after) := by
  cases advances with
  | waits | enters | leaves => cases underway
  | queues => exact .goesOn underway rfl
  | works _ works =>
      cases works with
      | unbuilt _ absent => cases held.symm.trans absent
      | closed =>
          simp only [Engine.close_recorded held]
          exact .stored rfl rfl
      | recalled | opened | prepared => cases underway
      | listed | planned | planless => exact .goesOn rfl rfl
  | again | spent => exact .goesOn rfl rfl
  | sends asks => cases asks <;> exact .goesOn rfl rfl
  | @refused _ request _ _ _ refused =>
      obtain ⟨ticket, scheduler, sent⟩ := orderly.send_ok request
      cases refused.symm.trans sent
  | @hears _ _ ticket result heard hears =>
      have waits : stage.stance.ticket = some ticket := by cases hears <;> rfl
      have built : ∀ failure, result = .error failure → failure ≠ .notBuilt := by
        rintro _ rfl rfl
        exact fine ticket waits (.inl heard)
      cases hears with
      | firing =>
          unfold afterFiring
          split
          · next failure => exact .failed (built failure rfl) rfl rfl
          · split
            · exact .failed Failure.noConfusion rfl rfl
            · exact .goesOn rfl rfl
          · exact .goesOn rfl rfl
      | plan =>
          cases result with
          | error failure => exact .failed (built failure rfl) rfl rfl
          | ok value => exact .goesOn rfl rfl

/-- A worker goes on with its run as long as the run is not over. -/
theorem run?_goOn_of_ne (held : Worker) {stage : RunStage}
    (goes : ∀ result, stage ≠ .over result) : (held.goOn stage).run? = some stage := by
  rw [Worker.run?_goOn]
  split
  · next result => exact (goes result rfl).elim
  · rfl

theorem afterRun_spec (machine : Machine) (restart : Bool) (stage : RunStage) :
    (machine.afterRun restart stage).2.engine = machine.engine ∧
      ((∀ result, stage ≠ .over result) →
        (machine.afterRun restart stage).1 = .running stage restart) := by
  cases stage with
  | «over» result =>
      refine ⟨?_, fun goes => (goes result rfl).elim⟩
      cases result with
      | error failure => rfl
      | ok outputs =>
          cases restart with
          | false => rfl
          | true => exact (aside_startTicker machine none ∅).engine
  | _ => exact ⟨rfl, fun _ => rfl⟩

/-- A step of a worker in a run is a step of the run, or the worker withdraws. -/
theorem step_of_run {held : Worker} (found : machine.workers.get? worker = some held)
    {stage : RunStage} (running : held.run? = some stage) (other : worker ≠ server)
    (stepped : machine.step worker = some after) :
    (∃ courier, held = .courier courier ∧ courier.dismissed = true ∧
      after.stage? worker = none ∧ after.engine = machine.engine) ∨
    ∃ moved next, machine.stepRun worker stage = some moved ∧
      after.engine = moved.2.engine ∧ after.workers.get? worker = some next ∧
      ((∀ result, moved.1 ≠ .over result) → next.run? = some moved.1) := by
  rw [step, if_neg other, found] at stepped
  cases held with
  | caller call =>
      cases call with
      | running run restart =>
          cases running
          obtain ⟨⟨next, middle⟩, moves, rfl⟩ := Option.map_eq_some_iff.mp stepped
          obtain ⟨⟨run, left⟩, moved, same⟩ := Option.map_eq_some_iff.mp moves
          obtain ⟨engine, goes⟩ := left.afterRun_spec restart run
          obtain rfl : (left.afterRun restart run).1 = next := congrArg Prod.fst same
          obtain rfl : (left.afterRun restart run).2 = middle := congrArg Prod.snd same
          refine .inr ⟨_, _, moved, engine, (get?_setWorker ..).trans (if_pos rfl), fun on => ?_⟩
          rw [goes on]
          rfl
      | _ => cases running
  | ticker ticker =>
      obtain ⟨interval, inputs, due, stopped, ticks, now⟩ := ticker
      cases now with
      | running run =>
          cases running
          obtain ⟨⟨next, middle⟩, moves, rfl⟩ := Option.map_eq_some_iff.mp stepped
          obtain ⟨⟨run, left⟩, moved, same⟩ := Option.map_eq_some_iff.mp moves
          cases same
          exact .inr ⟨_, _, moved, rfl, (get?_setWorker ..).trans (if_pos rfl),
            run?_goOn_of_ne (.ticker _)⟩
      | _ => cases running
  | courier courier =>
      obtain ⟨channel, dismissed, now⟩ := courier
      cases now with
      | running run =>
          cases running
          obtain ⟨⟨next, middle⟩, moves, rfl⟩ := Option.map_eq_some_iff.mp stepped
          obtain ⟨⟨now, left⟩, moved, same⟩ := Option.map_eq_some_iff.mp moves
          cases same
          have set : ∀ (left : Machine) (next : Worker),
              (left.setWorker worker next).workers.get? worker = some next :=
            fun left next => (get?_setWorker ..).trans (if_pos rfl)
          cases dismissed with
          | true =>
              cases moved
              refine .inl ⟨_, rfl, rfl, ?_, rfl⟩
              rw [stage?, set]
              rfl
          | false =>
              obtain ⟨⟨run, middle⟩, moved, same⟩ := Option.map_eq_some_iff.mp moved
              cases same
              exact .inr ⟨_, _, moved, rfl, set _ _, run?_goOn_of_ne (.courier _)⟩
      | _ => cases running

/-- What a step of a worker makes of its run that is under way. -/
theorem Isolates.sequel {spells : Nat → Option Graph} (isolates : machine.Isolates spells)
    {layout : Graph} (spell : spells worker = some layout)
    (stepped : machine.step worker = some after) : Sequel worker layout machine after := by
  have goes : machine.isUnderway worker = true := by
    by_contra rests
    cases (isolates.idle worker (by simpa using rests)).symm.trans spell
  obtain ⟨held, found, underway⟩ := exists_of_isUnderway goes
  obtain ⟨-, -, stage, running, same⟩ := Worker.stance_of_underway underway
  have other : worker ≠ server :=
    Nat.ne_of_gt (isolates.order.numbered.known worker held found).1
  obtain ⟨reset, spell', present⟩ := isolates.underway worker goes
  cases spell.symm.trans spell'
  obtain ⟨graph, there, bare⟩ := Option.map_eq_some_iff.mp present
  rcases step_of_run found running other stepped with
    ⟨courier, rfl, dismissed, gone, engine⟩ | ⟨moved, next, moves, engine, now, goesOn⟩
  · exact .dropped found dismissed gone (by rw [engine])
  · rw [same] at underway
    have fine : ∀ ticket, stage.stance.ticket = some ticket →
        ¬machine.scheduler.Ends ticket (.error .notBuilt) := fun ticket waits =>
      isolates.found worker held ticket found (by rw [same]; exact underway) (by rw [same]; exact waits)
    have stage : (∀ result, moved.1 ≠ .over result) → after.stage? worker = some moved.1 := by
      intro on
      rw [stage?, now]
      exact goesOn on
    have ended : ∀ {result}, moved.1 = .leaving result → ∀ outcome, moved.1 ≠ .over outcome := by
      intro result left outcome same
      cases left.symm.trans same
    cases runSequel_of_advances there underway isolates.order.orderly fine
        (advances_stepRun moves) with
    | goesOn still records =>
        refine .goesOn ?_ (by rw [engine, records])
        rw [isUnderway, now]
        have on : ∀ result, moved.1 ≠ .over result := by
          intro result ended
          rw [ended] at still
          cases still
        exact (congrArg Stance.underway (Worker.stance_of_run? (goesOn on))).trans still
    | stored left outputs =>
        refine .stored there bare ?_ (by rw [engine, outputs])
        rw [stage (ended left), left]
    | failed other left records =>
        refine .failed other ?_ (by rw [engine, records])
        rw [stage (ended left), left]

/-- While a run is under way, nothing but a step of its own worker touches what is recorded. -/
theorem Isolates.records {spells : Nat → Option Graph} (isolates : machine.Isolates spells)
    {layout : Graph} (spell : spells worker = some layout) {incident : Incident}
    (beside : incident ≠ .step worker) (happened : machine.undergo incident = some after) :
    after.engine.records = machine.engine.records := by
  cases incident with
  | call call =>
      cases happened
      rfl
  | tick interval inputs =>
      cases happened
      rw [(aside_startTicker machine interval inputs).engine]
  | halt =>
      cases happened
      rw [(aside_stopTicker machine).engine]
  | wait time =>
      rw [Machine.undergo] at happened
      split at happened
      · cases happened
        rfl
      · cases happened
  | board change =>
      cases happened
      rfl
  | step other =>
      by_cases zero : other = server
      · subst zero
        exact (attended_stepServer isolates.order.orderly happened).records
      · obtain ⟨beside', next, middle, quits, present, rfl, conduct, -⟩ :=
          conduct_step isolates.order.numbered zero happened
        have goes : machine.isUnderway worker = true := by
          by_contra rests
          cases (isolates.idle worker (by simpa using rests)).symm.trans spell
        obtain ⟨held, found, underway⟩ := exists_of_isUnderway goes
        have differ : other ≠ worker := fun same => beside (by rw [same])
        exact conduct.records (isolates.order.alone found
          (Worker.stance_of_underway underway).1 present differ)

/-- Whatever calls come in to a machine, and in whatever order its workers take their steps, runs
are kept apart. From when a run has reset the graph until it has stored its outputs, has failed or
was dropped, the graph is the one that it has reset, but for tokens, no other run has reset it, and
nothing that others do stores outputs, changes the graph or begins such a run. The outputs that it
stores are read from that graph, and it never fails for want of a graph. -/
theorem runs_kept_apart {config : EngineConfig} {board : Board} {machine : Machine}
    {spells : Nat → Option Graph}
    (unfolds : Unfolds (fun _ _ => true) spellsAfter (idle config board) (fun _ => none) machine
      spells) {worker : Nat} {layout : Graph} (spell : spells worker = some layout) :
    machine.engine.graph.map Graph.bare = some layout ∧
      (∀ other, other ≠ worker → spells other = none) ∧
      (∀ incident after, machine.undergo incident = some after → incident ≠ .step worker →
        after.engine.records = machine.engine.records ∧
          after.engine.graph.map Graph.bare = some layout ∧
          spellsAfter spells machine incident after = spells) ∧
      ∀ after, machine.step worker = some after → Sequel worker layout machine after := by
  have isolates : machine.Isolates spells := unfolds.induct (isolates_idle config board)
    fun _ _ _ _ known _ happened => known.undergo happened
  have present : ∀ {machine : Machine} {spells : Nat → Option Graph},
      machine.Isolates spells → spells worker = some layout →
        machine.engine.graph.map Graph.bare = some layout := by
    intro machine spells isolates spell
    by_cases goes : machine.isUnderway worker = true
    · obtain ⟨reset, same, there⟩ := isolates.underway worker goes
      cases spell.symm.trans same
      exact there
    · cases (isolates.idle worker (by simpa using goes)).symm.trans spell
  refine ⟨present isolates spell, fun other differ => isolates.alone spell differ,
    fun incident after happened beside => ?_, fun after stepped => isolates.sequel spell stepped⟩
  have later := isolates.undergo happened
  have still : spellsAfter spells machine incident after worker = some layout := by
    cases incident with
    | step other =>
        have differ : worker ≠ other := fun same => beside (by rw [same])
        exact (Function.update_of_ne differ ..).trans spell
    | _ => exact spell
  refine ⟨isolates.records spell beside happened, present later still, ?_⟩
  funext number
  by_cases same : number = worker
  · rw [same, still, spell]
  · rw [later.alone still same, isolates.alone spell same]

end Machine

namespace SlowLamp

/-- While the courier's run fires the lamp, another run and an edit are asked for. -/
def crowded : List Incident :=
  lighting ++ [.call (.exec ∅ true), .step 3, .step 3,
    .call (.rewire (.remove "bell:ring->lamp:on")), .step 4, .step 4, .step 0]

end SlowLamp

namespace Machine

/-- The courier is in its run, while a caller waits to run the same graph. -/
theorem runs_kept_apart_lamp :
    ∃ machine spells layout,
      Unfolds (fun _ _ => true) spellsAfter (idle SlowLamp.settings SlowLamp.seated.2)
        (fun _ => none) machine spells ∧
      spells 2 = some layout ∧ machine.runGate.line = [3, 4] ∧
      machine.engine.graph.map Graph.bare = some layout ∧ spells 3 = none ∧
      ∀ after, machine.step 2 = some after → Sequel 2 layout machine after := by
  have ran : (unfold (fun _ _ => true) spellsAfter (idle SlowLamp.settings SlowLamp.seated.2)
      (fun _ => none) SlowLamp.crowded).any (fun last =>
        (last.2 2).isSome && last.1.runGate.line == [3, 4]) = true := by
    decide +kernel
  obtain ⟨last, happened, shape⟩ := (Option.any_eq_true _ _).mp ran
  simp only [Bool.and_eq_true, beq_iff_eq, Option.isSome_iff_exists] at shape
  obtain ⟨⟨layout, spell⟩, line⟩ := shape
  have unfolds := Unfolds.start.extend happened
  obtain ⟨present, alone, -, sequel⟩ := runs_kept_apart unfolds spell
  exact ⟨last.1, last.2, layout, unfolds, spell, line, present, alone 3 (by decide), sequel⟩

end Machine

end CardNet
