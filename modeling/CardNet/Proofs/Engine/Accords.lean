import CardNet.Proofs.Engine.Pursuits

/-!
# Machines that accord with what is seen of them

What holds at all times of a machine on which runs are called for and entries are set
(`Machine.Accords`): of the run that is open it is known what it has done and found, whether it takes a
step itself or waits for a request (`Machine.Follows`), and all other requests set the values of
entries. Here it is shown for the steps of worker zero (`Machine.Accords.serve`).
-/

namespace CardNet

variable {layout : Circuit} {cards : List Card} {connections : List Connection} {watch : Watch}

/-- A run that waits for a request is open. -/
theorem RunStage.isOpen_of_ticket? {stage : RunStage} {ticket : Nat}
    (waits : stage.ticket? = some ticket) : stage.isOpen = true := by
  cases stage with
  | firing | walking => rfl
  | _ => cases waits

/-- A task that sets the value of an entry. -/
def Task.SetsEntry (layout : Circuit) : Task → Prop
  | .input place _ => place ∈ layout.entryPlaces
  | _ => False

/-- A task of no run: it is to set the value of an entry, or it is over. -/
def Progress.IsAside (layout : Circuit) : Progress → Prop
  | .fresh task => task.SetsEntry layout
  | .ended _ => True
  | _ => False

/-- The stages of calls that run the graph or set the value of an entry. -/
def CallStage.Partakes (layout : Circuit) : CallStage → Prop
  | .fresh (.exec _ _) => True
  | .fresh (.setInput place _) => place ∈ layout.entryPlaces
  | .running _ restart => restart = false
  | .requesting request => request.task.SetsEntry layout
  | .awaiting _ => True
  | .answered _ => True
  | _ => False

namespace Machine

/-- A run waits for the request of a ticket. -/
def RunAwaits (machine : Machine) (ticket : Nat) : Prop :=
  ∃ number stage, machine.stage? number = some stage ∧ stage.ticket? = some ticket

/-- What is known of a machine on which a run is open. -/
def Follows (machine : Machine) (layout : Circuit) (cards : List Card)
    (connections : List Connection) (watch : Watch) (stage : RunStage) : Prop :=
  match stage.ticket? with
  | none => machine.engine.At layout cards connections watch stage
  | some ticket => ∃ left progress, machine.scheduler.Comes ticket progress ∧
      machine.engine.Pursues layout cards connections watch stage left progress ∧
      ∀ service, machine.scheduler.service = some service → service.ticket = ticket →
        service.InTime machine.clock left

/-- A machine on which runs are called for and entries are set. Whoever is in an open run holds the run
gate, and every request is that of the open run or sets the value of an entry. -/
structure Accords (machine : Machine) (layout : Circuit) (cards : List Card)
    (connections : List Connection) (watch : Watch) : Prop where
  numbered : ∀ number held, machine.workers.get? number = some held → number < machine.nextWorker
  callers : ∀ number stage, machine.workers.get? number = some (.caller stage) →
    stage.Partakes layout
  alone : ∀ number stage, machine.stage? number = some stage → stage.isOpen = true →
    machine.runGate.holder? = some number
  orderly : machine.scheduler.Orderly
  limit : machine.scheduler.limit = machine.engine.config.taskTimeout
  waiting : ∀ entry ∈ machine.scheduler.requests,
    entry.2.task.SetsEntry layout ∨ machine.RunAwaits entry.1
  served : ∀ service, machine.scheduler.service = some service →
    service.progress.IsAside layout ∨ machine.RunAwaits service.ticket
  resting : machine.Resting → machine.engine.Rested layout cards connections watch.Faithful
  running : ∀ number stage, machine.stage? number = some stage → stage.isOpen = true →
    machine.Follows layout cards connections watch stage

variable {machine middle after : Machine} {service : Service Progress} {next : Progress}

theorem Follows.keeps {stage : RunStage}
    (follows : machine.Follows layout cards connections watch stage) :
    machine.engine.Keeps layout cards connections := by
  unfold Follows at follows
  split at follows
  · exact follows.keeps
  · obtain ⟨left, progress, -, pursues, -⟩ := follows
    exact pursues.keeps

theorem Accords.keeps (accords : machine.Accords layout cards connections watch) :
    machine.engine.Keeps layout cards connections := by
  by_cases resting : machine.Resting
  · exact (accords.resting resting).keeps
  · simp only [Resting, not_forall, Bool.not_eq_false] at resting
    obtain ⟨number, stage, there, opened⟩ := resting
    exact (accords.running number stage there opened).keeps

/-! ## The scheduler -/

/-- What the scheduler does by itself, taking up a request or answering it, changes nothing that is
known of the engine. -/
theorem Accords.schedule (accords : machine.Accords layout cards connections watch)
    {scheduler : Scheduler.OfTasks} (orderly : scheduler.Orderly)
    (limit : scheduler.limit = machine.scheduler.limit)
    (waiting : ∀ entry ∈ scheduler.requests, entry ∈ machine.scheduler.requests)
    (served : ∀ service, scheduler.service = some service →
      ∃ request, (service.ticket, request) ∈ machine.scheduler.requests ∧
        service.progress = .fresh request.task ∧
        service.deadline = machine.scheduler.limit.map (machine.clock + ·))
    (comes : ∀ ticket progress, machine.scheduler.Comes ticket progress →
      scheduler.Comes ticket progress) :
    Accords { machine with scheduler := scheduler } layout cards connections watch where
  numbered := accords.numbered
  callers := accords.callers
  alone := accords.alone
  orderly := orderly
  limit := limit.trans accords.limit
  waiting := fun entry waits => accords.waiting entry (waiting entry waits)
  served := by
    intro service there
    obtain ⟨request, waits, fresh, -⟩ := served service there
    rw [fresh]
    exact accords.waiting _ waits
  resting := accords.resting
  running := by
    intro number stage there opened
    have follows := accords.running number stage there opened
    unfold Follows at follows ⊢
    split at follows
    · exact follows
    · obtain ⟨left, progress, come, pursues, -⟩ := follows
      refine ⟨left, progress, comes _ _ come, pursues, ?_⟩
      rintro service there rfl
      obtain ⟨request, waits, fresh, deadline⟩ := served service there
      have same := (comes _ _ come).eq_progress there orderly
      rw [same, fresh] at pursues
      unfold Service.InTime
      rw [fresh]
      rw [deadline, accords.limit]
      generalize request.task = task at pursues
      cases pursues <;> rfl

/-! ## Service -/

/-- A step of a task of no run sets the value of an entry, or it changes nothing. -/
theorem engine_of_input {place : String} {value : Value}
    (advances : (Progress.fresh (.input place value)).Advances machine next middle) :
    (next = .fresh (.input place value) ∨ ∃ result, next = .ended result) ∧
      (middle.engine = machine.engine ∨
        middle.engine = (machine.engine.setPlace place value).2) := by
  cases advances with
  | queues => exact ⟨.inl rfl, .inl rfl⟩
  | launches _ _ fires => cases fires
  | works _ works =>
      cases works with
      | unbuilt => exact ⟨.inr ⟨_, rfl⟩, .inl rfl⟩
      | grounded _ fires => cases fires
      | sets => exact ⟨.inr ⟨_, rfl⟩, .inr rfl⟩

/-- What worker zero finds when it goes on with a request. -/
theorem finds_proceed (served : machine.scheduler.service = some service)
    (serves : Serves machine middle) (next : Progress) :
    machine.finds (Machine.proceed (next, middle)) =
      machine.engine.findings (service.progress.looks next) := by
  have now : (Machine.proceed (next, middle)).progress? = some next := by
    rw [progress?, Machine.proceed, serves.scheduler, Scheduler.service_proceed served]
    rfl
  rw [finds, now, progress?, served]
  rfl

section

variable (accords : machine.Accords layout cards connections watch)
  (served : machine.scheduler.service = some service) (serves : Serves machine middle)

include accords served serves

/-- Going on with the request that is served leaves everything but the engine where it is. -/
private theorem Accords.proceed
    (next : Progress) {watch' : Watch}
    (kept : next.IsAside layout ∨ machine.RunAwaits service.ticket)
    (resting : machine.Resting → middle.engine.Rested layout cards connections watch'.Faithful)
    (running : ∀ number stage, machine.stage? number = some stage → stage.isOpen = true →
      (proceed (next, middle)).Follows layout cards connections watch' stage) :
    (Machine.proceed (next, middle)).Accords layout cards connections watch' := by
  obtain ⟨config, scheduler, runGate, clock, workers, nextWorker, -⟩ := serves
  have stages : (Machine.proceed (next, middle)).stage? = machine.stage? := by
    funext number
    exact congrArg (fun held => (held.get? number).bind Worker.run?) workers
  have now : (Machine.proceed (next, middle)).scheduler = machine.scheduler.proceed next :=
    congrArg (Scheduler.proceed · next) scheduler
  have awaits : (Machine.proceed (next, middle)).RunAwaits = machine.RunAwaits := by
    funext ticket
    rw [RunAwaits, RunAwaits, stages]
  refine ⟨?_, ?_, ?_, ?_, ?_, ?_, ?_, ?_, ?_⟩
  · intro number held there
    change number < middle.nextWorker
    rw [nextWorker]
    exact accords.numbered number held (workers ▸ there)
  · exact fun number stage there => accords.callers number stage (workers ▸ there)
  · intro number stage there opened
    change middle.runGate.holder? = some number
    rw [runGate]
    exact accords.alone number stage (stages ▸ there) opened
  · rw [now]
    exact accords.orderly.proceed next
  · rw [now]
    exact accords.limit.trans (congrArg EngineConfig.taskTimeout config.symm)
  · rw [now, awaits]
    exact accords.waiting
  · rw [now, awaits, Scheduler.service_proceed served]
    rintro _ ⟨⟩
    exact kept
  · intro rests
    refine resting fun number stage there => rests number stage ?_
    rw [stages]
    exact there
  · intro number stage there
    rw [stages] at there
    exact running number stage there

/-- A step of a task that sets the value of an entry changes nothing that is known of a run. -/
private theorem Accords.workAside (setting : Setting cards connections) {place : String}
    {value : Value} (sets : service.progress = .fresh (.input place value))
    (entry : place ∈ layout.entryPlaces) (aside : next.IsAside layout)
    (engine : middle.engine = machine.engine ∨
      middle.engine = (machine.engine.setPlace place value).2) :
    (Machine.proceed (next, middle)).Accords layout cards connections watch := by
  refine accords.proceed served serves next (.inl aside) (fun resting => ?_) ?_
  · rcases engine with same | set
    · rw [same]
      exact accords.resting resting
    · rw [set]
      exact (accords.resting resting).setPlace setting entry value
  · intro number stage there opened
    have follows := accords.running number stage there opened
    unfold Follows at follows ⊢
    split at follows
    · change middle.engine.At layout cards connections watch stage
      rcases engine with same | set
      · rw [same]
        exact follows
      · rw [set]
        exact follows.setPlace setting entry value
    · next ticket waits =>
        obtain ⟨left, progress, comes, pursues, -⟩ := follows
        have differ : service.ticket ≠ ticket := by
          rintro rfl
          rw [(comes.eq_progress served accords.orderly).trans sets] at pursues
          cases pursues
        have scheduler : (Machine.proceed (next, middle)).scheduler =
            machine.scheduler.proceed next := congrArg (Scheduler.proceed · next) serves.scheduler
        rw [scheduler, Scheduler.service_proceed served]
        refine ⟨left, progress, comes.proceed served differ next, ?_, ?_⟩
        · change middle.engine.Pursues layout cards connections watch stage left progress
          rcases engine with same | set
          · rw [same]
            exact pursues
          · rw [set]
            refine pursues.setPlace setting ?_ entry value
            rcases comes with ⟨request, -, fresh⟩ | ⟨held, there, same, -⟩ | ⟨result, -, ended⟩
            · exact .inl ⟨_, fresh⟩
            · obtain rfl := Option.some.inj (served.symm.trans there)
              exact absurd same differ
            · exact .inr ⟨_, ended⟩
        · rintro _ ⟨⟩ same
          exact absurd same differ

/-- A step of the task that the open run waits for. -/
private theorem Accords.workOwn {watch' : Watch} (awaits : machine.RunAwaits service.ticket)
    (own : ∀ stage, machine.Pursues layout cards connections watch stage service →
      middle.Pursues layout cards connections watch' stage { service with progress := next }) :
    (Machine.proceed (next, middle)).Accords layout cards connections watch' := by
  obtain ⟨waiter, stage, there, waits⟩ := id awaits
  have opened := RunStage.isOpen_of_ticket? waits
  refine accords.proceed served serves next (.inr awaits) (fun resting => ?_) ?_
  · cases opened.symm.trans (resting waiter stage there)
  · intro number other known opened'
    have holder := (accords.alone number other known opened').symm.trans
      (accords.alone waiter stage there opened)
    obtain rfl := Option.some.inj holder
    obtain rfl := Option.some.inj (there.symm.trans known)
    have follows := accords.running number stage there opened
    simp only [Follows, waits] at follows ⊢
    obtain ⟨left, progress, comes, pursues, inTime⟩ := follows
    obtain rfl := comes.eq_progress served accords.orderly
    obtain ⟨rest, pursued, inTime⟩ := own stage ⟨left, pursues, inTime service served rfl⟩
    have scheduler : (Machine.proceed (next, middle)).scheduler =
        machine.scheduler.proceed next := congrArg (Scheduler.proceed · next) serves.scheduler
    rw [scheduler, Scheduler.service_proceed served]
    refine ⟨rest, next, Scheduler.comes_of_proceed served next, pursued, ?_⟩
    rintro _ ⟨⟩ -
    exact inTime

/-- A step of a task: it is that which the open run waits for, or it sets the value of an entry. -/
private theorem Accords.workServed (setting : Setting cards connections)
    (begun : ∀ result, service.progress ≠ .ended result)
    (set : ∀ place value, service.progress = .fresh (.input place value) →
      (next = .fresh (.input place value) ∨ ∃ result, next = .ended result) ∧
        (middle.engine = machine.engine ∨
          middle.engine = (machine.engine.setPlace place value).2))
    (own : ∀ stage, machine.Pursues layout cards connections watch stage service →
      middle.Pursues layout cards connections
        (watch.find (machine.engine.findings (service.progress.looks next))) stage
        { service with progress := next }) :
    (Machine.proceed (next, middle)).Accords layout cards connections
      (watch.find (machine.finds (Machine.proceed (next, middle)))) := by
  rw [finds_proceed served serves]
  rcases accords.served service served with aside | awaits
  · cases held : service.progress with
    | fresh task =>
        rw [held] at aside
        cases task with
        | input place value =>
            obtain ⟨kept, engine⟩ := set place value held
            simp only [Progress.looks, Engine.findings_nil, Watch.find_nil]
            refine accords.workAside served serves setting held aside ?_ engine
            rcases kept with rfl | ⟨result, rfl⟩
            · exact aside
            · trivial
        | fire | walk | node | event => exact aside.elim
    | ended result => exact absurd held (begun result)
    | firing | walking | acting | visiting =>
        rw [held] at aside
        exact aside.elim
  · exact accords.workOwn served serves awaits own

end

/-- Giving up a task that has not begun does nothing to the engine. -/
theorem engine_of_giveUp {task : Task} (fresh : service.progress = .fresh task) :
    (machine.giveUp service).2.engine = machine.engine := by
  cases service
  cases fresh
  rfl

/-- A step of worker zero keeps what is known. -/
theorem Accords.serve (setting : Setting cards connections)
    (accords : machine.Accords layout cards connections watch)
    (stepped : machine.stepServer = some after) :
    after.Accords layout cards connections (watch.afterStep server machine after) := by
  have orderly := accords.orderly
  rw [Watch.afterStep, if_pos rfl]
  cases tends_stepServer stepped with
  | @turns scheduler free turned =>
      have nothing : machine.finds { machine with scheduler := scheduler } = [] := by
        rw [finds, progress?, free]
        rfl
      obtain ⟨ticket, request, -, split, service, limit, -⟩ := Scheduler.turn_spec orderly turned
      rw [nothing, Watch.find_nil]
      refine accords.schedule (orderly.turn turned) limit (fun entry waits => ?_) ?_
        fun _ _ comes => comes.turn orderly turned
      · rw [split]
        exact List.mem_cons_of_mem _ waits
      · intro held there
        obtain rfl := Option.some.inj (service.symm.trans there)
        exact ⟨request, by rw [split]; exact List.mem_cons_self .., rfl, rfl⟩
  | @answers service result served ended =>
      have nothing :
          machine.finds { machine with scheduler := machine.scheduler.conclude result } = [] := by
        rw [finds, progress?, progress?, (Scheduler.conclude_spec served result).1]
        cases machine.scheduler.service.map Service.progress <;> rfl
      obtain ⟨free, requests, limit, -⟩ := Scheduler.conclude_spec served result
      rw [nothing, Watch.find_nil]
      exact accords.schedule (orderly.conclude served result) limit
        (fun entry waits => requests ▸ waits) (fun held there => by cases free.symm.trans there)
        fun _ _ comes => comes.conclude served orderly ended
  | @works service next middle served begun worked =>
      have advances := advances_workOn worked
      refine accords.workServed served advances.serves setting begun
        (fun place value same => ?_) fun stage pursues => pursues.work setting begun worked
      rw [same] at advances
      exact engine_of_input advances
  | @givesUp service served begun =>
      exact accords.workServed served (serves_giveUp machine service) setting begun
        (fun place value same => ⟨.inr ⟨_, rfl⟩, .inl (engine_of_giveUp same)⟩)
        fun stage pursues => pursues.giveUp

end Machine

end CardNet
