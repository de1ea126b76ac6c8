import CardNet.Proofs.Engine.Carriage

/-!
# Steps of worker zero and the events on their way

A step of worker zero keeps all that holds of a machine on which events are delivered
(`Machine.Delivers.serve`). An event that is to be noted is noted, for the courier waits for that, or is
lost when its request is overdue; a transition behind a place with tokens on it fires when it is tried,
and the run that has tried it goes on to try those behind it.
-/

namespace CardNet

/-! ## What a step of a task does to a ledger -/

/-- A step of a task enters the same into every ledger. -/
theorem Ledger.exists_serve (progress next : Progress) : ∃ events fired, ∀ ledger : Ledger,
    ledger.serve progress next = ⟨ledger.base, events ++ ledger.events, fired ++ ledger.fired⟩ := by
  unfold Ledger.serve
  split
  · next place value => exact ⟨[place], [], fun _ => rfl⟩
  · next flight _ _ value => exact ⟨[], [flight.firing.transition], fun _ => rfl⟩
  · exact ⟨[], [], fun _ => rfl⟩

section

variable {progress next : Progress} {place : String}

/-- A step of a task that enters an event has noted it. -/
theorem Ledger.count_serve_or (ledger : Ledger) (progress next : Progress) (place : String) :
    (ledger.serve progress next).events.count place = ledger.events.count place ∨
      progress = .fresh (.event place) ∧ ∃ value, next = .ended (.ok value) := by
  unfold Ledger.serve
  split
  · next noted value =>
      by_cases same : noted = place
      · exact .inr ⟨by rw [same], value, rfl⟩
      · exact .inl (List.count_cons_of_ne same)
  · exact .inl rfl
  · exact .inl rfl

theorem Ledger.serve_of_isPlain (plain : progress.isPlain = true) (ledger : Ledger) :
    ledger.serve progress next = ledger := by
  cases progress with
  | fresh task =>
      cases task with
      | fire | event => cases plain
      | _ => rfl
  | firing => cases plain
  | _ => rfl

/-- What fails is not entered into a ledger. -/
theorem Ledger.serve_error (ledger : Ledger) (progress : Progress) (failure : Failure) :
    ledger.serve progress (.ended (.error failure)) = ledger := by
  cases progress with
  | fresh task => cases task <;> rfl
  | _ => rfl

theorem Progress.notes_eq_false (other : ∀ noted, progress ≠ .fresh (.event noted))
    (place : String) : progress.notes place = false := by
  cases progress with
  | fresh task =>
      cases task with
      | event noted => exact absurd rfl (other noted)
      | _ => rfl
  | _ => rfl

theorem Progress.ne_event_of_isPlain (plain : progress.isPlain = true) (noted : String) :
    progress ≠ .fresh (.event noted) := by
  rintro rfl
  cases plain

theorem Progress.ne_event_of_isCalm (calm : progress.isCalm = true) (noted : String) :
    progress ≠ .fresh (.event noted) := by
  rintro rfl
  cases calm

/-- Only what is to be noted can be lost. -/
theorem Deliveries.misses_of_notes (aside : progress.notes place = false) :
    misses place progress next = false := by
  unfold misses
  split
  · exact aside
  · rfl

end

namespace Progress.Becomes

variable {graph : Option Graph} {held : Graph} {overdue : Bool} {progress next : Progress}
  {place transition : String} (becomes : progress.Becomes graph overdue next)

include becomes

/-- An event that is to be noted is noted, or lost, or still to be noted. -/
theorem notes (present : graph = some held) (collects : held.net.collectsEvents place = true)
    (ledger : Ledger) :
    (ledger.serve progress next).events.count place +
        (Deliveries.misses place progress next).toNat + (next.notes place).toNat =
      ledger.events.count place + (progress.notes place).toNat := by
  rcases becomes with passes | ⟨-, failure, rfl⟩
  · cases passes with
    | wait task => cases task <;> rfl
    | @note noted value =>
        change (noted :: ledger.events).count place = _ + (decide (noted = place)).toNat
        rw [List.count_cons]
        by_cases same : noted = place <;> simp [same]
    | @refuse noted failure refuses =>
        have other : noted ≠ place := by
          rintro rfl
          cases (refuses held present).symm.trans collects
        simp [Ledger.serve, Deliveries.misses, Progress.notes, Task.notes, other]
    | fail other =>
        have aside := notes_eq_false other place
        rw [Ledger.serve_error, Deliveries.misses_of_notes aside, aside]
        rfl
    | plain begun calm =>
        have aside := notes_eq_false (ne_event_of_isPlain begun) place
        rw [Ledger.serve_of_isPlain begun, Deliveries.misses_of_notes aside, aside,
          notes_eq_false (ne_event_of_isCalm calm)]
        rfl
    | _ => rfl
  · cases progress with
    | fresh task => cases task <;> rfl
    | _ => rfl

/-- Nothing is lost but what is overdue. -/
theorem misses_eq_false (present : graph = some held)
    (collects : held.net.collectsEvents place = true) (inTime : overdue = false) :
    Deliveries.misses place progress next = false := by
  rcases becomes with passes | ⟨late, -⟩
  · cases passes with
    | wait task => cases task <;> rfl
    | @refuse noted failure refuses =>
        refine decide_eq_false ?_
        rintro rfl
        cases (refuses held present).symm.trans collects
    | fail other => exact Deliveries.misses_of_notes (notes_eq_false other place)
    | plain begun =>
        exact Deliveries.misses_of_notes (notes_eq_false (ne_event_of_isPlain begun) place)
    | _ => rfl
  · cases late.symm.trans inTime

/-- No event is noted on a place that collects none. -/
theorem events (present : graph = some held) (refuses : held.net.collectsEvents place = false)
    (ledger : Ledger) :
    (ledger.serve progress next).events.count place = ledger.events.count place := by
  rcases becomes with passes | ⟨-, failure, rfl⟩
  · cases passes with
    | wait task => cases task <;> rfl
    | @note noted value collects =>
        refine List.count_cons_of_ne ?_
        rintro rfl
        cases (collects held present).symm.trans refuses
    | fail => rw [Ledger.serve_error]
    | plain begun => rw [Ledger.serve_of_isPlain begun]
    | _ => rfl
  · rw [Ledger.serve_error]

/-- A task fires what it tries to fire, unless it finds that it may not. -/
theorem tries (tries : progress.Tries transition)
    (enabled : progress = .fresh (.fire transition) →
      ∃ held, graph = some held ∧ held.net.isEnabled transition = true) :
    next.Tries transition ∨ ∃ result, next = .ended result ∧ Bearing result := by
  rcases becomes with passes | ⟨-, failure, rfl⟩
  · rcases tries with rfl | ⟨flight, wake, rfl, same⟩
    · cases passes with
      | wait => exact .inl (.inl rfl)
      | launch same => exact .inl (.inr ⟨_, _, rfl, same⟩)
      | skip blocked =>
          obtain ⟨held, present, free⟩ := enabled rfl
          cases (blocked held present).symm.trans free
      | fail => exact .inr ⟨_, rfl, nofun⟩
      | plain begun => cases begun
    · cases passes with
      | land value =>
          refine .inr ⟨_, rfl, ?_⟩
          rintro _ ⟨⟩
          rfl
      | fail => exact .inr ⟨_, rfl, nofun⟩
      | plain begun => cases begun
  · exact .inr ⟨_, rfl, nofun⟩

/-- A step of a task fires nothing, or what was under way. -/
theorem fired : (∀ ledger : Ledger, (ledger.serve progress next).fired = ledger.fired) ∨
    ∃ flight wake answer value, progress = .firing flight wake answer ∧
      next = .ended (.ok (answer.getD value)) ∧ ∀ ledger : Ledger,
        (ledger.serve progress next).fired = flight.firing.transition :: ledger.fired := by
  rcases becomes with passes | ⟨-, failure, rfl⟩
  · cases passes with
    | wait task => exact .inl fun _ => by cases task <;> rfl
    | land value => exact .inr ⟨_, _, _, value, rfl, rfl, fun _ => rfl⟩
    | fail => exact .inl fun _ => by rw [Ledger.serve_error]
    | plain begun => exact .inl fun _ => by rw [Ledger.serve_of_isPlain begun]
    | _ => exact .inl fun _ => rfl
  · exact .inl fun _ => by rw [Ledger.serve_error]

end Progress.Becomes

namespace Machine

variable {machine middle after : Machine} {route : Route} {seen : Deliveries} {ledger : Ledger}
  {graph : Graph}

/-! ## Who works and who waits -/

theorem Manned.of_same (manned : machine.Manned route) (workers : after.workers = machine.workers)
    (nextWorker : after.nextWorker = machine.nextWorker)
    (runGate : after.runGate = machine.runGate) : after.Manned route where
  peaceful := workers ▸ manned.peaceful
  numbered := by
    rw [workers, nextWorker]
    exact manned.numbered
  alone := by
    intro number stage there
    rw [runGate]
    rw [stage?, workers] at there
    exact manned.alone number stage there
  courier := by
    intro number courier there
    rw [courier?, workers] at there
    exact manned.courier number courier there

theorem stage?_of_workers (same : after.workers = machine.workers) :
    after.stage? = machine.stage? := by
  funext number
  rw [stage?, stage?, same]

theorem courier?_of_workers (same : after.workers = machine.workers) :
    after.courier? = machine.courier? := by
  funext number
  rw [courier?, courier?, same]

/-- Who waits in a run or as a courier can be told from the runs and the couriers. -/
theorem Awaits.of_same {ticket : Nat} {task : Task} (awaits : machine.Awaits route ticket task)
    (stages : after.stage? = machine.stage?) (couriers : after.courier? = machine.courier?) :
    after.Awaits route ticket task := by
  cases task with
  | fire =>
      obtain ⟨number, inputs, fired, progressed, rest, there⟩ := awaits
      exact ⟨number, inputs, fired, progressed, rest, stages ▸ there⟩
  | event =>
      obtain ⟨number, courier, there, waits⟩ := awaits
      exact ⟨number, courier, couriers ▸ there, waits⟩
  | node | walk | input => exact awaits

theorem Entrusted.turn (entrusted : machine.Entrusted route)
    {scheduler : Scheduler Task Progress}
    (turned : machine.scheduler.turn Progress.fresh machine.clock = some scheduler) :
    Entrusted route { machine with scheduler := scheduler } := by
  obtain ⟨ticket, request, -, split, service, -⟩ := Scheduler.turn_spec entrusted.orderly turned
  refine ⟨entrusted.orderly.turn turned, fun entry waits => ?_, fun held served => ?_⟩
  · exact (entrusted.waiting entry (split ▸ List.mem_cons_of_mem _ waits)).of_same rfl rfl
  · obtain rfl := Option.some.inj (service.symm.trans served)
    exact (entrusted.waiting (ticket, request) (split ▸ List.mem_cons_self)).of_same rfl rfl

theorem Entrusted.answer (entrusted : machine.Entrusted route) {service : Service Progress}
    (served : machine.scheduler.service = some service) (result : Except Failure Value) :
    Entrusted route { machine with scheduler := machine.scheduler.conclude result } := by
  obtain ⟨free, requests, -⟩ := Scheduler.conclude_spec served result
  refine ⟨entrusted.orderly.conclude served result, fun entry waits => ?_, fun held there => ?_⟩
  · exact (entrusted.waiting entry (requests ▸ waits)).of_same rfl rfl
  · cases free.symm.trans there

section

variable {service : Service Progress} {next : Progress}
  (served : machine.scheduler.service = some service) (serves : Serves machine middle)

include served serves

/-- What is known of the scheduler when a task has been gone on with. -/
theorem service_proceed : (proceed (next, middle)).scheduler.service =
    some { service with progress := next } := by
  change (middle.scheduler.proceed next).service = _
  rw [serves.scheduler, Scheduler.service_proceed served]

theorem progress?_proceed : (proceed (next, middle)).progress? = some next := by
  rw [progress?, service_proceed served serves]
  rfl

variable (becomes : service.progress.Becomes machine.engine.graph
  (service.isOverdue machine.clock) next)

include becomes

theorem Entrusted.work (entrusted : machine.Entrusted route) :
    (proceed (next, middle)).Entrusted route := by
  have stages : (proceed (next, middle)).stage? = machine.stage? :=
    stage?_of_workers serves.workers
  have couriers : (proceed (next, middle)).courier? = machine.courier? :=
    courier?_of_workers serves.workers
  have same : (proceed (next, middle)).scheduler = machine.scheduler.proceed next :=
    congrArg (·.proceed next) serves.scheduler
  refine ⟨?_, fun entry waits => ?_, fun held there => ?_⟩
  · rw [same]
    exact entrusted.orderly.proceed next
  · rw [same, Scheduler.requests_proceed] at waits
    exact (entrusted.waiting entry waits).of_same stages couriers
  · obtain rfl := Option.some.inj ((service_proceed served serves).symm.trans there)
    have awaits := entrusted.served service served
    dsimp only
    generalize service.progress = progress at becomes awaits
    rcases becomes with passes | ⟨-, failure, rfl⟩
    · cases passes with
      | wait task =>
          have waiting : machine.Awaits route service.ticket task := awaits
          exact waiting.of_same stages couriers
      | @launch transition flight wake =>
          have waiting : machine.Awaits route service.ticket (.fire transition) := awaits
          exact .inl ⟨rfl, waiting.of_same stages couriers⟩
      | node named =>
          refine .inr ?_
          rw [named]
          exact awaits
      | plain begun calm =>
          cases next with
          | fresh | firing => cases calm
          | _ => trivial
      | _ => trivial
    · trivial

end

/-! ## Tokens on their way -/

section

variable (accounted : machine.Accounted ledger) (present : machine.engine.graph = some graph)
  (hands : graph.net.HandsOn route.origin route.links)

include accounted present hands

theorem Accounted.load_outlet {place transition : String}
    (outlet : graph.net.Outlet place transition) :
    machine.load place transition + ledger.fired.count transition =
      ledger.base place + ledger.events.count place +
        (ledger.fired.map (graph.net.weight · place)).sum := by
  have balances := accounted.tallies.balances graph present place outlet.known
  rw [outlet.sum_weight hands.plain, List.count_append] at balances
  rw [load, present]
  simp only [Option.map_some, Option.getD_some]
  omega

theorem Accounted.load_origin :
    machine.load route.origin.eventPlace route.origin.eventTransition +
        ledger.fired.count route.origin.eventTransition =
      ledger.base route.origin.eventPlace + ledger.events.count route.origin.eventPlace := by
  rw [accounted.load_outlet present hands hands.outlet, hands.sum_unfed, Nat.add_zero]

theorem Accounted.load_relay {link : Connection} (member : link ∈ route.links) :
    machine.load link.splitPlace link.transfer + ledger.fired.count link.transfer =
      ledger.base link.splitPlace + ledger.events.count link.splitPlace +
        ledger.fired.count route.origin.eventTransition := by
  rw [accounted.load_outlet present hands (hands.relays link member), hands.sum_fed member]

end

/-- A step of a task keeps the balance of the events on their way. -/
theorem Balanced.work {progress next : Progress} {overdue : Bool} {left : Graph} {lost : Nat}
    (balanced : machine.Balanced route seen)
    (accounted : ∀ ledger, machine.Accounted ledger →
      after.Accounted (ledger.serve progress next))
    (present : machine.engine.graph = some graph)
    (hands : graph.net.HandsOn route.origin route.links)
    (now : after.engine.graph = some left) (handsNow : left.net.HandsOn route.origin route.links)
    (becomes : progress.Becomes machine.engine.graph overdue next) :
    after.Balanced route { seen with ledger := seen.ledger.serve progress next, lost := lost } := by
  obtain ⟨ledger, known⟩ := balanced.accounted
  have after := accounted ledger known
  obtain ⟨events, fired, serve⟩ := Ledger.exists_serve progress next
  have origin := balanced.origin
  have before := known.load_origin present hands
  have later := after.load_origin now handsNow
  refine ⟨⟨_, after⟩, ?_, fun link member => ?_⟩
  · rw [serve] at later
    simp only [Deliveries.fired, Deliveries.noted, serve, List.count_append] at origin later ⊢
    omega
  · have relay := balanced.relay link member
    have before := known.load_relay present hands member
    have later := after.load_relay now handsNow member
    have events := becomes.events present (hands.passes link member) ledger
    rw [serve] at later events
    simp only [Deliveries.fired, serve, List.count_append] at relay later events ⊢
    omega

/-! ## What is to come -/

/-- A transition may fire when there are tokens on its place and no firing is under way. -/
theorem isEnabled_of_load {place transition : String} (present : machine.engine.graph = some graph)
    (hands : graph.net.HandsOn route.origin route.links)
    (outlet : graph.net.Outlet place transition) (grounded : machine.flight? = none)
    (waits : 0 < machine.load place transition) : graph.net.isEnabled transition = true := by
  rw [outlet.isEnabled_iff hands.plain]
  rw [load, present, grounded] at waits
  exact waits

section

variable {service : Service Progress} {next : Progress}
  (served : machine.scheduler.service = some service)
  (begun : ∀ ended, service.progress ≠ .ended ended) (serves : Serves machine middle)
  (becomes : service.progress.Becomes machine.engine.graph (service.isOverdue machine.clock) next)
  (present : machine.engine.graph = some graph)
  (hands : graph.net.HandsOn route.origin route.links)

include served begun serves becomes present hands

/-- A promise is kept in a step of a task as long as there are tokens for the transition. -/
theorem Promises.work {lasting : Bool} {place transition : String}
    (promises : machine.Promises lasting transition) (outlet : graph.net.Outlet place transition)
    (waits : 0 < machine.load place transition) :
    (proceed (next, middle)).Promises lasting transition := by
  have workers : (proceed (next, middle)).workers = machine.workers := serves.workers
  refine promises.mono (stage?_of_workers workers) (courier?_of_workers workers) ?_
  change machine.scheduler.Furthers (middle.scheduler.proceed next) transition
  rw [serves.scheduler]
  refine Scheduler.furthers_of_proceed served begun fun tries => becomes.tries tries fun fresh => ?_
  have grounded : machine.flight? = none := by
    rw [flight?, progress?, served, Option.map_some, fresh]
    rfl
  exact ⟨graph, present, isEnabled_of_load present hands outlet grounded waits⟩

theorem Expected.work {lost : Nat} (expected : machine.Expected route seen)
    (entrusted : machine.Entrusted route) (balanced : machine.Balanced route seen) :
    (proceed (next, middle)).Expected route
      { seen with ledger := seen.ledger.serve service.progress next, lost := lost } := by
  have workers : (proceed (next, middle)).workers = machine.workers := serves.workers
  have awaits := entrusted.served service served
  have known : (proceed (next, middle)).scheduler.service = some { service with progress := next } :=
    service_proceed served serves
  have steady := becomes.fired
  refine ⟨fun waits => ?_, fun link member waits => ?_⟩
  · change (seen.ledger.serve service.progress next).fired.count _ <
      (seen.ledger.serve service.progress next).events.count _ at waits
    rcases seen.ledger.count_serve_or service.progress next route.origin.eventPlace with
      same | ⟨fresh, value, rfl⟩
    · have before : seen.fired route.origin.eventTransition <
          seen.noted route.origin.eventPlace := by
        rw [same] at waits
        refine Nat.lt_of_le_of_lt ?_ waits
        rcases steady with still | ⟨_, _, _, _, -, -, commits⟩
        · rw [still]
          exact Nat.le_refl _
        · rw [commits]
          exact List.count_le_count_cons
      have origin := balanced.origin
      exact (expected.origin before).work served begun serves becomes present hands hands.outlet
        (by omega)
    · -- The event has just been noted, and the courier waits for that.
      rw [fresh] at awaits
      obtain ⟨number, courier, there, recording⟩ := awaits
      refine .inr ⟨rfl, number, courier, courier?_of_workers workers ▸ there, ?_⟩
      rw [recording]
      exact ⟨value, .inr ⟨_, known, rfl, rfl⟩⟩
  · change (seen.ledger.serve service.progress next).fired.count _ <
      (seen.ledger.serve service.progress next).fired.count _ at waits
    have relay := balanced.relay link member
    have going : seen.fired link.transfer < seen.fired route.origin.eventTransition →
        (proceed (next, middle)).Promises false link.transfer := fun before =>
      (expected.relay link member before).work served begun serves becomes present hands
        (hands.relays link member) (by omega)
    rcases steady with still | ⟨flight, wake, answer, value, firing, rfl, commits⟩
    · rw [still] at waits
      exact going waits
    · rw [commits] at waits
      by_cases origin : flight.firing.transition = route.origin.eventTransition
      · -- The event has just been handed on, and a run waits for that.
        rw [firing] at awaits
        rcases awaits with ⟨rfl, number, inputs, fired, progressed, rest, there⟩ | foreign
        · refine .inl ⟨number, _, stage?_of_workers workers ▸ there, ?_⟩
          refine .inr (.inr (.inr ⟨_, .inr ⟨_, known, rfl, rfl⟩, ?_⟩))
          rintro _ ⟨⟩
          rfl
        · rw [origin] at foreign
          exact absurd (List.mem_cons_self ..) foreign
      · rw [List.count_cons_of_ne origin] at waits
        exact going (Nat.lt_of_le_of_lt List.count_le_count_cons waits)

omit begun in
theorem Tracked.work (tracked : machine.Tracked route seen)
    (frame : middle.engine.frame = machine.engine.frame) :
    (proceed (next, middle)).Tracked route
      { seen with
        ledger := seen.ledger.serve service.progress next
        lost := seen.lost +
          (Deliveries.misses route.origin.eventPlace service.progress next).toNat } := by
  have post : middle.engine.board.post = machine.engine.board.post :=
    congrArg Engine.Frame.post frame
  have letters : (proceed (next, middle)).engine.board.letters = machine.engine.board.letters :=
    Board.letters_of_post post
  have posts : (proceed (next, middle)).engine.board.posts = machine.engine.board.posts :=
    Board.posts_of_bells (congrArg Prod.fst post)
  have carries : (proceed (next, middle)).carries route = machine.carries route := by
    rw [Machine.carries, Machine.carries]
    exact congrArg (fun workers => (Std.ExtTreeMap.get? workers route.courier).any _) serves.workers
  have same : (proceed (next, middle)).scheduler = machine.scheduler.proceed next :=
    congrArg (·.proceed next) serves.scheduler
  have emits := tracked.emits
  have notes := Scheduler.notes_of_proceed served next route.origin.eventPlace
  have noted := becomes.notes present hands.collects seen.ledger
  refine ⟨fun slot => ?_, ?_, ?_, fun unlimited => ?_⟩
  · rw [posts]
    exact tracked.posts slot
  · rw [letters, carries, same]
    simp only [Deliveries.noted] at emits ⊢
    omega
  · rw [same]
    exact tracked.limit
  · obtain ⟨none, deadlines⟩ := tracked.prompt unlimited
    have inTime : service.isOverdue machine.clock = false := by
      rw [Service.isOverdue, deadlines service served]
    refine ⟨?_, fun held there => ?_⟩
    · rw [becomes.misses_eq_false present hands.collects inTime]
      exact none
    · obtain rfl := Option.some.inj ((service_proceed served serves).symm.trans there)
      exact deadlines service served

end

/-! ## All that holds -/

/-- A step of the scheduler alone, with no firing under way before and after. -/
theorem Delivers.schedule {scheduler : Scheduler Task Progress}
    (delivers : machine.Delivers route seen)
    (accounted : ∃ ledger, Machine.Accounted { machine with scheduler := scheduler } ledger)
    (entrusted : Entrusted route { machine with scheduler := scheduler })
    (flight : Machine.flight? { machine with scheduler := scheduler } = machine.flight?)
    (furthers : ∀ transition, machine.scheduler.Furthers scheduler transition)
    (notes : ∀ place, Scheduler.notes scheduler place = machine.scheduler.notes place)
    (limit : scheduler.limit = machine.scheduler.limit)
    (deadlines : scheduler.limit = none →
      ∀ service, scheduler.service = some service → service.deadline = none) :
    Delivers route { machine with scheduler := scheduler } seen where
  handsOn := delivers.handsOn
  manned := delivers.manned.of_same rfl rfl rfl
  entrusted := entrusted
  balanced := by
    have load : Machine.load { machine with scheduler := scheduler } = machine.load :=
      load_of_same rfl flight
    exact ⟨accounted, load ▸ delivers.balanced.origin, load ▸ delivers.balanced.relay⟩
  expected :=
    ⟨fun waits => (delivers.expected.origin waits).mono rfl rfl (furthers _),
      fun link member waits => (delivers.expected.relay link member waits).mono rfl rfl (furthers _)⟩
  tracked := by
    have same : scheduler.limit = route.limit := limit.trans delivers.tracked.limit
    refine ⟨delivers.tracked.posts, ?_, same, fun unlimited =>
      ⟨(delivers.tracked.prompt unlimited).1, deadlines (same.trans unlimited)⟩⟩
    rw [notes]
    exact delivers.tracked.emits

/-- Events are delivered on through a step of worker zero. -/
theorem Delivers.serve (delivers : machine.Delivers route seen)
    (stepped : machine.stepServer = some after) :
    after.Delivers route (seen.afterService route.origin.eventPlace machine after) := by
  have orderly := delivers.entrusted.orderly
  obtain ⟨ledger, accounted⟩ := delivers.balanced.accounted
  have accounts := fun ledger (known : machine.Accounted ledger) => (known.serve stepped).1
  cases serving_of_stepServer stepped with
  | turn turned =>
      obtain ⟨ticket, request, free, -, service, limit, -⟩ := Scheduler.turn_spec orderly turned
      have idle : machine.progress? = none := by rw [progress?, free]; rfl
      rw [Deliveries.afterService, idle]
      refine delivers.schedule ⟨_, accounts ledger accounted⟩ (delivers.entrusted.turn turned) ?_
        (Scheduler.furthers_of_turn orderly turned) (Scheduler.notes_of_turn orderly turned) limit
        fun unlimited held there => ?_
      · rw [flight?_of_turn turned, flight?, idle]
        rfl
      · obtain rfl := Option.some.inj (service.symm.trans there)
        rw [← limit, unlimited]
        rfl
  | @answer service result served ended =>
      obtain ⟨free, -, limit, -⟩ := Scheduler.conclude_spec served result
      have before : machine.progress? = some (.ended result) := by
        rw [progress?, served, Option.map_some, ended]
      have idle : Machine.progress?
          { machine with scheduler := machine.scheduler.conclude result } = none := by
        rw [progress?, free]
        rfl
      rw [Deliveries.afterService, before, idle]
      refine delivers.schedule ⟨_, accounts ledger accounted⟩
        (delivers.entrusted.answer served result) ?_
        (Scheduler.furthers_of_conclude orderly served ended)
        (Scheduler.notes_of_conclude served ended) limit fun _ held there => ?_
      · rw [flight?, idle, flight?, before]
        rfl
      · cases free.symm.trans there
  | @work service next middle served begun serves frame becomes =>
      obtain ⟨graph, present, hands⟩ := delivers.handsOn
      have before : machine.progress? = some service.progress := by rw [progress?, served]; rfl
      have now : (proceed (next, middle)).progress? = some next := progress?_proceed served serves
      obtain ⟨left, still, handsNow⟩ : ∃ left, middle.engine.graph = some left ∧
          left.net.HandsOn route.origin route.links := by
        have layout := congrArg Engine.Frame.layout frame
        change middle.engine.graph.map Graph.bare = machine.engine.graph.map Graph.bare at layout
        rw [present] at layout
        obtain ⟨left, still, bare⟩ := Option.map_eq_some_iff.mp layout
        exact ⟨left, still, hands.of_bare (congrArg Graph.net bare)⟩
      rw [Deliveries.afterService, before, now]
      refine ⟨⟨left, still, handsNow⟩, delivers.manned.of_same serves.workers serves.nextWorker
        serves.runGate, delivers.entrusted.work served serves becomes, ?_, ?_, ?_⟩
      · refine delivers.balanced.work (fun ledger known => ?_) present hands still handsNow becomes
        have account := accounts ledger known
        rw [Ledger.afterService, before, now] at account
        exact account
      · exact delivers.expected.work served begun serves becomes present hands delivers.entrusted
          delivers.balanced
      · exact delivers.tracked.work served serves becomes present hands frame

end Machine

end CardNet
