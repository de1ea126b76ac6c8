import CardNet.Proofs.Engine.Dispatch

/-!
# Events are delivered through everything that happens

Calls that come in, tickers that start and stop, events that are emitted and time that passes keep all
that holds of a machine on which events are delivered; and so it holds of whatever becomes of the
machine, as long as no run fails (`Machine.Delivers.attend`). When no run is open and the courier has
nothing left to do, every event has gone the whole way (`Machine.Delivers.settled`).
-/

namespace CardNet

namespace Deliveries

variable {route : Route} {seen final : Deliveries}

/-- A failure is not forgotten. -/
theorem failed_after {before after : Machine} {occasion : Occasion}
    (fine : (seen.after route before occasion after).failed = false) : seen.failed = false := by
  cases occasion with
  | emit anchor value =>
      rw [Deliveries.after] at fine
      split at fine <;> exact fine
  | happen incident =>
      cases incident with
      | step worker =>
          rw [Deliveries.after] at fine
          split at fine
          · rw [afterService] at fine
            split at fine <;> exact fine
          · exact (Bool.or_eq_false_iff.mp fine).1
      | _ => exact fine

theorem failed_of_attend {machine last : Machine} {occasions : List Occasion}
    (attended : machine.attend route seen occasions = some (last, final))
    (fine : final.failed = false) : seen.failed = false := by
  induction occasions generalizing machine seen with
  | nil =>
      cases attended
      exact fine
  | cons occasion rest ih =>
      rw [Machine.attend] at attended
      split at attended
      · obtain ⟨after, -, later⟩ := Option.bind_eq_some_iff.mp attended
        exact failed_after (ih later)
      · cases attended

end Deliveries

namespace Machine

variable {machine after last : Machine} {route : Route} {seen final : Deliveries} {number : Nat}

/-! ## Who joins -/

/-- Whether the courier carries an event can be told from the courier. -/
theorem carries_of_courier? (same : after.courier? = machine.courier?) (route : Route) :
    after.carries route = machine.carries route := by
  have view : ∀ machine : Machine, machine.carries route =
      (machine.courier? route.courier).any fun courier =>
        (Worker.courier courier).carries route.origin.eventPlace := by
    intro machine
    rw [Machine.carries, Machine.courier?]
    cases machine.workers.get? route.courier with
    | none => rfl
    | some held => cases held <;> rfl
  rw [view, view, same]

/-- Workers that are in the same runs and the same couriers hand events on alike. -/
theorem Delivers.regard (delivers : machine.Delivers route seen)
    (engine : after.engine = machine.engine) (scheduler : after.scheduler = machine.scheduler)
    (runGate : after.runGate = machine.runGate) (stages : after.stage? = machine.stage?)
    (couriers : after.courier? = machine.courier?)
    (peaceful : ∀ number held, after.workers.get? number = some held →
      held.IsPeaceful route.own ∧ number < after.nextWorker)
    (accounted : ∃ ledger, after.Accounted ledger) : after.Delivers route seen := by
  have load : after.load = machine.load :=
    load_of_same (congrArg Engine.graph engine) (by rw [flight?, flight?, progress?, scheduler]; rfl)
  have furthers : ∀ transition,
      machine.scheduler.Furthers after.scheduler transition := fun transition => by
    rw [scheduler]
    exact .refl ..
  refine ⟨engine ▸ delivers.handsOn, ⟨fun number held there => (peaceful number held there).1,
    fun number held there => (peaceful number held there).2, ?_, couriers ▸ delivers.manned.courier⟩,
    ⟨scheduler ▸ delivers.entrusted.orderly, ?_, ?_⟩,
    ⟨accounted, load ▸ delivers.balanced.origin, load ▸ delivers.balanced.relay⟩,
    ⟨fun waits => (delivers.expected.origin waits).mono stages couriers (furthers _),
      fun link member waits =>
        (delivers.expected.relay link member waits).mono stages couriers (furthers _)⟩,
    ⟨engine ▸ delivers.tracked.posts, ?_, scheduler ▸ delivers.tracked.limit,
      scheduler ▸ delivers.tracked.prompt⟩⟩
  · rw [stages, runGate]
    exact delivers.manned.alone
  · rw [scheduler]
    exact fun entry waits => (delivers.entrusted.waiting entry waits).of_same stages couriers
  · rw [scheduler]
    intro service served
    have waits := delivers.entrusted.served service served
    revert waits
    cases service.progress with
    | fresh task => exact fun awaits => Awaits.of_same awaits stages couriers
    | firing flight wake answer =>
        refine Or.imp_left fun succeeds => ⟨succeeds.1, ?_⟩
        have awaited : machine.Awaits route service.ticket (.fire flight.firing.transition) :=
          succeeds.2
        exact awaited.of_same stages couriers
    | _ => exact fun _ => trivial
  · rw [engine, scheduler, carries_of_courier? couriers]
    exact delivers.tracked.emits

/-- A worker that joins outside of all runs, and is no courier, leaves the events alone. -/
theorem Delivers.enlist (delivers : machine.Delivers route seen) {worker : Worker}
    (peaceful : worker.IsPeaceful route.own) (idle : worker.run? = none)
    (other : worker.courier? = none) (ticker : Option Nat)
    (accounted : ∃ ledger, Machine.Accounted { (machine.enlist worker).2 with ticker := ticker }
      ledger) : Delivers route { (machine.enlist worker).2 with ticker := ticker } seen := by
  have free : machine.workers.get? machine.nextWorker = none :=
    Option.eq_none_iff_forall_ne_some.mpr fun held there =>
      Nat.lt_irrefl _ (delivers.manned.numbered _ held there)
  refine delivers.regard rfl rfl rfl (stage?_enlist idle free) (funext fun number => ?_)
    (fun number held there => ?_) accounted
  · refine (courier?_setWorker machine machine.nextWorker number worker).trans ?_
    split
    · next same => rw [other, same, courier?, free]; rfl
    · rfl
  · have set : (machine.setWorker machine.nextWorker worker).workers.get? number = some held := there
    rw [get?_setWorker] at set
    split at set
    · next same =>
        cases set
        exact ⟨peaceful, same ▸ Nat.lt_succ_self _⟩
    · exact ⟨delivers.manned.peaceful number held set,
        Nat.lt_succ_of_lt (delivers.manned.numbered number held set)⟩

theorem Delivers.stopTicker (delivers : machine.Delivers route seen) :
    machine.stopTicker.Delivers route seen := by
  obtain ⟨ledger, accounted⟩ := delivers.balanced.accounted
  obtain ⟨engine, scheduler, runGate, -, nextWorker⟩ := machine.stopTicker_frame
  refine delivers.regard engine scheduler runGate machine.stage?_stopTicker
    machine.courier?_stopTicker (fun number held there => ?_)
    ⟨ledger, accounted.aside (aside_stopTicker machine)⟩
  rw [nextWorker]
  rcases machine.get?_stopTicker number with same | ⟨ticker, before, after⟩
  · rw [same] at there
    exact ⟨delivers.manned.peaceful number held there, delivers.manned.numbered number held there⟩
  · obtain rfl := Option.some.inj (after.symm.trans there)
    refine ⟨⟨rfl, fun stage running => ?_⟩, delivers.manned.numbered number _ before⟩
    rw [run?_stopped] at running
    exact (delivers.manned.peaceful number _ before).2 stage running

/-- An event that is emitted is in the mail once. -/
theorem Delivers.emit (delivers : machine.Delivers route seen) (anchor : Anchor) (value : Value)
    (accounted : ∃ ledger, (machine.onBoard (·.emit anchor value)).Accounted ledger) :
    (machine.onBoard (·.emit anchor value)).Delivers route
      (seen.after route machine (.emit anchor value) (machine.onBoard (·.emit anchor value))) := by
  have same : ∀ holds : Deliveries → Prop, (∀ emits, holds { seen with emits := emits }) →
      holds (seen.after route machine (.emit anchor value)
        (machine.onBoard (·.emit anchor value))) := by
    intro holds all
    rw [Deliveries.after]
    split
    · exact all _
    · exact all seen.emits
  refine ⟨delivers.handsOn, delivers.manned.of_same rfl rfl rfl, ?_, ?_, ?_, ?_, ?_,
    delivers.tracked.limit, ?_⟩
  · exact ⟨delivers.entrusted.orderly, fun entry waits =>
      (delivers.entrusted.waiting entry waits).of_same rfl rfl, delivers.entrusted.served⟩
  · exact same (Balanced route _) fun _ =>
      ⟨accounted, delivers.balanced.origin, delivers.balanced.relay⟩
  · exact same (Expected route _) fun _ => ⟨delivers.expected.origin, delivers.expected.relay⟩
  · intro slot
    have bells : (machine.engine.board.emit anchor value).bells = machine.engine.board.bells :=
      Board.bells_emit ..
    exact (congrFun (congrFun (Board.posts_of_bells bells) slot) _).trans
      (delivers.tracked.posts slot)
  · have posts := delivers.tracked.posts anchor.slot
    have emits := delivers.tracked.emits
    change _ = (machine.engine.board.emit anchor value).letters route.listener +
      (machine.carries route).toNat + machine.scheduler.notes _ + _ + _
    rw [Board.letters_emit, posts, Deliveries.after]
    split
    · simp only [Deliveries.noted] at emits ⊢
      omega
    · exact emits
  · exact same (fun seen => route.limit = none → seen.lost = 0 ∧ _) fun _ =>
      delivers.tracked.prompt

/-! ## Whatever happens -/

/-- Events are delivered on through whatever happens, unless a run fails. -/
theorem Delivers.happen (delivers : machine.Delivers route seen) {occasion : Occasion}
    (spares : occasion.spares route.own = true)
    (happened : machine.undergo occasion.incident = some after)
    (fine : (seen.after route machine occasion after).failed = false) :
    after.Delivers route (seen.after route machine occasion after) := by
  obtain ⟨ledger, accounted⟩ := delivers.balanced.accounted
  have accounts : Incident.keepsConnections machine occasion.incident = true →
      ∃ ledger, after.Accounted ledger := fun allowed => ⟨_, accounted.undergo allowed happened⟩
  cases occasion with
  | emit anchor value =>
      have accounted := accounts rfl
      cases happened
      exact delivers.emit anchor value accounted
  | happen incident =>
      cases incident with
      | call call =>
          have accounted := accounts (by cases call <;> first | rfl | cases spares)
          cases happened
          have peaceful : (Worker.caller (.fresh call)).IsPeaceful route.own :=
            ⟨spares, fun _ running => by cases running⟩
          exact delivers.enlist peaceful rfl rfl machine.ticker accounted
      | tick interval inputs =>
          have accounted := accounts rfl
          cases happened
          change (machine.startTicker interval inputs).2.Delivers route seen
          rw [startTicker] at accounted ⊢
          by_cases ticking : machine.isTicking = true
          · rw [if_pos ticking]
            exact delivers
          · rw [if_neg ticking] at accounted ⊢
            have peaceful : ∀ ticker, ticker.stage = .waiting →
                (Worker.ticker ticker).IsPeaceful route.own := by
              rintro ⟨interval, inputs, due, stopped, ticks, stage⟩ ⟨⟩
              exact ⟨rfl, fun _ running => by cases running⟩
            exact delivers.enlist (peaceful _ rfl) rfl rfl _ accounted
      | halt =>
          cases happened
          exact delivers.stopTicker
      | wait time =>
          have accounted := accounts rfl
          simp only [Occasion.incident, undergo] at happened
          split at happened
          · cases happened
            exact delivers.regard rfl rfl rfl rfl rfl (fun number held there =>
              ⟨delivers.manned.peaceful number held there,
                delivers.manned.numbered number held there⟩) accounted
          · cases happened
      | board change => cases spares
      | step worker =>
          rw [Deliveries.after] at fine ⊢
          split
          · next zero =>
              subst zero
              exact delivers.serve happened
          · next other =>
              rw [if_neg other, Deliveries.afterWork] at fine
              obtain ⟨-, smooth⟩ := Bool.or_eq_false_iff.mp fine
              rw [Deliveries.afterWork, smooth, Bool.or_false]
              exact delivers.stride other happened smooth

/-- Events are delivered on through all occasions, unless a run fails. -/
theorem Delivers.attend (delivers : machine.Delivers route seen) {occasions : List Occasion}
    (attended : machine.attend route seen occasions = some (last, final))
    (fine : final.failed = false) : last.Delivers route final := by
  induction occasions generalizing machine seen with
  | nil =>
      cases attended
      exact delivers
  | cons occasion rest ih =>
      rw [Machine.attend] at attended
      split at attended
      · next spares =>
          obtain ⟨after, happened, later⟩ := Option.bind_eq_some_iff.mp attended
          exact ih (delivers.happen spares happened (Deliveries.failed_of_attend later fine)) later
      · cases attended

/-! ## At the end -/

section

variable (delivers : machine.Delivers route seen)
  (waiting : (machine.courier? route.courier).map Courier.stage = some .waiting)

include delivers waiting

/-- No courier has anything left to do. -/
theorem Delivers.stage_of_courier {courier : Courier}
    (there : machine.courier? number = some courier) : courier.stage = .waiting := by
  obtain ⟨rfl, -⟩ := delivers.manned.courier number courier there
  rw [there] at waiting
  exact Option.some.inj waiting

/-- No event is about to be noted. -/
theorem Delivers.notes_eq_zero : machine.scheduler.notes route.origin.eventPlace = 0 := by
  have nobody : ∀ ticket task, machine.Awaits route ticket task →
      task.notes route.origin.eventPlace = false := by
    intro ticket task awaits
    cases task with
    | event place =>
        obtain ⟨number, courier, there, recording⟩ := awaits
        cases recording.symm.trans (delivers.stage_of_courier waiting there)
    | _ => rfl
  rw [Scheduler.notes, Nat.add_eq_zero_iff]
  constructor
  · rw [List.countP_eq_zero]
    intro entry waits
    rw [nobody entry.1 _ (delivers.entrusted.waiting entry waits)]
    exact Bool.false_ne_true
  · rw [List.countP_eq_zero]
    intro service served
    have awaits := delivers.entrusted.served service (Option.mem_toList.mp served)
    revert awaits
    cases service.progress with
    | fresh task =>
        intro awaits
        rw [Progress.notes, nobody _ task awaits]
        exact Bool.false_ne_true
    | _ => exact fun _ => Bool.false_ne_true

/-- Nothing is promised when no run is open and the courier has nothing left to do. -/
theorem Delivers.not_promises (resting : machine.Resting) (lasting : Bool) (transition : String) :
    ¬machine.Promises lasting transition := by
  rintro (⟨number, stage, there, promises⟩ | ⟨-, number, courier, there, promises⟩)
  · cases promises.isOpen.symm.trans (resting number stage there)
  · rw [delivers.stage_of_courier waiting there] at promises
    exact promises

/-- When no run is open, no event is in the mail and the courier has nothing left to do, every event
has been handed on to all connections, and no token is left on its way. -/
theorem Delivers.settled (empty : machine.engine.board.letters route.listener = 0)
    (resting : machine.Resting) :
    seen.fired route.origin.eventTransition + seen.lost = seen.emits ∧
      (∀ link ∈ route.links, seen.fired link.transfer + seen.lost = seen.emits) ∧
      ∃ graph, machine.engine.graph = some graph ∧
        graph.net.tokens? route.origin.eventPlace = some 0 ∧
        ∀ link ∈ route.links, graph.net.tokens? link.splitPlace = some 0 := by
  obtain ⟨graph, present, hands⟩ := delivers.handsOn
  have still := delivers.not_promises waiting resting
  have carries : machine.carries route = false := by
    rw [Machine.carries]
    cases found : machine.workers.get? route.courier with
    | none => rfl
    | some held =>
        cases held with
        | caller | ticker => rfl
        | courier courier =>
            have there : machine.courier? route.courier = some courier := by
              rw [courier?, found]
              rfl
            have idle := delivers.stage_of_courier waiting there
            obtain ⟨channel, dismissed, stage⟩ := courier
            obtain rfl : stage = .waiting := idle
            rfl
  have emits := delivers.tracked.emits
  rw [empty, carries, delivers.notes_eq_zero waiting, Bool.toNat_false] at emits
  have origin := delivers.balanced.origin
  have begun : ¬seen.fired route.origin.eventTransition < seen.noted route.origin.eventPlace :=
    fun waits => still true _ (delivers.expected.origin waits)
  have through : ∀ link ∈ route.links,
      machine.load link.splitPlace link.transfer = 0 ∧
        seen.fired link.transfer = seen.fired route.origin.eventTransition := by
    intro link member
    have relay := delivers.balanced.relay link member
    have ended : ¬seen.fired link.transfer < seen.fired route.origin.eventTransition :=
      fun waits => still false _ (delivers.expected.relay link member waits)
    omega
  have bare : ∀ {place transition : String}, place ∈ graph.net.places.names →
      machine.load place transition = 0 → graph.net.tokens? place = some 0 := by
    intro place transition known none
    rw [load, present, Nat.add_eq_zero_iff] at none
    obtain ⟨held, found⟩ := Registry.exists_get?_of_mem_names known
    have tokens := none.1
    rw [Option.map_some, Option.getD_some, Net.tokens, Net.tokens?, Net.place?, found] at tokens
    rw [Net.tokens?, Net.place?, found]
    exact congrArg some tokens
  have gone : machine.load route.origin.eventPlace route.origin.eventTransition = 0 := by omega
  refine ⟨by omega, fun link member => ?_, graph, present, bare hands.outlet.known gone,
    fun link member => bare (hands.relays link member).known (through link member).1⟩
  have same := (through link member).2
  omega

end

end Machine

end CardNet
