import CardNet.Proofs.Engine.Promises

/-!
# Steps of workers and the events on their way

A step of a worker that leaves the graph and the way of events alone, and whose run does not fail,
keeps all that holds of a machine on which events are delivered (`Machine.Delivers.stride`). Tokens are
put to a new start only when a run is opened, which leaves the events alone; and then no event is between
the place of the anchor and the transfers, as no other run is open.
-/

namespace CardNet

namespace Board

variable {board other : Board}

theorem posts_of_bells (same : board.bells = other.bells) : board.posts = other.posts := by
  funext slot listener
  rw [posts, posts, same]

theorem letters_of_post (same : board.post = other.post) : board.letters = other.letters := by
  funext listener
  have mail : (board.channel listener.channel).mail = (other.channel listener.channel).mail :=
    congrFun (congrArg Prod.snd same) listener.channel
  rw [letters, letters, mail]

end Board

/-- Only couriers carry events. -/
theorem Worker.carries_of_courier?_eq_none {held : Worker} (other : held.courier? = none)
    (place : String) : held.carries place = false := by
  cases held with
  | caller | ticker => rfl
  | courier => cases other

/-! ## A step of a worker by itself -/

namespace Worker.Strides

variable {machine middle : Machine} {own : List String} {number : Nat} {held next : Worker}
  (strides : held.Strides own number machine next middle)

include strides

/-- A step of a worker leaves the request alone that is served. -/
theorem service (fine : ∀ run, next.run? = some run → run.hasFailed = false) :
    middle.scheduler.service = machine.scheduler.service ∧
      middle.scheduler.limit = machine.scheduler.limit := by
  rcases strides.scheduler fine with same | ⟨request, ticket, sent, -⟩
  · rw [same]
    exact ⟨rfl, rfl⟩
  · obtain ⟨service, -, limit⟩ := Scheduler.send_frame sent
    exact ⟨service, limit⟩

/-- A courier remains one, at the same channel, and nobody becomes one. -/
theorem courier {courier : Courier} (there : next.courier? = some courier) :
    ∃ before, held.courier? = some before ∧ before.channel = courier.channel := by
  cases strides with
  | run =>
      rw [courier?_goOn] at there
      obtain ⟨before, held, rfl⟩ := Option.map_eq_some_iff.mp there
      exact ⟨before, held, rfl⟩
  | aside _ apart =>
      cases next with
      | caller | ticker => cases there
      | courier => cases apart.1
  | fetch | report | shut | noted | missed =>
      cases there
      exact ⟨_, rfl, rfl⟩

variable (fine : ∀ run, next.run? = some run → run.hasFailed = false)

include fine

/-- The run gate is taken from nobody else. -/
theorem runGate_other {holder : Nat} (other : holder ≠ number)
    (before : machine.runGate.holder? = some holder) :
    middle.runGate.holder? = some holder := by
  cases strides with
  | run running moves =>
      have fine := fine_of_goOn fine
      cases moves with
      | wait keeps => exact keeps holder before
      | enter _ alone => exact absurd (alone holder before) other
      | left => exact Gate.holder?_leave before (Ne.symm other)
      | failed => cases fine
      | _ => exact before
  | aside _ _ beside =>
      obtain ⟨scheduler, gate, rfl, -⟩ := beside
      exact before
  | fetch fetched =>
      unfold Machine.fetch at fetched
      split at fetched <;> cases fetched
      exact before
  | report | shut | noted | missed => exact before

/-- Whoever is in an open run holds the run gate. -/
theorem runGate_own
    (before : ∀ run, held.run? = some run → run.isOpen = true →
      machine.runGate.holder? = some number)
    {run : RunStage} (running : next.run? = some run) (opened : run.isOpen = true) :
    middle.runGate.holder? = some number := by
  cases strides with
  | run was moves =>
      have fine := fine_of_goOn fine
      rw [run?_goOn] at running
      cases moves with
      | wait keeps =>
          split at running
          · cases running
          · cases running
            exact keeps number (before _ was opened)
      | enter entered => exact entered
      | left => cases running
      | failed => cases fine
      | _ => exact before _ was rfl
  | aside _ apart => cases opened.symm.trans (apart.2 run running).1
  | noted =>
      cases running
      cases opened
  | fetch | report | shut | missed => cases running

/-- A run that waits for a firing goes on to wait while no result is known. -/
theorem awaits_firing {inputs : Values} {fired ticket : Nat} {progressed : Bool}
    {rest : List String} (waits : held.run? = some (.firing inputs fired progressed rest ticket))
    (unanswered : machine.scheduler.result? ticket = none) : next.run? = held.run? := by
  cases strides with
  | run running moves =>
      obtain rfl := Option.some.inj (running.symm.trans waits)
      have fine := fine_of_goOn fine
      cases moves with
      | wait => rw [run?_goOn, waits]
      | fired found | idle found => cases found.symm.trans unanswered
      | failed => cases fine
  | aside apart => cases (apart.2 _ waits).1
  | fetch | report | shut | noted | missed => cases waits

omit fine in
/-- A courier that waits for an event to be noted goes on to wait while no result is known. -/
theorem awaits_record {courier : Courier} (there : held.courier? = some courier) {ticket : Nat}
    (waits : courier.stage = .recording ticket)
    (unanswered : machine.scheduler.result? ticket = none) : next.courier? = held.courier? := by
  cases strides with
  | run running => cases (stage_of_run? there running).symm.trans waits
  | aside apart =>
      cases held with
      | caller | ticker => cases there
      | courier => cases apart.1
  | fetch | report | shut =>
      cases there
      cases waits
  | noted found | missed found =>
      cases there
      cases waits
      cases found.symm.trans unanswered

/-- The graph stays as it is, or all of its tokens are put to a new start as a run is opened, while
nobody else is inside the graph gate. -/
theorem graph : middle.engine.graph = machine.engine.graph ∨
    ∃ graph inputs merged force, machine.engine.graph = some graph ∧
      middle.engine.graph = some (Bench.opened ⟨graph, machine.engine.board⟩ merged).graph ∧
      held.run? = some (.opening inputs force) ∧
      ∀ holder, machine.graphGate.holder? = some holder → holder = number := by
  cases strides with
  | run running moves =>
      have fine := fine_of_goOn fine
      cases moves with
      | opened held alone => exact .inr ⟨_, _, _, _, held, rfl, running, alone⟩
      | closed =>
          refine .inl ?_
          dsimp only
          rw [Engine.close]
          split <;> rfl
      | failed => cases fine
      | _ => exact .inl rfl
  | aside _ _ beside =>
      obtain ⟨scheduler, gate, rfl, -⟩ := beside
      exact .inl rfl
  | fetch fetched =>
      unfold Machine.fetch at fetched
      split at fetched <;> cases fetched
      exact .inl rfl
  | report | shut | noted | missed => exact .inl rfl

/-- An event that is fetched is carried, and one that is carried is about to be noted. -/
theorem carries (listener : Listener) (orderly : machine.scheduler.Orderly)
    (addressed : ∀ courier, held.courier? = some courier → courier.channel = listener.channel) :
    middle.engine.board.letters listener + (next.carries listener.label).toNat +
        middle.scheduler.notes listener.label =
      machine.engine.board.letters listener + (held.carries listener.label).toNat +
        machine.scheduler.notes listener.label := by
  cases strides with
  | @run _ stage run _ running moves =>
      have fine := fine_of_goOn fine
      have letters : middle.engine.board.letters listener =
          machine.engine.board.letters listener := by
        rw [Board.letters_of_post (congrArg Engine.Frame.post (moves.frame fine).2.2)]
      have notes : middle.scheduler.notes listener.label =
          machine.scheduler.notes listener.label := by
        rcases moves.scheduler fine with same | ⟨other, ticket, sent, -⟩
        · rw [same]
        · rw [Scheduler.notes_of_send sent]
          rfl
      have before : held.carries listener.label = false := by
        cases held with
        | caller | ticker => rfl
        | courier courier =>
            obtain ⟨channel, dismissed, stage⟩ := courier
            cases stage with
            | running => rfl
            | _ => cases running
      have after : (held.goOn run).carries listener.label = false := by
        cases held with
        | caller | ticker => rfl
        | courier => cases run <;> rfl
      rw [letters, notes, before, after]
  | aside before after beside =>
      have empty : ∀ {worker : Worker}, worker.isCourier = false →
          worker.carries listener.label = false := by
        intro worker other
        refine carries_of_courier?_eq_none ?_ _
        cases worker with
        | caller | ticker => rfl
        | courier => cases other
      obtain ⟨scheduler, gate, rfl, same | ⟨request, ticket, aside, sent⟩⟩ := beside
      · rw [empty before.1, empty after.1, same]
      · rw [empty before.1, empty after.1, Scheduler.notes_of_send sent]
        cases task : request.task with
        | event =>
            rw [task] at aside
            cases aside
        | fire | walk | node | input => rfl
  | @fetch channel place middle fetched =>
      obtain rfl : channel = listener.channel := addressed _ rfl
      unfold Machine.fetch at fetched
      split at fetched
      · cases fetched
      · next waiting =>
          cases fetched
          simp only [Board.letters, Board.modifyChannel, Board.channel,
            Std.ExtTreeMap.getD_insert_self] at waiting ⊢
          rw [waiting, List.countP_cons]
          by_cases same : place = listener.label <;> simp [Worker.carries, same]
  | @report channel ticket place scheduler sent =>
      rw [Scheduler.notes_of_send sent]
      have noted : (Task.eventRecord place).task.notes listener.label =
          (Worker.courier ⟨channel, false, .reporting place⟩).carries listener.label := rfl
      rw [noted]
      simp only [Worker.carries, Bool.toNat_false]
      omega
  | shut stopped => cases orderly.running.symm.trans stopped
  | noted | missed => rfl

end Worker.Strides

/-! ## A step of a worker of a machine -/

namespace Machine

variable {machine middle after : Machine} {route : Route} {seen : Deliveries} {number : Nat}
  {held next : Worker}

/-- Tokens on their way depend on the graph and on the firing that is under way. -/
theorem load_of_same (graph : after.engine.graph = machine.engine.graph)
    (flight : after.flight? = machine.flight?) : after.load = machine.load := by
  funext place transition
  rw [load, load, graph, flight]

/-- As a run is opened, no event is between the place of the anchor and a transfer. -/
theorem Expected.through (expected : machine.Expected route seen) (manned : machine.Manned route)
    {inputs : Values} {force : Bool} (opening : machine.stage? number = some (.opening inputs force))
    {link : Connection} (member : link ∈ route.links) :
    seen.fired route.origin.eventTransition ≤ seen.fired link.transfer := by
  by_contra waits
  rcases expected.relay link member (Nat.lt_of_not_le waits) with
    ⟨other, stage, there, promises⟩ | ⟨impossible, -⟩
  · have alone := manned.alone other stage there promises.isOpen
    obtain rfl : other = number :=
      Option.some.inj (alone.symm.trans (manned.alone number _ opening rfl))
    obtain rfl := Option.some.inj (there.symm.trans opening)
    cases promises.1
  · cases impossible

section

variable (strides : held.Strides route.own number machine next middle)
  (found : machine.workers.get? number = some held)
  (fine : ∀ run, next.run? = some run → run.hasFailed = false)

include strides found fine

theorem Manned.stride (manned : machine.Manned route) (still : next.isAside route.own = true) :
    (middle.setWorker number next).Manned route := by
  obtain ⟨workers, nextWorker, -⟩ := strides.frame fine
  have before : ∀ {other : Nat}, other ≠ number →
      (middle.setWorker number next).workers.get? other = machine.workers.get? other := by
    intro other differs
    rw [get?_setWorker, if_neg differs, workers]
  have here : (middle.setWorker number next).workers.get? number = some next := by
    rw [get?_setWorker, if_pos rfl]
  refine ⟨fun other worker there => ?_, fun other worker there => ?_,
    fun other stage there opened => ?_, fun other courier there => ?_⟩
  · by_cases same : other = number
    · subst same
      obtain rfl := Option.some.inj (here.symm.trans there)
      exact ⟨still, strides.smooth (manned.peaceful other held found).2 fine⟩
    · exact manned.peaceful other worker ((before same).symm.trans there)
  · change other < middle.nextWorker
    rw [nextWorker]
    by_cases same : other = number
    · exact same ▸ manned.numbered number held found
    · exact manned.numbered other worker ((before same).symm.trans there)
  · change middle.runGate.holder? = some other
    by_cases same : other = number
    · subst same
      rw [stage?, here] at there
      refine strides.runGate_own fine (fun run running => manned.alone other run ?_) there opened
      rw [stage?, found]
      exact running
    · rw [stage?, before same] at there
      exact strides.runGate_other fine same (manned.alone other stage there opened)
  · by_cases same : other = number
    · subst same
      rw [courier?, here] at there
      obtain ⟨old, was, channel⟩ := strides.courier there
      have known : machine.courier? other = some old := by
        rw [courier?, found]
        exact was
      obtain ⟨numbered, addressed⟩ := manned.courier other old known
      exact ⟨numbered, channel.symm.trans addressed⟩
    · rw [courier?, before same] at there
      exact manned.courier other courier there

/-- Who waits for a task that is not answered goes on to wait. -/
theorem Awaits.stride {ticket : Nat} {task : Task} (awaits : machine.Awaits route ticket task)
    (unanswered : machine.scheduler.result? ticket = none) :
    (middle.setWorker number next).Awaits route ticket task := by
  obtain ⟨workers, -⟩ := strides.frame fine
  cases task with
  | fire transition =>
      obtain ⟨other, inputs, fired, progressed, rest, there⟩ := awaits
      refine ⟨other, inputs, fired, progressed, rest, ?_⟩
      rw [stage?_setWorker]
      split
      · next same =>
          subst same
          rw [stage?, found] at there
          exact (strides.awaits_firing fine there unanswered).trans there
      · rw [stage?, workers]
        exact there
  | event place =>
      obtain ⟨other, courier, there, waits⟩ := awaits
      refine ⟨other, courier, ?_, waits⟩
      rw [courier?_setWorker]
      split
      · next same =>
          subst same
          rw [courier?, found] at there
          exact (strides.awaits_record there waits unanswered).trans there
      · rw [courier?, workers]
        exact there
  | node | walk | input => exact awaits

theorem Entrusted.stride (entrusted : machine.Entrusted route) :
    (middle.setWorker number next).Entrusted route := by
  have orderly := entrusted.orderly
  have here : (middle.setWorker number next).workers.get? number = some next := by
    rw [get?_setWorker, if_pos rfl]
  have service := (strides.service fine).1
  have old : ∀ entry ∈ machine.scheduler.requests,
      (middle.setWorker number next).Awaits route entry.1 entry.2.task := fun entry waits =>
    (entrusted.waiting entry waits).stride strides found fine (orderly.result?_eq_none
      (List.mem_append_right _ (List.mem_map_of_mem waits)))
  refine ⟨strides.orderly fine orderly, fun entry waits => ?_, fun held' served => ?_⟩
  · rcases strides.scheduler fine with same | ⟨request, ticket, sent, kind⟩
    · exact old entry (same ▸ waits)
    · rcases (Scheduler.mem_requests_of_send sent).mp waits with rfl | before
      · rcases kind with aside | ⟨transition, inputs, fired, progressed, rest, fires, running⟩ |
          ⟨place, channel, notes, -, rfl⟩
        · cases task : request.task with
          | fire | event =>
              rw [task] at aside
              cases aside
          | node id inputs =>
              rw [task] at aside
              have foreign : id ∉ route.own := by simpa [Task.isAside] using aside
              exact foreign
          | walk | input => trivial
        · rw [fires]
          refine ⟨number, inputs, fired, progressed, rest, ?_⟩
          rw [stage?, here]
          exact running
        · rw [notes]
          refine ⟨number, ⟨channel, false, .recording ticket⟩, ?_, rfl⟩
          rw [courier?, here]
          rfl
      · exact old entry before
  · have before := served
    change middle.scheduler.service = _ at before
    rw [service] at before
    have unanswered : machine.scheduler.result? held'.ticket = none := orderly.result?_eq_none (by
      rw [Scheduler.tickets, before]
      exact List.mem_cons_self ..)
    have awaits := entrusted.served held' before
    revert awaits
    cases held'.progress with
    | fresh task => exact fun awaits => Awaits.stride strides found fine awaits unanswered
    | firing flight wake answer =>
        rintro (⟨success, waits⟩ | foreign)
        · have awaited : machine.Awaits route held'.ticket (.fire flight.firing.transition) := waits
          exact .inl ⟨success, awaited.stride strides found fine unanswered⟩
        · exact .inr foreign
    | _ => exact fun _ => trivial

theorem Balanced.stride (balanced : machine.Balanced route seen)
    (manned : machine.Manned route) (expected : machine.Expected route seen)
    (handsOn : ∀ graph, machine.engine.graph = some graph →
      graph.net.HandsOn route.origin route.links) (other : number ≠ server)
    (accounted : ∃ ledger, (middle.setWorker number next).Accounted ledger) :
    (middle.setWorker number next).Balanced route seen := by
  have flight : (middle.setWorker number next).flight? = machine.flight? := by
    rw [flight?, flight?, progress?, progress?, ← (strides.service fine).1]
    rfl
  rcases strides.graph fine with same | ⟨graph, inputs, merged, force, present, left, opening, alone⟩
  · have load : (middle.setWorker number next).load = machine.load := load_of_same same flight
    exact ⟨accounted, load ▸ balanced.origin, load ▸ balanced.relay⟩
  · obtain ⟨ledger, tallies⟩ := balanced.accounted
    have grounded : machine.flight? = none := by
      by_contra flies
      exact other (alone server (tallies.tallies.gate flies)).symm
    have hands := handsOn graph present
    have load : ∀ place transition, (middle.setWorker number next).load place transition =
        (Bench.opened ⟨graph, machine.engine.board⟩ merged).graph.net.tokens place := by
      intro place transition
      rw [Machine.load, flight, grounded]
      change (Option.map _ middle.engine.graph).getD 0 + 0 = _
      rw [left]
      rfl
    have before : ∀ place transition, machine.load place transition =
        graph.net.tokens place := by
      intro place transition
      rw [Machine.load, present, grounded]
      rfl
    refine ⟨accounted, ?_, fun link member => ?_⟩
    · rw [load, Bench.tokens_opened _ _ hands.outlet.known, if_pos hands.collects, ← before]
      exact balanced.origin
    · have stays := balanced.relay link member
      have through := expected.through manned (by rw [stage?, found]; exact opening) member
      rw [load, Bench.tokens_opened _ _ (hands.relays link member).known,
        if_neg (by rw [hands.passes link member]; exact Bool.false_ne_true), if_neg (hands.not_mem_entryPlaces member)]
      omega

theorem Expected.stride (expected : machine.Expected route seen)
    (orderly : machine.scheduler.Orderly)
    (handsOn : ∀ graph, machine.engine.graph = some graph →
      graph.net.HandsOn route.origin route.links) :
    (middle.setWorker number next).Expected route seen where
  origin := fun waits => strides.promises fine found orderly
    (fun graph held => (handsOn graph held).outlet.listed) (expected.origin waits)
  relay := fun link member waits => strides.promises fine found orderly
    (fun graph held => ((handsOn graph held).relays link member).listed)
    (expected.relay link member waits)

theorem Tracked.stride (tracked : machine.Tracked route seen) (manned : machine.Manned route)
    (orderly : machine.scheduler.Orderly) : (middle.setWorker number next).Tracked route seen := by
  obtain ⟨workers, -, -, bells⟩ := strides.frame fine
  have addressed : ∀ courier, held.courier? = some courier → number = route.courier ∧
      courier.channel = route.channel := by
    intro courier there
    refine manned.courier number courier ?_
    rw [courier?, found]
    exact there
  have carried := strides.carries fine route.listener orderly
    fun courier there => (addressed courier there).2
  have carries : (middle.setWorker number next).carries route =
      if route.courier = number then next.carries route.origin.eventPlace
      else machine.carries route := by
    rw [Machine.carries, Machine.carries, get?_setWorker, workers]
    split <;> rfl
  have emits := tracked.emits
  obtain ⟨service, limit⟩ := strides.service fine
  refine ⟨fun slot => ?_, ?_, limit.trans tracked.limit, fun unlimited => ?_⟩
  · exact (congrFun (congrFun (Board.posts_of_bells bells) slot) _).trans (tracked.posts slot)
  · rw [carries]
    change _ = middle.engine.board.letters route.listener + _ + middle.scheduler.notes _ + _ + _
    split
    · next same =>
        rw [Machine.carries, same, found] at emits
        simp only [Option.any_some, Route.listener] at carried emits ⊢
        omega
    · next other =>
        have before : held.carries route.origin.eventPlace = false :=
          Worker.carries_of_courier?_eq_none (Option.eq_none_iff_forall_ne_some.mpr
            fun courier there => other (addressed courier there).1.symm) _
        have now : next.carries route.origin.eventPlace = false :=
          Worker.carries_of_courier?_eq_none (Option.eq_none_iff_forall_ne_some.mpr
            fun courier there => by
              obtain ⟨old, was, -⟩ := strides.courier there
              exact other (addressed old was).1.symm) _
        simp only [Route.listener, before, now] at carried emits ⊢
        omega
  · obtain ⟨none, deadlines⟩ := tracked.prompt unlimited
    exact ⟨none, fun held served => deadlines held (service.symm.trans served)⟩

end

/-- Events are delivered on through a step of a worker whose run does not fail. -/
theorem Delivers.stride (delivers : machine.Delivers route seen) (other : number ≠ server)
    (stepped : machine.step number = some after)
    (fine : (after.stage? number).any RunStage.hasFailed = false) : after.Delivers route seen := by
  obtain ⟨ledger, accounted⟩ := delivers.balanced.accounted
  obtain ⟨graph, present, hands⟩ := delivers.handsOn
  have orderly := delivers.entrusted.orderly
  have handsOn : ∀ held, machine.engine.graph = some held →
      held.net.HandsOn route.origin route.links := by
    intro held there
    obtain rfl := Option.some.inj (present.symm.trans there)
    exact hands
  obtain ⟨held, found⟩ : ∃ held, machine.workers.get? number = some held := by
    rw [step, if_neg other] at stepped
    split at stepped
    · cases stepped
    all_goals next found => exact ⟨_, found⟩
  obtain ⟨next, middle, rfl, strides, still⟩ := strides_step
    (fun held there => (accounted.tracked held there).visual) other found
    (delivers.manned.peaceful number held found) stepped
  have fine : ∀ run, next.run? = some run → run.hasFailed = false := by
    intro run running
    rw [stage?_setWorker, if_pos rfl, running] at fine
    exact fine
  refine ⟨?_, delivers.manned.stride strides found fine still,
    delivers.entrusted.stride strides found fine, ?_,
    delivers.expected.stride strides found fine orderly handsOn,
    delivers.tracked.stride strides found fine delivers.manned orderly⟩
  · have layout := (strides.frame fine).2.2.1
    rw [present] at layout
    obtain ⟨left, there, bare⟩ := Option.map_eq_some_iff.mp layout
    exact ⟨left, there, hands.of_bare (congrArg Graph.net bare)⟩
  · exact delivers.balanced.stride strides found fine delivers.manned delivers.expected handsOn other
      ⟨_, (accounted.work other stepped).1⟩

end Machine

end CardNet
