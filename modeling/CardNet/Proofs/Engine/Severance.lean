import CardNet.Proofs.Engine.Heeding
import CardNet.Proofs.Engine.MachineReckoning
import CardNet.Proofs.Engine.MemoizedAnswers

/-!
# Removed connections

A connection that was taken out of the graph carries no more values, if at that time nobody has a
plan in hand that does so, but for runs that are under way (`Machine.removed_connection_rests`).
Where graphs are run by firings there are no plans, so this holds of all calls. A call that runs the
plan of a single node does not enter the run gate, though, and keeps the plan that it has found; so
does the request of a run whose courier was dismissed
(`Machine.removed_connection_carries`).
-/

namespace CardNet

namespace Machine

variable {machine middle after : Machine} {worker : Nat} {restraint : Restraint}

/-! ## Whose plans there are -/

/-- A worker inside the run gate waits for the answer to a request. -/
def IsAwaited (machine : Machine) (ticket : Nat) : Prop :=
  ∃ number held, machine.workers.get? number = some held ∧ held.stance.inside = true ∧
    held.stance.ticket = some ticket

/-- Runs alone have plans in hand that act for a transition, or have had such plans requested: nobody
outside the run gate is about to have one run, and whatever is left of one that was requested is
waited for inside. -/
structure Confines (machine : Machine) (id : String) : Prop where
  plans : ∀ number held plan, machine.workers.get? number = some held →
    held.stance.plan = some plan → held.stance.inside = false → plan.Heeds (.without id)
  requests : ∀ entry ∈ machine.scheduler.requests, ∀ plan, entry.2.task.plan? = some plan →
    plan.Heeds (.without id) ∨ machine.IsAwaited entry.1
  service : ∀ service, machine.scheduler.service = some service →
    service.progress.flight? = none →
      service.progress.Heeds (.without id) ∨ machine.IsAwaited service.ticket

/-- Where graphs are run by firings there are no such plans. -/
theorem Heeds.confines (heeds : machine.Heeds .unplanned) (id : String) : machine.Confines id where
  plans := fun number held plan found has _ =>
    (heeds.plans number held plan found has).without id
  requests := fun entry member plan runs => .inl ((heeds.requests entry member plan runs).without id)
  service := by
    intro service served grounded
    refine .inl ?_
    have before := heeds.progress service.progress (by rw [progress?, served, Option.map_some])
    obtain ⟨ticket, label, deadline, progress⟩ := service
    cases progress with
    | fresh task => exact fun plan runs => (before plan runs).without id
    | firing flight wake answer => cases grounded
    | walking steps results => exact fun step member => (before step member).without id
    | acting other job wake steps results => exact before.1.elim
    | visiting card globals wake => trivial
    | ended result => trivial

/-- Every request that has no answer yet is waited for, unless a courier was dismissed. -/
def Attached (machine : Machine) : Prop :=
  ∀ ticket ∈ machine.scheduler.tickets, ∃ number held, machine.workers.get? number = some held ∧
    (held.stance.ticket = some ticket ∨ held.isDismissed = true)

theorem attached_idle (config : EngineConfig) (board : Board) : (idle config board).Attached := by
  have empty : (idle config board).scheduler.tickets = [] := rfl
  intro ticket member
  rw [empty] at member
  cases member

/-- Workers that join or are told something go on waiting. -/
theorem Attached.company (attached : machine.Attached) (company : Company machine after)
    (tickets : ∀ ticket ∈ after.scheduler.tickets, ticket ∈ machine.scheduler.tickets) :
    after.Attached := by
  intro ticket member
  obtain ⟨number, held, found, waits⟩ := attached ticket (tickets ticket member)
  obtain ⟨told, now, tells⟩ := company.kept number held found
  refine ⟨number, told, now, waits.imp ?_ tells.isDismissed⟩
  rw [tells.stance]
  exact id

/-- A worker that keeps to the gates goes on waiting until it has its answer, or was dismissed. -/
theorem Attached.work {held next : Worker} {quits : Bool} (attached : machine.Attached)
    (order : machine.InOrder) (found : machine.workers.get? worker = some held)
    (conduct : Conduct worker held.stance next.stance machine middle quits)
    (leaves : quits = true → next.isDismissed = true)
    (stays : held.isDismissed = true → next.isDismissed = true) :
    (setWorker middle worker next).Attached := by
  have own : (setWorker middle worker next).workers.get? worker = some next := by
    rw [get?_setWorker, if_pos rfl]
  -- whoever else waits goes on to do so, and so does the worker, or it has its answer
  have before : ∀ ticket ∈ machine.scheduler.tickets,
      (held.stance.ticket = some ticket → next.stance.ticket = some ticket ∨
        next.isDismissed = true) →
      ∃ number other, (setWorker middle worker next).workers.get? number = some other ∧
        (other.stance.ticket = some ticket ∨ other.isDismissed = true) := by
    intro ticket member keeps
    obtain ⟨number, other, there, waits⟩ := attached ticket member
    by_cases same : number = worker
    · subst same
      cases found.symm.trans there
      exact ⟨number, next, own, waits.elim keeps fun dismissed => .inr (stays dismissed)⟩
    · obtain ⟨told, now, tells⟩ := conduct.company.kept number other there
      refine ⟨number, told, by rw [get?_setWorker, if_neg same]; exact now,
        waits.imp ?_ tells.isDismissed⟩
      rw [tells.stance]
      exact id
  intro ticket member
  change ticket ∈ middle.scheduler.tickets at member
  cases conduct.exchange with
  | keep scheduler _ heard =>
      rw [scheduler] at member
      apply before ticket member
      intro waits
      rcases heard ticket waits with still | answered
      · exact .inl still
      · rw [order.orderly.result?_eq_none member] at answered
        cases answered
  | @send request other sent _ free waits =>
      rw [Scheduler.tickets, (Scheduler.send_frame sent).1] at member
      by_cases same : ticket = other
      · subst same
        exact ⟨worker, next, own, .inl (by rw [waits])⟩
      · apply before ticket
        · rcases List.mem_append.mp member with served | waiting
          · exact List.mem_append_left _ served
          · obtain ⟨entry, sorted, rfl⟩ := List.mem_map.mp waiting
            rcases (Scheduler.mem_requests_of_send sent).mp sorted with rfl | earlier
            · exact absurd rfl same
            · exact List.mem_append_right _ (List.mem_map_of_mem earlier)
        · intro asked
          cases free.symm.trans asked
  | quit scheduler idle =>
      rw [scheduler] at member
      exact before ticket member fun _ => .inr (leaves rfl)

/-- Worker zero takes no ticket up but those that were given out. -/
theorem Serving.tickets (serving : machine.Serving after) (orderly : machine.scheduler.Orderly) :
    ∀ ticket ∈ after.scheduler.tickets, ticket ∈ machine.scheduler.tickets := by
  cases serving with
  | @turn scheduler turned =>
      obtain ⟨ticket, request, free, split, service, -⟩ := Scheduler.turn_spec orderly turned
      have same : scheduler.tickets = machine.scheduler.tickets := by
        rw [Scheduler.tickets, Scheduler.tickets, free, service, split]
        rfl
      rw [same]
      exact fun _ member => member
  | @work service next middle served _ serves =>
      have same : (proceed (next, middle)).scheduler.tickets = machine.scheduler.tickets := by
        rw [proceed, serves.scheduler, Scheduler.tickets, Scheduler.tickets,
          Scheduler.service_proceed served, served]
        rfl
      rw [same]
      exact fun _ member => member
  | @answer service result served _ =>
      obtain ⟨free, requests, -⟩ := Scheduler.conclude_spec served result
      intro ticket member
      rw [Scheduler.tickets, free, requests] at member
      exact List.mem_append_right _ member

theorem Attached.undergo (attached : machine.Attached) (order : machine.InOrder)
    {incident : Incident} (happened : machine.undergo incident = some after) : after.Attached := by
  cases incident with
  | call call =>
      cases happened
      exact attached.company (company_enlist order.numbered (.caller call)) fun _ member => member
  | tick interval inputs =>
      cases happened
      apply attached.company (company_startTicker order.numbered interval inputs)
      rw [(aside_startTicker machine interval inputs).scheduler]
      exact fun _ member => member
  | halt =>
      cases happened
      apply attached.company machine.company_stopTicker
      rw [(aside_stopTicker machine).scheduler]
      exact fun _ member => member
  | wait time =>
      rw [Machine.undergo] at happened
      split at happened
      · cases happened
        exact attached
      · cases happened
  | board change =>
      cases happened
      exact attached
  | step worker =>
      by_cases zero : worker = server
      · subst zero
        have serving := serving_of_stepServer happened
        have same : after.workers = machine.workers ∧ after.nextWorker = machine.nextWorker := by
          cases serving with
          | turn | answer => exact ⟨rfl, rfl⟩
          | work _ _ serves => exact ⟨serves.workers, serves.nextWorker⟩
        exact attached.company (company_of_workers same.1 same.2) (serving.tickets order.orderly)
      · obtain ⟨held, next, middle, quits, found, rfl, conduct, leaves, stays⟩ :=
          conduct_step order.numbered zero happened
        exact attached.work order found conduct leaves stays

theorem Unfolds.attached {α : Type} {allowed : Machine → Incident → Bool}
    {observe : α → Machine → Incident → Machine → α} {config : EngineConfig} {board : Board}
    {start seen : α} (unfolds : Unfolds allowed observe (idle config board) start machine seen) :
    machine.Attached := by
  have both : machine.InOrder ∧ machine.Attached := by
    induction unfolds with
    | start => exact ⟨inOrder_idle config board, attached_idle config board⟩
    | happen _ _ _ happened ih => exact ⟨ih.1.undergo happened, ih.2.undergo ih.1 happened⟩
  exact both.2

/-- Unless a courier was dismissed, and when no call outside the run gate has had a plan requested
that acts for a transition or is about to, runs alone have such plans. -/
theorem Attached.confines (attached : machine.Attached) {id : String}
    (loyal : ∀ number held, machine.workers.get? number = some held → held.isDismissed = false)
    (plans : ∀ number held plan, machine.workers.get? number = some held →
      held.stance.plan = some plan → held.stance.inside = false → plan.Heeds (.without id))
    (requests : ∀ number held ticket, machine.workers.get? number = some held →
      held.stance.ticket = some ticket → held.stance.inside = false →
        (∀ request, (ticket, request) ∈ machine.scheduler.requests →
          ∀ plan, request.task.plan? = some plan → plan.Heeds (.without id)) ∧
        ∀ service, machine.scheduler.service = some service → service.ticket = ticket →
          service.progress.Heeds (.without id)) : machine.Confines id := by
  have awaits : ∀ ticket ∈ machine.scheduler.tickets, machine.IsAwaited ticket ∨
      ∃ number held, machine.workers.get? number = some held ∧ held.stance.ticket = some ticket ∧
        held.stance.inside = false := by
    intro ticket member
    obtain ⟨number, held, found, waits⟩ := attached ticket member
    have asks := waits.resolve_right (by rw [loyal number held found]; decide)
    cases inside : held.stance.inside with
    | true => exact .inl ⟨number, held, found, inside, asks⟩
    | false => exact .inr ⟨number, held, found, asks, inside⟩
  refine ⟨plans, fun entry member plan runs => ?_, fun service served _ => ?_⟩
  · rcases awaits entry.1 (List.mem_append_right _ (List.mem_map_of_mem member)) with
      awaited | ⟨number, held, found, asks, outside⟩
    · exact .inr awaited
    · exact .inl ((requests number held entry.1 found asks outside).1 entry.2 member plan runs)
  · have member : service.ticket ∈ machine.scheduler.tickets := by
      rw [Scheduler.tickets, served]
      exact List.mem_cons_self
    rcases awaits service.ticket member with awaited | ⟨number, held, found, asks, outside⟩
    · exact .inr awaited
    · exact .inl ((requests number held service.ticket found asks outside).2 service served rfl)

/-! ## Removals -/

/-- Whether worker zero carries out a transition: in a firing or as a step of a plan. -/
def carriesOut (machine : Machine) (id : String) : Bool :=
  machine.progress?.any fun
    | .firing flight _ _ => flight.firing.transition == id
    | .acting other _ _ _ _ => other == id
    | _ => false

theorem Heeds.not_carriesOut {id : String} (heeds : machine.Heeds (.without id)) :
    machine.carriesOut id = false := by
  rw [carriesOut]
  cases held : machine.progress? with
  | none => rfl
  | some progress =>
      have goes := heeds.progress progress held
      cases progress with
      | firing flight wake answer => exact beq_eq_false_iff_ne.mpr goes
      | acting other job wake steps results => exact beq_eq_false_iff_ne.mpr goes.1
      | _ => rfl

/-- What removing a connection makes of the graph of an engine. -/
theorem graph_removeConnection {engine : Engine} {graph : Graph}
    (present : engine.graph = some graph) (id : String) :
    (engine.removeConnection id).2.graph =
      some ((Bench.mk graph engine.board).removeConnection id).2.graph := by
  simp only [Engine.removeConnection, Engine.bench_eq present]
  split <;> next done => rw [done]; rfl

/-- A connection is changed inside the graph gate, by its worker alone. -/
theorem step_splice (other : worker ≠ server) {change : Rewiring}
    (asked : machine.workers.get? worker = some (.caller (.splicing change)))
    (stepped : machine.step worker = some after) {result : Except Failure Answer}
    (done : after.workers.get? worker = some (.caller (.leaving result false))) :
    (machine.graphGate.claim worker).holder? = some worker ∧
      after.engine = (rewire machine.engine change).2 ∧ after.scheduler = machine.scheduler ∧
      ∀ number, number ≠ worker → after.workers.get? number = machine.workers.get? number := by
  obtain ⟨held, next, middle, found, rfl, advances⟩ := advances_step other stepped
  cases asked.symm.trans found
  rw [get?_setWorker, if_pos rfl] at done
  cases done
  cases advances with
  | caller advances =>
      cases advances with
      | works inside works =>
          cases works with
          | spliced =>
              refine ⟨inside, rfl, rfl, fun number differ => ?_⟩
              rw [get?_setWorker, if_neg differ]
      | enters _ enters => cases enters

/-- Once a connection was taken out, nothing on a machine does anything for its transfer, if runs
alone have had plans in hand that did. -/
theorem Heeds.removal (heeds : machine.Heeds restraint) (order : machine.InOrder) {id : String}
    {graph : Graph} (present : machine.engine.graph = some graph) {connection : Connection}
    (listed : graph.connections.get? id = some connection)
    (confines : machine.Confines connection.transfer)
    (asked : machine.workers.get? worker = some (.caller (.splicing (.remove id))))
    (stepped : machine.step worker = some after) {result : Except Failure Answer}
    (removed : after.workers.get? worker = some (.caller (.leaving result false))) :
    after.Heeds (.without connection.transfer) := by
  have other : worker ≠ server := Nat.ne_of_gt (order.numbered.known worker _ asked).1
  obtain ⟨inside, engine, scheduler, others⟩ := step_splice other asked stepped removed
  -- the worker is inside both gates, so no run is under way, and no firing
  have alone : ∀ number held, number ≠ worker → after.workers.get? number = some held →
      machine.workers.get? number = some held ∧ held.stance.inside = false := by
    intro number held differ found
    rw [others number differ] at found
    exact ⟨found, order.alone asked rfl found differ⟩
  have unawaited : ∀ ticket, ¬machine.IsAwaited ticket := by
    rintro ticket ⟨number, held, found, entered, waits⟩
    by_cases same : number = worker
    · subst same
      cases asked.symm.trans found
      cases waits
    · cases (order.alone asked rfl found same).symm.trans entered
  have grounded : machine.flight? = none := by
    by_contra flies
    have gate := heeds.gate (Option.isSome_iff_ne_none.mpr flies)
    exact other (Option.some.inj (inside.symm.trans (Gate.holder?_claim gate worker)))
  refine ⟨Restraint.fits_without _ _, ?_, ?_, ?_, ?_, ?_, ?_⟩
  · have edited : after.engine.graph =
        some ((Bench.mk graph machine.engine.board).removeConnection id).2.graph := by
      rw [engine]
      exact graph_removeConnection present id
    rw [edited]
    rintro _ ⟨⟩
    exact Bench.heeds_of_removal (heeds.graph graph present) listed
  · intro number stage found
    by_cases same : number = worker
    · subst same
      cases removed.symm.trans found
      trivial
    · have outside := (alone number _ same found).2
      cases stage with
      | installing => cases outside
      | _ => trivial
  · intro number held plan found has
    by_cases same : number = worker
    · subst same
      cases removed.symm.trans found
      cases has
    · obtain ⟨before, outside⟩ := alone number held same found
      exact confines.plans number held plan before has outside
  · rw [scheduler]
    intro entry member plan runs
    exact (confines.requests entry member plan runs).resolve_right (unawaited entry.1)
  · rw [progress?, scheduler]
    intro progress found
    obtain ⟨service, served, rfl⟩ := Option.map_eq_some_iff.mp found
    have lands : service.progress.flight? = none := by
      rw [flight?, progress?, served] at grounded
      exact grounded
    exact (confines.service service served lands).resolve_right (unawaited service.ticket)
  · have still : after.flight? = machine.flight? := by rw [flight?, progress?, scheduler]; rfl
    rw [still, grounded]
    intro flies
    cases flies

/-- A worker takes a connection out of the graph by a step, and its call will be answered with
success. -/
structure Severs (machine : Machine) (worker : Nat) (connection : Connection) (after : Machine) :
    Prop where
  listed : ∃ id graph, machine.engine.graph = some graph ∧
    graph.connections.get? id = some connection ∧
    machine.workers.get? worker = some (.caller (.splicing (.remove id)))
  stepped : machine.step worker = some after
  removed : after.workers.get? worker = some (.caller (.leaving (.ok (.flag true)) false))

/-- Whether an incident lays out no connection with the transfer of a connection. -/
def leavesOut (connection : Connection) (machine : Machine) (incident : Incident) : Bool :=
  (machine.laid incident).all fun other => other.transfer != connection.transfer

/-- A connection that was removed carries no more values. Once the removal of a connection has
succeeded, however calls come in and in whatever order the workers of a machine take their steps, no
firing and no plan carries out its transfer until it is laid out anew. Where graphs are run by
plans, this takes that runs alone had plans in hand, or had them requested, that carry it out. -/
theorem removed_connection_rests {α : Type} {config : EngineConfig} {board : Board}
    {observe : α → Machine → Incident → Machine → α} {start seen : α} {machine after last : Machine}
    (unfolds : Unfolds (fun _ _ => true) observe (idle config board) start machine seen)
    {worker : Nat} {connection : Connection}
    (confines : config.mode = .visual ∨ machine.Confines connection.transfer)
    (severs : machine.Severs worker connection after) {found : α}
    (later : Unfolds (leavesOut connection) observe after seen last found) :
    last.carriesOut connection.transfer = false := by
  obtain ⟨order, heeds⟩ := unfolds.heeds (inOrder_idle config board)
    (heeds_idle (Restraint.fits_free _) board) Restraint.lenient_free
    fun _ _ _ _ _ => trivial
  have confined : machine.Confines connection.transfer := by
    rcases confines with visual | confined
    · have unplanned : (idle config board).Heeds .unplanned :=
        heeds_idle (visual ▸ Restraint.fits_unplanned) board
      exact (unfolds.heeds (inOrder_idle config board) unplanned Restraint.lenient_unplanned
        fun _ _ _ _ _ => trivial).2.confines _
    · exact confined
  obtain ⟨⟨id, graph, present, listed, asked⟩, stepped, removed⟩ := severs
  have severed := heeds.removal order present listed confined asked stepped removed
  have happened : machine.undergo (.step worker) = some after := stepped
  refine (later.heeds (order.undergo happened) severed (Restraint.lenient_without connection)
    ?_).2.not_carriesOut
  intro machine incident allows other member
  exact bne_iff_ne.mp (List.all_eq_true.mp allows other member)

/-! ## Two cards and a plan -/

/-- A step of a worker that takes a connection out of the graph, with searches of at most so many
steps. -/
def severWithin (steps : Nat) (machine : Machine) (worker : Nat) (connection : Connection) :
    Option Machine :=
  match machine.workers.get? worker with
  | some (.caller (.splicing (.remove id))) =>
      if machine.engine.graph.bind (·.connections.get? id) = some connection then
        (machine.stepWithin steps worker).filter fun after =>
          match after.workers.get? worker with
          | some (.caller (.leaving (.ok (.flag true)) false)) => true
          | _ => false
      else none
  | _ => none

theorem severs_of_within {steps : Nat} {connection : Connection}
    (found : machine.severWithin steps worker connection = some after) :
    machine.Severs worker connection after := by
  unfold severWithin at found
  split at found
  · next id asked =>
      split at found
      · next held =>
          obtain ⟨graph, present, listed⟩ := Option.bind_eq_some_iff.mp held
          obtain ⟨within, answered⟩ := Option.filter_eq_some_iff.mp found
          refine ⟨⟨id, graph, present, listed, asked⟩, step_of_within within, ?_⟩
          split at answered
          · next removed => exact removed
          · cases answered
      · cases found
  · cases found

/-- Whether no courier was dismissed, and nobody outside the run gate has a plan in hand or waits for
an answer. -/
def isSettled (machine : Machine) : Bool :=
  machine.workers.toList.all fun (_, held) => !held.isDismissed &&
    (held.stance.inside || held.stance.plan.isNone && held.stance.ticket.isNone)

/-- Where that is so, runs alone have plans. -/
theorem Attached.confines_of_isSettled (attached : machine.Attached)
    (settled : machine.isSettled = true) (id : String) : machine.Confines id := by
  have known : ∀ number held, machine.workers.get? number = some held →
      held.isDismissed = false ∧ (held.stance.inside = false →
        held.stance.plan = none ∧ held.stance.ticket = none) := by
    intro number held found
    have checked := List.all_eq_true.mp settled (number, held)
      (Std.ExtTreeMap.mem_toList_iff_getElem?_eq_some.mpr found)
    simp only [Bool.and_eq_true, Bool.or_eq_true, Bool.not_eq_true', Option.isNone_iff_eq_none]
      at checked
    refine ⟨checked.1, fun outside => checked.2.resolve_left ?_⟩
    rw [outside]
    exact Bool.false_ne_true
  apply attached.confines
  · exact fun number held found => (known number held found).1
  · intro number held plan found has outside
    cases ((known number held found).2 outside).1.symm.trans has
  · intro number held ticket found asks outside
    cases ((known number held found).2 outside).2.symm.trans asks

end Machine

namespace HeldPlan

/-- A card that shows a five, and one that hands its input on. -/
def seated : List Card × Board :=
  Board.empty.seatAll [.single "a" [] fun _ => .ofNat 5,
    .single "t" ["in"] fun arguments => arguments.getD "in" .null]

/-- The connection between the two cards. -/
def connection : Connection := ⟨⟨"a", "out"⟩, ⟨"t", "in"⟩⟩

def settings : EngineConfig := EngineConfig.standard.withMode .function

/-- Caller one has the graph built, and worker two is its courier. -/
def building : List Incident :=
  .call (.build ⟨"held", [connection]⟩ seated.1 none) :: List.replicate 6 (.step 1)

/-- Caller three runs the graph. Meanwhile caller four is to remove the connection, and gets through
when the run is over. -/
def running : List Incident :=
  .call (.exec ∅ true) :: List.replicate 5 (.step 3) ++
    .call (.rewire (.remove connection.id)) :: List.replicate 2 (.step 4) ++
    List.replicate 15 (.step 0) ++ List.replicate 3 (.step 3) ++ [.step 4]

/-- Caller five runs the graph again, up to the call of a card. -/
def rerunning : List Incident :=
  .step 4 :: .call (.exec ∅ true) :: List.replicate 5 (.step 5) ++ List.replicate 3 (.step 0)

/-- Caller three has the plan of the first card run, which waits for worker zero. Caller four is to
remove the connection. -/
def asking : List Incident :=
  .call (.executeNode "internal_place_a_single" ∅) :: List.replicate 3 (.step 3) ++
    .call (.rewire (.remove connection.id)) :: List.replicate 2 (.step 4)

/-- What the inputs hold. -/
def held (machine : Machine) : List String :=
  (seated.1.flatMap (Card.anchorsOf · .input)).map fun anchor =>
    (machine.engine.board.read anchor).compact

end HeldPlan

namespace Machine

open HeldPlan (settings seated connection held)

/-- A connection is removed between two runs of a graph. The second one calls the first card, but
does not come to the connection. -/
theorem removed_connection_rests_rerun :
    ∃ machine after last : Machine,
      Unfolds (fun _ _ => true) (fun _ _ _ _ => ()) (idle settings seated.2) () machine () ∧
      machine.Confines connection.transfer ∧ machine.Severs 4 connection after ∧
      Unfolds (leavesOut connection) (fun _ _ _ _ => ()) after () last () ∧
      last.carriesOut "internal_transition_a_single" = true ∧
      last.carriesOut connection.transfer = false := by
  have ran : ((unfoldWithin 60 (fun _ _ => true) (idle settings seated.2)
      (HeldPlan.building ++ HeldPlan.running)).any fun machine => machine.isSettled &&
        (machine.severWithin 60 4 connection).any fun after =>
          (unfoldWithin 60 (leavesOut connection) after HeldPlan.rerunning).any fun last =>
            last.carriesOut "internal_transition_a_single") = true := by
    decide +kernel
  obtain ⟨machine, first, rest⟩ := (Option.any_eq_true _ _).mp ran
  obtain ⟨settled, rest⟩ := (Bool.and_eq_true _ _).mp rest
  obtain ⟨after, severed, rest⟩ := (Option.any_eq_true _ _).mp rest
  obtain ⟨last, second, carries⟩ := (Option.any_eq_true _ _).mp rest
  have unfolds := Unfolds.start.extend (unfold_of_within first)
  have later := Unfolds.start.extend (unfold_of_within second)
  have confines := unfolds.attached.confines_of_isSettled settled connection.transfer
  have severs := severs_of_within severed
  exact ⟨machine, after, last, unfolds, confines, severs, later, carries,
    removed_connection_rests unfolds (.inr confines) severs later⟩

/-- The plan of a single card was found and requested before a connection was removed. After that it
carries the connection out all the same, and the target gets the value of the source. -/
theorem removed_connection_carries :
    ∃ machine after before last : Machine,
      Unfolds (fun _ _ => true) (fun _ _ _ _ => ()) (idle settings seated.2) () machine () ∧
      machine.Severs 4 connection after ∧
      Unfolds (leavesOut connection) (fun _ _ _ _ => ()) after () before () ∧
      held before = ["null"] ∧ before.step server = some last ∧
      last.carriesOut connection.transfer = true ∧ held last = ["5"] := by
  have ran : ((unfoldWithin 60 (fun _ _ => true) (idle settings seated.2)
      (HeldPlan.building ++ HeldPlan.asking)).any fun machine =>
        (machine.severWithin 60 4 connection).any fun after =>
          (unfoldWithin 60 (leavesOut connection) after (List.replicate 7 (.step 0))).any
            fun before => held before == ["null"] && (before.step server).any fun last =>
              last.carriesOut connection.transfer && held last == ["5"]) = true := by
    decide +kernel
  obtain ⟨machine, first, rest⟩ := (Option.any_eq_true _ _).mp ran
  obtain ⟨after, severed, rest⟩ := (Option.any_eq_true _ _).mp rest
  obtain ⟨before, second, rest⟩ := (Option.any_eq_true _ _).mp rest
  obtain ⟨empty, rest⟩ := (Bool.and_eq_true _ _).mp rest
  obtain ⟨last, stepped, rest⟩ := (Option.any_eq_true _ _).mp rest
  obtain ⟨carries, filled⟩ := (Bool.and_eq_true _ _).mp rest
  exact ⟨machine, after, before, last, Unfolds.start.extend (unfold_of_within first),
    severs_of_within severed, Unfolds.start.extend (unfold_of_within second),
    beq_iff_eq.mp empty, stepped, carries, beq_iff_eq.mp filled⟩

end Machine

end CardNet
