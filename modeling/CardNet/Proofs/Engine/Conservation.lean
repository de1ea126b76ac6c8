import CardNet.Proofs.Engine.Incidents
import CardNet.Proofs.Engine.Tending
import CardNet.Proofs.Engine.Turnovers
import CardNet.Proofs.Schedule.Requests

/-!
# Conservation of tokens

A ledger is kept of the tokens of a machine: it is opened anew when all tokens are put to a new
start, and every event that is noted and every firing that succeeds is entered in it
(`Ledger.after`). Whatever calls come in, except for changes of connections, and in whatever order
the workers take their steps, the ledger balances, and no firing takes tokens that are not there
(`Machine.tokens_conserved`). A firing that is under way keeps everybody else out of the graph gate,
which is why its tokens can neither be given out twice nor lost when it is taken back.
-/

namespace CardNet

/-- The firing that is under way in a task. -/
def Progress.flight? : Progress → Option Flight
  | firing flight _ _ => some flight
  | _ => none

namespace Machine

/-- How far the request has come that is served. -/
def progress? (machine : Machine) : Option Progress :=
  machine.scheduler.service.map Service.progress

/-- The firing that is under way on a machine. -/
def flight? (machine : Machine) : Option Flight := machine.progress?.bind Progress.flight?

end Machine

namespace Ledger

/-- Enter what a step of a task has ended: the record of an event or a firing, if it succeeded. -/
def serve (ledger : Ledger) : Progress → Progress → Ledger
  | .fresh (.event place), .ended (.ok _) => ledger.note place
  | .firing flight _ _, .ended (.ok _) => ledger.commit flight.firing.transition
  | _, _ => ledger

/-- Enter what a step of worker zero has ended. -/
def afterService (ledger : Ledger) (before after : Machine) : Ledger :=
  match before.progress?, after.progress? with
  | some progress, some next => ledger.serve progress next
  | _, _ => ledger

/-- Open the ledger anew when a worker has put the tokens to a new start. -/
def afterWork (ledger : Ledger) (worker : Nat) (before after : Machine) : Ledger :=
  match before.workers.get? worker, after.workers.get? worker, after.engine.graph with
  | some held, some next, some graph => if held.restarts next then opened graph.net else ledger
  | _, _, _ => ledger

/-- The ledger of a machine after an incident. -/
def after (ledger : Ledger) (before : Machine) (incident : Incident) (after : Machine) : Ledger :=
  match incident with
  | .step worker =>
      if worker = Machine.server then ledger.afterService before after
      else ledger.afterWork worker before after
  | _ => ledger

/-- The ledger of a machine without a graph. -/
def blank : Ledger := ⟨fun _ => 0, [], []⟩

end Ledger

/-- Any incident but a call that changes a connection. -/
def Incident.keepsConnections (_machine : Machine) : Incident → Bool
  | .call (.rewire _) => false
  | _ => true

/-! ## Firings of an engine -/

/-- A firing that takes and puts down tokens along the arcs of its transition in a net. -/
structure Flight.Follows (flight : Flight) (net : Circuit) : Prop where
  inputs : flight.firing.inputs = net.arcsInto flight.firing.transition
  outputs : flight.firing.outputs = net.arcsFrom flight.firing.transition

namespace Engine

variable {engine after : Engine} {graph : Graph} {transition : String} {flight : Flight}

theorem bench_eq_ok {bench : Bench} (present : engine.bench = .ok bench) :
    ∃ graph, engine.graph = some graph ∧ bench = ⟨graph, engine.board⟩ := by
  cases known : engine.graph with
  | none =>
      rw [Engine.bench, bench?, known] at present
      cases present
  | some graph =>
      rw [bench_eq known] at present
      exact ⟨graph, rfl, (Except.ok.inj present).symm⟩

/-- A firing begins only when the transition may fire, and takes its tokens. -/
theorem launch_spec (held : engine.graph = some graph)
    (launched : engine.launch ⟨graph, engine.board⟩ transition = .ok (flight, after)) :
    graph.net.isEnabled transition = true ∧ flight.firing.transition = transition ∧
      flight.Follows graph.net ∧
      after.graph =
        some { graph with net := graph.net.deduct (graph.net.arcsInto transition) } := by
  rw [launch, Circuit.launch, Net.begin] at launched
  cases blocked : graph.net.blocked? transition with
  | some reason =>
      rw [blocked] at launched
      cases launched
  | none =>
      have enabled : graph.net.isEnabled transition = true := by rw [Net.isEnabled, blocked]; rfl
      rw [blocked] at launched
      cases found : graph.net.transitions.get? transition with
      | none =>
          rw [found] at launched
          cases launched
      | some action =>
          rw [found] at launched
          cases launched
          exact ⟨enabled, rfl, ⟨rfl, rfl⟩, graph_withCircuit held _ _⟩

/-- A firing ends with its tokens put down when it succeeds, and with them given back when not. -/
theorem land_spec (held : engine.graph = some graph) (flight : Flight) :
    (∃ value, (engine.land flight).1 = .ok value ∧ (engine.land flight).2.graph =
        some { graph with net := graph.net.commit flight.firing }) ∨
      ∃ failure, (engine.land flight).1 = .error failure ∧ (engine.land flight).2.graph =
        some { graph with net := graph.net.rollback flight.firing } := by
  simp only [land, bench_eq held, Circuit.land]
  rcases flight.job.finish engine.board with ⟨message | value, board⟩
  · exact .inr ⟨_, rfl, graph_withCircuit held _ _⟩
  · exact .inl ⟨value, rfl, graph_withCircuit held _ _⟩

/-- Setting the value of a place leaves the graph as it is. -/
theorem graph_setPlace (held : engine.graph = some graph) (place : String) (value : Value) :
    (engine.setPlace place value).2.graph = some graph := by
  simp only [setPlace, bench_eq held, Bench.setPlace]
  rw [withBench]
  split
  · rfl
  · split <;> rfl

/-- An event puts down a token when its place collects events, and nothing otherwise. -/
theorem noteEvent_spec (held : engine.graph = some graph) (visual : graph.mode = .visual)
    (place : String) :
    (∃ value, (engine.noteEvent place).1 = .ok value ∧ (engine.noteEvent place).2.graph =
        some { graph with net := graph.net.modifyTokens place (· + 1) }) ∨
      ∃ failure, (engine.noteEvent place).1 = .error failure ∧
        (engine.noteEvent place).2.graph = some graph := by
  simp only [noteEvent, bench_eq held, Bench.noteEvent, Bench.recordEvent]
  cases graph.net.collectsEvents place with
  | false => exact .inr ⟨_, rfl, rfl⟩
  | true =>
      cases mode : graph.mode with
      | visual => exact .inl ⟨_, rfl, rfl⟩
      | function =>
          rw [mode] at visual
          cases visual

end Engine

namespace Machine

/-! ## The ledger while requests are served -/

/-- A ledger balances while some firing, or none, is under way, which has the graph gate for
itself. -/
structure Tallies (ledger : Ledger) (machine : Machine) (flight : Option Flight) : Prop where
  balances : ∀ graph, machine.engine.graph = some graph →
    ledger.Balances graph.net (flight.toList.map fun flight => flight.firing.transition)
  gate : flight ≠ none → machine.graphGate.holder? = some server
  follows : ∀ flown, flight = some flown → ∀ graph, machine.engine.graph = some graph →
    flown.Follows graph.net

/-- A firing that begins between two machines takes no tokens that are not there. -/
def Affords (before after : Machine) (flight : Flight) : Prop :=
  ∃ graph left, before.engine.graph = some graph ∧ after.engine.graph = some left ∧
    ∀ place, graph.net.weight place flight.firing.transition ≤ graph.net.tokens place ∧
      left.net.tokens place =
        graph.net.tokens place - graph.net.weight place flight.firing.transition

/-- How a step of a task keeps the ledger. -/
structure Carries (ledger : Ledger) (machine : Machine) (progress : Progress)
    (moved : Progress × Machine) : Prop where
  tracked : ∀ graph, moved.2.engine.graph = some graph → graph.Tracked
  tallies : Tallies (ledger.serve progress moved.1) moved.2 moved.1.flight?
  affords : progress.flight? = none → ∀ flight, moved.1.flight? = some flight →
    Affords machine moved.2 flight

variable {machine : Machine} {ledger : Ledger} {progress next : Progress}

/-- Steps of a task at which the graph stays as it is and no firing is under way. -/
theorem carries_of_same {after : Machine} (graph : after.engine.graph = machine.engine.graph)
    (tracked : ∀ graph, machine.engine.graph = some graph → graph.Tracked)
    (tallies : Tallies ledger machine none) (unserved : ledger.serve progress next = ledger)
    (grounded : next.flight? = none) : Carries ledger machine progress (next, after) where
  tracked := fun kept held => tracked kept (graph ▸ held)
  tallies := by
    rw [unserved, grounded]
    exact ⟨fun kept held => tallies.balances kept (graph ▸ held), fun flying => absurd rfl flying,
      fun _ flies => nomatch flies⟩
  affords := fun _ flight flies => by
    rw [grounded] at flies
    cases flies

/-- Steps of a task that leave no firing under way and tokens for which the ledger balances. -/
theorem carries_of_net {after : Machine} {graph : Graph} {net : Circuit}
    (tracked : graph.Tracked)
    (left : after.engine.graph = some { graph with net := net })
    (same : net.bare = graph.net.bare) (balances : (ledger.serve progress next).Balances net [])
    (grounded : next.flight? = none) : Carries ledger machine progress (next, after) where
  tracked := fun kept held => by
    obtain rfl := Option.some.inj (left.symm.trans held)
    exact tracked.of_bare same
  tallies := by
    rw [grounded]
    refine ⟨fun kept held => ?_, fun flying => absurd rfl flying, fun _ flies => nomatch flies⟩
    obtain rfl := Option.some.inj (left.symm.trans held)
    exact balances
  affords := fun _ flight flies => by
    rw [grounded] at flies
    cases flies

section

variable {task : Task} (tracked : ∀ graph, machine.engine.graph = some graph → graph.Tracked)
  (tallies : Tallies ledger machine none)

include tracked tallies

/-- A task that begins to fire leaves no trace in the ledger as yet. -/
theorem carries_of_launch (holds : (machine.graphGate.claim server).holder? = some server)
    {graph : Graph} (known : machine.engine.graph = some graph) {transition : String}
    {flight : Flight} {engine : Engine}
    (launched : machine.engine.launch ⟨graph, machine.engine.board⟩ transition =
      .ok (flight, engine)) (wake : Nat) (answer : Option Value) :
    Carries ledger machine (.fresh task) (.firing flight wake answer,
      { machine with engine := engine, graphGate := machine.graphGate.claim server }) := by
  obtain ⟨enabled, rfl, follows, taken⟩ := Engine.launch_spec known launched
  have same := graph.net.bare_deduct (graph.net.arcsInto flight.firing.transition)
  have indexed := (tracked graph known).indexed
  have unserved : ledger.serve (.fresh task) (.firing flight wake answer) = ledger := by
    cases task <;> rfl
  refine ⟨fun kept left => ?_, ⟨fun kept left => ?_, fun _ => holds, ?_⟩, ?_⟩
  · obtain rfl := Option.some.inj (taken.symm.trans left)
    exact (tracked graph known).of_bare same
  · obtain rfl := Option.some.inj (taken.symm.trans left)
    rw [unserved]
    exact (tallies.balances graph known).begin indexed enabled
  · rintro _ ⟨⟩ kept left
    obtain rfl := Option.some.inj (taken.symm.trans left)
    exact ⟨by rw [Net.arcsInto_of_bare same]; exact follows.inputs,
      by rw [Net.arcsFrom_of_bare same]; exact follows.outputs⟩
  · rintro - _ ⟨⟩
    exact ⟨graph, _, known, taken, fun place => ⟨indexed.weight_le_tokens enabled place,
      indexed.tokens_deduct _ place⟩⟩

/-- A task that fires nothing leaves no trace in the ledger, unless it notes an event. -/
theorem carries_of_works {engine : Engine}
    (works : task.Works machine.engine machine.clock next engine) (gate : Gate) :
    Carries ledger machine (.fresh task)
      (next, { machine with engine := engine, graphGate := gate }) := by
  cases works with
  | unbuilt | grounded => exact carries_of_same rfl tracked tallies (by cases task <;> rfl) rfl
  | sets known =>
      exact carries_of_same ((Engine.graph_setPlace known ..).trans known.symm) tracked tallies rfl rfl
  | @notes place graph known =>
      rcases Engine.noteEvent_spec known (tracked graph known).visual place with
        ⟨value, noted, left⟩ | ⟨failure, refused, left⟩
      · rw [noted]
        exact carries_of_net (tracked graph known) left (graph.net.bare_modifyTokens ..)
          ((tallies.balances graph known).note place) rfl
      · rw [refused]
        exact carries_of_same (left.trans known.symm) tracked tallies rfl rfl
  | _ => exact carries_of_same rfl tracked tallies rfl rfl

end

/-- A firing that succeeds is entered in the ledger, and one that fails leaves no trace in it. -/
theorem carries_of_landing (tracked : ∀ graph, machine.engine.graph = some graph → graph.Tracked)
    {flight : Flight} (tallies : Tallies ledger machine (some flight)) (wake : Nat)
    (answer : Option Value) :
    Carries ledger machine (.firing flight wake answer)
      (.ended ((machine.engine.land flight).1.map answer.getD),
        { machine with engine := (machine.engine.land flight).2 }.leaveGraph server) := by
  cases known : machine.engine.graph with
  | none =>
      have lost : machine.engine.land flight = (.error .notBuilt, machine.engine) := by
        rw [Engine.land, Engine.bench, Engine.bench?, known]
        rfl
      rw [lost]
      refine ⟨tracked, ⟨fun graph held => ?_, fun flying => absurd rfl flying,
        fun _ flies => by cases flies⟩, fun _ _ flies => by cases flies⟩
      cases known.symm.trans held
  | some graph =>
      have indexed := (tracked graph known).indexed
      have balances := tallies.balances graph known
      obtain ⟨inputs, outputs⟩ := tallies.follows flight rfl graph known
      rcases Engine.land_spec known flight with ⟨value, landed, left⟩ | ⟨failure, failed, left⟩
      · rw [Net.commit, outputs] at left
        rw [landed]
        exact carries_of_net (tracked graph known) left (Net.bare_credit ..)
          (balances.commit indexed) rfl
      · rw [Net.rollback, inputs] at left
        rw [failed]
        exact carries_of_net (tracked graph known) left (Net.bare_refund ..)
          (balances.rollback indexed) rfl

/-- A request that is given up leaves no trace in the ledger; its firing is taken back. -/
theorem carries_giveUp (tracked : ∀ graph, machine.engine.graph = some graph → graph.Tracked)
    {service : Service Progress} (tallies : Tallies ledger machine service.progress.flight?) :
    Carries ledger machine service.progress (machine.giveUp service) := by
  obtain ⟨ticket, label, deadline, progress⟩ := service
  cases progress with
  | firing flight wake answer =>
      cases known : machine.engine.graph with
      | none =>
          simp only [giveUp, Engine.callOff, known]
          refine ⟨tracked, ⟨fun graph held => ?_, fun flying => absurd rfl flying,
            fun _ flies => by cases flies⟩, fun _ _ flies => by cases flies⟩
          cases known.symm.trans held
      | some graph =>
          have balances := tallies.balances graph known
          obtain ⟨inputs, -⟩ := tallies.follows flight rfl graph known
          simp only [giveUp, Engine.callOff, known, Circuit.callOff, Net.rollback]
          rw [inputs]
          exact carries_of_net (tracked graph known) (Engine.graph_withCircuit known _ _)
            (Net.bare_refund ..) (balances.rollback (tracked graph known).indexed) rfl
  | fresh task => exact carries_of_same rfl tracked tallies (by cases task <;> rfl) rfl
  | _ => exact carries_of_same rfl tracked tallies rfl rfl

/-- One step of a task keeps the ledger. -/
theorem carries_of_advances (tracked : ∀ graph, machine.engine.graph = some graph → graph.Tracked)
    (tallies : Tallies ledger machine progress.flight?) {after : Machine}
    (advances : progress.Advances machine next after) :
    Carries ledger machine progress (next, after) := by
  cases advances with
  | @queues task => exact carries_of_same rfl tracked tallies (by cases task <;> rfl) rfl
  | launches holds known _ launched => exact carries_of_launch tracked tallies holds known launched ..
  | works _ works => exact carries_of_works tracked tallies works _
  | lands => exact carries_of_landing tracked tallies ..
  | _ => exact carries_of_same rfl tracked tallies rfl rfl

/-! ## The ledger of a machine -/

/-- A machine on which no connection is changed, whose ledger balances. -/
structure Accounted (machine : Machine) (ledger : Ledger) : Prop where
  visual : machine.engine.config.mode = .visual
  tracked : ∀ graph, machine.engine.graph = some graph → graph.Tracked
  calm : ∀ number stage, machine.workers.get? number = some (.caller stage) → stage.Tracked
  tallies : Tallies ledger machine machine.flight?

variable {after : Machine} {worker : Nat}

/-- After a turn of the scheduler no firing is under way. -/
theorem flight?_of_turn {scheduler : Scheduler Task Progress} {now : Nat}
    (turned : machine.scheduler.turn Progress.fresh now = some scheduler) :
    ({ machine with scheduler := scheduler } : Machine).flight? = none := by
  rw [flight?, progress?]
  unfold Scheduler.turn at turned
  split at turned
  · cases turned
  · next free =>
      split at turned
      · cases turned
        have idle : machine.scheduler.service = none := by
          cases served : machine.scheduler.service <;> simp_all
        rw [Scheduler.stop, idle]
        rfl
      · split at turned
        · cases turned
        · cases turned
          rfl

/-- What is known of a task that was carried on is known of the machine. -/
theorem Carries.accounted {service : Service Progress} {moved : Progress × Machine}
    (accounted : machine.Accounted ledger) (served : machine.scheduler.service = some service)
    (serves : Serves machine moved.2) (carries : Carries ledger machine service.progress moved) :
    (proceed moved).Accounted (ledger.afterService machine (proceed moved)) ∧
      (machine.flight? = none → ∀ flight, (proceed moved).flight? = some flight →
        Affords machine (proceed moved) flight) := by
  have before : machine.progress? = some service.progress := by rw [progress?, served]; rfl
  have now : (proceed moved).progress? = some moved.1 := by
    rw [progress?, proceed, Scheduler.proceed, serves.scheduler, served]
    rfl
  have flying : (proceed moved).flight? = moved.1.flight? := by rw [flight?, now]; rfl
  refine ⟨⟨serves.config ▸ accounted.visual, carries.tracked, ?_, ?_⟩, ?_⟩
  · exact fun number stage found => accounted.calm number stage (serves.workers ▸ found)
  · rw [Ledger.afterService, before, now, flying]
    exact ⟨carries.tallies.balances, carries.tallies.gate, carries.tallies.follows⟩
  · rw [flying]
    intro grounded
    refine carries.affords ?_
    rw [flight?, before] at grounded
    exact grounded

/-- A step of worker zero keeps the ledger and begins only firings that can be afforded. -/
theorem Accounted.serve (accounted : machine.Accounted ledger)
    (stepped : machine.stepServer = some after) :
    after.Accounted (ledger.afterService machine after) ∧
      (machine.flight? = none → ∀ flight, after.flight? = some flight →
        Affords machine after flight) := by
  have serving : ∀ {service : Service Progress}, machine.scheduler.service = some service →
      machine.progress? = some service.progress ∧
        Tallies ledger machine service.progress.flight? := by
    intro service served
    have before : machine.progress? = some service.progress := by rw [progress?, served]; rfl
    have tallies := accounted.tallies
    rw [flight?, before] at tallies
    exact ⟨before, tallies⟩
  cases tends_stepServer stepped with
  | turns free turned =>
      have idle : machine.progress? = none := by rw [progress?, free]; rfl
      have grounded := flight?_of_turn turned
      have tallies := accounted.tallies
      rw [flight?, idle] at tallies
      refine ⟨⟨accounted.visual, accounted.tracked, accounted.calm, ?_⟩, ?_⟩
      · rw [Ledger.afterService, idle, grounded]
        exact ⟨tallies.balances, tallies.gate, tallies.follows⟩
      · rw [grounded]
        rintro - _ ⟨⟩
  | @answers service result served ended =>
      obtain ⟨before, tallies⟩ := serving served
      obtain ⟨free, -⟩ := Scheduler.conclude_spec served result
      have idle : ({ machine with scheduler := machine.scheduler.conclude result } :
          Machine).progress? = none := by
        rw [progress?, free]
        rfl
      rw [ended] at tallies
      refine ⟨⟨accounted.visual, accounted.tracked, accounted.calm, ?_⟩, ?_⟩
      · rw [Ledger.afterService, before, idle, flight?, idle]
        exact ⟨tallies.balances, tallies.gate, tallies.follows⟩
      · rw [flight?, flight?, idle]
        rintro - _ ⟨⟩
  | works served _ worked =>
      have advances := advances_workOn worked
      exact (carries_of_advances accounted.tracked (serving served).2 advances).accounted accounted
        served advances.serves
  | givesUp served =>
      exact (carries_giveUp accounted.tracked (serving served).2).accounted accounted served
        (serves_giveUp machine _)

/-- A step of another worker keeps the ledger, or opens it anew, and begins no firing. -/
theorem Accounted.work (accounted : machine.Accounted ledger) (other : worker ≠ server)
    (stepped : machine.step worker = some after) :
    after.Accounted (ledger.afterWork worker machine after) ∧ after.flight? = machine.flight? := by
  obtain ⟨held, next, middle, found, rfl, deals, calm⟩ := deals_step accounted.visual
    accounted.tracked accounted.calm other stepped
  have flying : (middle.setWorker worker next).flight? = machine.flight? := by
    rw [flight?, flight?, progress?, progress?, ← deals.service]
    rfl
  have here : (middle.setWorker worker next).workers.get? worker = some next := by
    rw [get?_setWorker, if_pos rfl]
  have callers : ∀ number stage, (middle.setWorker worker next).workers.get? number =
      some (.caller stage) → stage.Tracked := by
    intro number stage known
    rw [get?_setWorker] at known
    split at known
    · exact calm stage (Option.some.inj known)
    · exact accounted.calm number stage (deals.callers number stage known)
  have visual : (middle.setWorker worker next).engine.config.mode = .visual := by
    change middle.engine.config.mode = .visual
    rw [deals.config]
    exact accounted.visual
  have barred : machine.flight? ≠ none →
      (middle.setWorker worker next).graphGate.holder? = some server := fun flies =>
    deals.gate server (Ne.symm other) (accounted.tallies.gate flies)
  have grounded : (∀ holder, machine.graphGate.holder? = some holder → holder = worker) →
      machine.flight? = none := by
    intro alone
    by_contra flies
    exact other (alone server (accounted.tallies.gate flies)).symm
  refine ⟨?_, flying⟩
  rw [Ledger.afterWork, found, here]
  cases left : (middle.setWorker worker next).engine.graph with
  | none =>
      refine ⟨visual, fun graph held => ?_, callers, ?_⟩
      · cases left.symm.trans held
      · rw [flying]
        refine ⟨fun graph held => ?_, barred, fun _ _ graph held => ?_⟩
        · cases left.symm.trans held
        · cases left.symm.trans held
  | some graph =>
      dsimp only
      generalize held.restarts next = restarts at deals
      cases deals.turnover with
      | none same =>
          have present : machine.engine.graph = some graph := same.symm.trans left
          refine ⟨visual, fun kept now => ?_, callers, ?_⟩
          · exact accounted.tracked kept (same.symm.trans now)
          · rw [flying]
            exact ⟨fun kept now => accounted.tallies.balances kept (same.symm.trans now), barred,
              fun flown flies kept now => accounted.tallies.follows flown flies kept
                (same.symm.trans now)⟩
      | restart alone restarted tracked =>
          refine ⟨visual, fun kept now => ?_, callers, ?_⟩
          · cases restarted.symm.trans now
            exact tracked
          · rw [flying, grounded alone]
            refine ⟨fun kept now => ?_, fun flies => absurd rfl flies, fun _ flies => by cases flies⟩
            cases left.symm.trans now
            exact Ledger.balances_opened _
      | gone alone lost => cases left.symm.trans lost

/-- What happens beside the graph and the requests does not touch the ledger. -/
theorem Accounted.frame (accounted : machine.Accounted ledger)
    (config : after.engine.config = machine.engine.config)
    (graph : after.engine.graph = machine.engine.graph)
    (scheduler : after.scheduler = machine.scheduler)
    (gate : after.graphGate = machine.graphGate)
    (calm : ∀ number stage, after.workers.get? number = some (.caller stage) → stage.Tracked) :
    after.Accounted ledger where
  visual := config ▸ accounted.visual
  tracked := fun kept held => accounted.tracked kept (graph ▸ held)
  calm := calm
  tallies := by
    rw [flight?, progress?, scheduler]
    exact ⟨fun kept held => accounted.tallies.balances kept (graph ▸ held),
      fun flies => gate ▸ accounted.tallies.gate flies,
      fun flown flies kept held => accounted.tallies.follows flown flies kept (graph ▸ held)⟩

theorem Accounted.aside (accounted : machine.Accounted ledger) (aside : Aside machine after) :
    after.Accounted ledger := by
  obtain ⟨engine, scheduler, gate, callers⟩ := aside
  exact accounted.frame (by rw [engine]) (by rw [engine]) scheduler gate
    fun number stage found => accounted.calm number stage (callers number stage found)

/-- The ledger is kept through every incident but a change of a connection. -/
theorem Accounted.undergo (accounted : machine.Accounted ledger) {incident : Incident}
    (allowed : Incident.keepsConnections machine incident = true)
    (happened : machine.undergo incident = some after) :
    after.Accounted (ledger.after machine incident after) := by
  cases incident with
  | call call =>
      cases happened
      refine accounted.frame rfl rfl rfl rfl fun number stage found => ?_
      have set : (machine.setWorker machine.nextWorker (.caller (.fresh call))).workers.get? number =
          some (.caller stage) := found
      rw [get?_setWorker] at set
      split at set
      · cases set
        cases call with
        | rewire change => cases allowed
        | _ => trivial
      · exact accounted.calm number stage set
  | tick interval inputs =>
      cases happened
      exact accounted.aside (aside_startTicker machine interval inputs)
  | halt =>
      cases happened
      exact accounted.aside (aside_stopTicker machine)
  | wait time =>
      rw [Machine.undergo] at happened
      split at happened
      · cases happened
        exact accounted.frame rfl rfl rfl rfl accounted.calm
      · cases happened
  | board change =>
      cases happened
      exact accounted.frame rfl rfl rfl rfl accounted.calm
  | step worker =>
      rw [Ledger.after]
      split
      · next zero =>
          subst zero
          exact (accounted.serve happened).1
      · next other => exact (accounted.work other happened).1

/-- A machine without a graph has nothing to account for. -/
theorem accounted_idle {config : EngineConfig} (visual : config.mode = .visual) (board : Board) :
    (idle config board).Accounted .blank where
  visual := visual
  tracked := fun _ held => nomatch held
  calm := by simp [idle]
  tallies :=
    ⟨fun _ held => (nomatch held), fun flies => absurd rfl flies, fun _ flies => nomatch flies⟩

/-- Whatever calls but changes of connections come in to a machine that runs graphs by firings, and
in whatever order events are delivered, time passes and workers take their steps: whenever no firing
is under way every place holds what it held at the last new start, with the events that were noted
on it since, what the firings that succeeded since have put down, and without what they have taken.
And a firing only ever takes from a place what is there. -/
theorem tokens_conserved {config : EngineConfig} (visual : config.mode = .visual) {board : Board}
    {machine : Machine} {ledger : Ledger}
    (unfolds : Unfolds Incident.keepsConnections Ledger.after (idle config board) .blank machine
      ledger) :
    (∀ graph, machine.engine.graph = some graph → machine.flight? = none →
      ∀ place ∈ graph.net.places.names,
        graph.net.tokens place + (ledger.fired.map (graph.net.weight place)).sum =
          ledger.base place + ledger.events.count place +
            (ledger.fired.map (graph.net.weight · place)).sum) ∧
    ∀ worker after flight, machine.step worker = some after → machine.flight? = none →
      after.flight? = some flight → Affords machine after flight := by
  have accounted : machine.Accounted ledger := unfolds.induct (accounted_idle visual board)
    fun _ _ _ _ known allowed happened => known.undergo allowed happened
  refine ⟨fun graph held grounded => ?_, fun worker after flight stepped grounded flies => ?_⟩
  · have balances := accounted.tallies.balances graph held
    rw [grounded] at balances
    exact balances
  · by_cases zero : worker = server
    · subst zero
      exact (accounted.serve stepped).2 grounded flight flies
    · have still := (accounted.work zero stepped).2
      rw [grounded, flies] at still
      cases still

end Machine

namespace SlowLamp

def anchor (id : String) (kind : AnchorKind) : AnchorDesign := ⟨id, kind, none, none, false⟩

def design (id : String) (anchors : List AnchorDesign) (delay : Nat) : CardDesign where
  id := id
  title := "card"
  anchors := anchors
  delay := delay
  work := .function fun arguments => .ok arguments
  runtime := none

/-- A bell, and a lamp that takes longer than a task may. -/
def seated : List Card × Board :=
  Board.empty.seatAll [design "bell" [anchor "ring" .event] 0,
    design "lamp" [anchor "on" .input, anchor "out" .output] 20]

def settings : EngineConfig := EngineConfig.standard.withTaskTimeout (some 10)

/-- The bell rings. -/
def ring (board : Board) : Board :=
  (seated.1.flatMap (Card.anchorsOf · .event)).foldl (fun board anchor => board.emit anchor .null)
    board

/-- A graph is built by caller one, the bell rings, and courier two runs the graph up to the firing
of the lamp. -/
def lighting : List Incident :=
  .call (.build ⟨"bell", [⟨⟨"bell", "ring"⟩, ⟨"lamp", "on"⟩⟩]⟩ seated.1 none) ::
    List.replicate 6 (.step 1) ++ .board ring ::
      ([2, 2, 0, 0, 0, 2, 2, 2] ++ (List.replicate 3 [2, 2, 0, 0, 0, 0]).flatten ++ [2, 2, 0]).map
        .step

/-- The firing takes too long, while caller three asks for the same one. -/
def late : List Incident :=
  lighting ++ [.step 0, .call (.executeNode "internal_transition_lamp_card" ∅), .step 3, .step 3,
    .wait 10, .step 0, .step 3, .step 3, .step 0, .step 0, .step 0, .wait 40, .step 0]

end SlowLamp

namespace Machine

/-- The lamp fires once in the end, and once before it is taken back; then the token for it is
there. -/
theorem tokens_conserved_lamp :
    (∃ machine ledger graph, Unfolds Incident.keepsConnections Ledger.after
        (idle SlowLamp.settings SlowLamp.seated.2) .blank machine ledger ∧
      machine.engine.graph = some graph ∧ machine.flight? = none ∧
      ledger.fired = ["internal_transition_lamp_card", "internal_transition_bell_card",
        "transfer_bell-ring_to_lamp-on", "event_transition_bell_ring"] ∧
      ∀ place ∈ graph.net.places.names,
        graph.net.tokens place + (ledger.fired.map (graph.net.weight place)).sum =
          ledger.base place + ledger.events.count place +
            (ledger.fired.map (graph.net.weight · place)).sum) ∧
    ∃ machine ledger after flight, Unfolds Incident.keepsConnections Ledger.after
        (idle SlowLamp.settings SlowLamp.seated.2) .blank machine ledger ∧
      machine.step server = some after ∧ machine.flight? = none ∧ after.flight? = some flight ∧
      Affords machine after flight := by
  constructor
  · have ran : (unfold Incident.keepsConnections Ledger.after
        (idle SlowLamp.settings SlowLamp.seated.2) .blank SlowLamp.late).any (fun last =>
          last.1.engine.graph.isSome && last.1.flight?.isNone &&
            last.2.fired == ["internal_transition_lamp_card", "internal_transition_bell_card",
              "transfer_bell-ring_to_lamp-on", "event_transition_bell_ring"]) = true := by
      decide +kernel
    obtain ⟨last, happened, shape⟩ := (Option.any_eq_true _ _).mp ran
    simp only [Bool.and_eq_true, beq_iff_eq, Option.isNone_iff_eq_none,
      Option.isSome_iff_exists] at shape
    obtain ⟨⟨⟨graph, held⟩, grounded⟩, fired⟩ := shape
    have unfolds := Unfolds.start.extend happened
    exact ⟨last.1, last.2, graph, unfolds, held, grounded, fired,
      (tokens_conserved rfl unfolds).1 graph held grounded⟩
  · have ran : (unfold Incident.keepsConnections Ledger.after
        (idle SlowLamp.settings SlowLamp.seated.2) .blank SlowLamp.lighting).any (fun last =>
          last.1.flight?.isNone && (last.1.step server).any fun after => after.flight?.isSome) =
            true := by
      decide +kernel
    obtain ⟨last, happened, shape⟩ := (Option.any_eq_true _ _).mp ran
    simp only [Bool.and_eq_true, Option.any_eq_true, Option.isNone_iff_eq_none,
      Option.isSome_iff_exists] at shape
    obtain ⟨grounded, after, stepped, flight, flies⟩ := shape
    have unfolds := Unfolds.start.extend happened
    exact ⟨last.1, last.2, after, flight, unfolds, stepped, grounded, flies,
      (tokens_conserved rfl unfolds).2 server after flight stepped grounded flies⟩

end Machine

end CardNet
