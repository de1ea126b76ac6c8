import CardNet.Proofs.Engine.Advances
import CardNet.Proofs.Graph.Fixtures
import CardNet.Proofs.Net.Ledger

/-!
# Turnovers

What a step of a worker other than worker zero does to the tokens of a graph: nothing, or all of
them are put to a new start when a run is opened or a graph is taken over, or they go with the
graph (`Machine.Turnover`). The new start is made inside the graph gate, so never while another
worker holds it, and no such step touches the request that is served (`Machine.Deals`).
-/

namespace CardNet

/-! ## New starts -/

/-- Whether a run has put all tokens to a new start. -/
def RunStage.restarts : RunStage → RunStage → Bool
  | .opening _ _, .listing _ _ => true
  | _, _ => false

/-- Whether a call has put all tokens to a new start: by a run, or by taking over a graph. -/
def CallStage.restarts : CallStage → CallStage → Bool
  | .running stage _, .running next _ => stage.restarts next
  | .installing _ _, .assigning _ _ => true
  | _, _ => false

/-- Whether a ticker has put all tokens to a new start. -/
def TickStage.restarts : TickStage → TickStage → Bool
  | .running stage, .running next => stage.restarts next
  | _, _ => false

/-- Whether a courier has put all tokens to a new start. -/
def CourierStage.restarts : CourierStage → CourierStage → Bool
  | .running stage, .running next => stage.restarts next
  | _, _ => false

/-- Whether a worker has put all tokens to a new start. -/
def Worker.restarts : Worker → Worker → Bool
  | .caller stage, .caller next => stage.restarts next
  | .ticker before, .ticker after => before.stage.restarts after.stage
  | .courier before, .courier after => before.stage.restarts after.stage
  | _, _ => false

/-- A graph that is run by firings, with its arcs listed rightly. -/
structure Graph.Tracked (graph : Graph) : Prop where
  visual : graph.mode = .visual
  indexed : graph.net.Indexed

/-- Tokens do not matter for whether a graph is tracked. -/
theorem Graph.Tracked.of_bare {graph : Graph} (tracked : graph.Tracked) {net : Circuit}
    (same : net.bare = graph.net.bare) : Graph.Tracked { graph with net := net } :=
  ⟨tracked.visual, tracked.indexed.of_bare same⟩

theorem Graph.tracked_of_build {config : GraphConfig} {cards : List Card}
    {globals : Option Values} {board after : Board} {graph : Graph}
    (built : Graph.build .visual config cards globals board = (.ok graph, after)) :
    graph.Tracked :=
  have built := Graph.built_of_build built
  ⟨built.2, built.1.plain.indexed⟩

/-- A call that does not change a connection, and takes over only a tracked graph. -/
def CallStage.Tracked : CallStage → Prop
  | .fresh (.rewire _) | .rewiring _ | .splicing _ => False
  | .installing graph _ => graph.Tracked
  | _ => True

namespace Machine

variable {machine after : Machine} {worker : Nat}

/-- What becomes of the tokens of a machine in a step of a worker. -/
inductive Turnover (worker : Nat) (before after : Machine) : Bool → Prop where
  | none : after.engine.graph = before.engine.graph → Turnover worker before after false
  | restart {graph : Graph} :
      (∀ holder, before.graphGate.holder? = some holder → holder = worker) →
      after.engine.graph = some graph → graph.Tracked → Turnover worker before after true
  | gone : (∀ holder, before.graphGate.holder? = some holder → holder = worker) →
      after.engine.graph = Option.none → Turnover worker before after false

/-- What a step of a worker other than worker zero does, as far as tokens are concerned. -/
structure Deals (worker : Nat) (before after : Machine) (restarts : Bool) : Prop where
  turnover : Turnover worker before after restarts
  service : after.scheduler.service = before.scheduler.service
  config : after.engine.config = before.engine.config
  gate : ∀ holder, holder ≠ worker → before.graphGate.holder? = some holder →
    after.graphGate.holder? = some holder
  callers : ∀ number stage, after.workers.get? number = some (.caller stage) →
    before.workers.get? number = some (.caller stage)

/-- A step at which the graph stays as it is. -/
theorem deals_of_same (graph : after.engine.graph = machine.engine.graph)
    (config : after.engine.config = machine.engine.config)
    (service : after.scheduler.service = machine.scheduler.service)
    (gate : ∀ holder, holder ≠ worker → machine.graphGate.holder? = some holder →
      after.graphGate.holder? = some holder)
    (callers : ∀ number stage, after.workers.get? number = some (.caller stage) →
      machine.workers.get? number = some (.caller stage)) : Deals worker machine after false :=
  ⟨.none graph, service, config, gate, callers⟩

/-- A step at which nothing but the run gate, the clock and the board changes. -/
theorem deals_of_frame (graph : after.engine.graph = machine.engine.graph)
    (config : after.engine.config = machine.engine.config)
    (service : after.scheduler.service = machine.scheduler.service)
    (gate : after.graphGate = machine.graphGate) (workers : after.workers = machine.workers) :
    Deals worker machine after false :=
  deals_of_same graph config service (fun _ _ held => gate ▸ held) fun _ _ found => workers ▸ found

/-! ## Runs -/

/-- Standing in line at the graph gate. -/
theorem deals_of_claim (machine : Machine) (worker : Nat) :
    Deals worker machine { machine with graphGate := machine.graphGate.claim worker } false :=
  deals_of_same rfl rfl rfl (fun _ _ held => Gate.holder?_claim held worker) fun _ _ found => found

/-- Work on the engine inside the graph gate, where nobody else is. -/
theorem deals_of_work {engine : Engine} {restarts : Bool}
    (holds : (machine.graphGate.claim worker).holder? = some worker)
    (turnover : Turnover worker machine { machine with
      engine := engine, graphGate := (machine.graphGate.claim worker).leave worker } restarts)
    (config : engine.config = machine.engine.config) :
    Deals worker machine { machine with
      engine := engine, graphGate := (machine.graphGate.claim worker).leave worker } restarts :=
  ⟨turnover, rfl, config,
    fun _ other held => absurd (Gate.eq_of_holder?_claim holds held) other, fun _ _ found => found⟩

/-- Sending a request. -/
theorem deals_of_send {request : Request Task} {ticket : Nat} {scheduler : Scheduler Task Progress}
    (sent : machine.scheduler.send request = .ok (ticket, scheduler)) :
    Deals worker machine { machine with scheduler := scheduler } false := by
  rw [Scheduler.send] at sent
  split at sent
  · cases sent
  · cases sent
    exact deals_of_frame rfl rfl rfl rfl rfl

end Machine

namespace RunStage

variable {machine after : Machine} {worker : Nat} {stage next : RunStage}

theorem restarts_self (stage : RunStage) : stage.restarts stage = false := by
  cases stage <;> rfl

theorem restarts_leaving (stage : RunStage) (result : Except Failure Values) :
    stage.restarts (.leaving result) = false := by
  cases stage <;> rfl

theorem restarts_over (stage : RunStage) (result : Except Failure Values) :
    stage.restarts (.over result) = false := by
  cases stage <;> rfl

section

variable (tracked : ∀ graph, machine.engine.graph = some graph → graph.Tracked)

include tracked

/-- A run is opened on tokens that are put to a new start, and otherwise leaves them alone. -/
theorem Works.deals (holds : (machine.graphGate.claim worker).holder? = some worker)
    {engine : Engine} (works : stage.Works machine.engine next engine) :
    Machine.Deals worker machine { machine with
      engine := engine, graphGate := (machine.graphGate.claim worker).leave worker }
      (stage.restarts next) := by
  cases works with
  | unbuilt =>
      rw [restarts_leaving]
      exact Machine.deals_of_work holds (.none rfl) rfl
  | @opened inputs force graph present =>
      have left : (machine.engine.opened graph inputs).graph.Tracked := by
        have same := Bench.graph_opened ⟨graph, machine.engine.board⟩
          (graph.mergeGlobals machine.engine.board inputs)
        have bare := machine.engine.bare_opened graph inputs
        rw [Engine.opened, same] at bare ⊢
        exact (tracked graph present).of_bare bare
      exact Machine.deals_of_work holds
        (.restart (fun _ => Gate.eq_of_holder?_claim holds) rfl left) rfl
  | @prepared _ _ graph present _ function =>
      cases (tracked graph present).visual.symm.trans function
  | closed =>
      rw [restarts_leaving]
      have kept : ∀ inputs results, (machine.engine.close inputs results).2.graph =
          machine.engine.graph ∧ (machine.engine.close inputs results).2.config =
            machine.engine.config := by
        intro inputs results
        rw [Engine.close]
        split <;> exact ⟨rfl, rfl⟩
      exact Machine.deals_of_work holds (.none (kept _ _).1) (kept _ _).2
  | _ => exact Machine.deals_of_work holds (.none rfl) rfl

/-- What a step of a run does to the tokens. -/
theorem Advances.deals (advances : stage.Advances worker machine next after) :
    Machine.Deals worker machine after (stage.restarts next) := by
  cases advances with
  | queues =>
      rw [restarts_self]
      exact machine.deals_of_claim worker
  | works holds works => exact works.deals tracked holds
  | sends asks sent => cases asks <;> exact Machine.deals_of_send sent
  | refused =>
      rw [restarts_leaving]
      exact Machine.deals_of_frame rfl rfl rfl rfl rfl
  | hears _ hears => cases hears <;> exact Machine.deals_of_frame rfl rfl rfl rfl rfl
  | @leaves result => cases result <;> exact Machine.deals_of_frame rfl rfl rfl rfl rfl
  | _ => exact Machine.deals_of_frame rfl rfl rfl rfl rfl

end

end RunStage

namespace Machine

variable {machine after : Machine} {worker : Nat}

/-! ## Tickers and couriers beside -/

/-- What a step does to the tokens it does no less when tickers and couriers change with it. -/
theorem Deals.aside {middle : Machine} {restarts : Bool}
    (deals : Deals worker machine middle restarts) (aside : Aside middle after) :
    Deals worker machine after restarts := by
  obtain ⟨engine, scheduler, gate, callers⟩ := aside
  refine ⟨?_, ?_, ?_, ?_, fun number stage found =>
    deals.callers number stage (callers number stage found)⟩
  · cases deals.turnover with
    | none same => exact .none (by rw [engine, same])
    | restart alone left tracked => exact .restart alone (by rw [engine, left]) tracked
    | gone alone lost => exact .gone alone (by rw [engine, lost])
  · rw [scheduler, deals.service]
  · rw [engine, deals.config]
  · rw [gate]
    exact deals.gate

theorem Aside.deals (aside : Aside machine after) (worker : Nat) :
    Deals worker machine after false :=
  (deals_of_frame rfl rfl rfl rfl rfl : Deals worker machine machine false).aside aside

end Machine

/-! ## Calls -/

namespace CallStage

variable {machine after : Machine} {worker : Nat} {stage next : CallStage}

theorem restarts_self (stage : CallStage) : stage.restarts stage = false := by
  cases stage with
  | running run restart => exact run.restarts_self
  | _ => rfl

theorem tracked_afterRun (machine : Machine) (restart : Bool) (next : RunStage) :
    (machine.afterRun restart next).1.Tracked := by
  cases next with
  | «over» result => cases result <;> trivial
  | _ => trivial

/-- A run of a call that is over has put no tokens to a new start with that. -/
theorem restarts_afterRun (machine : Machine) (stage next : RunStage) (restart : Bool) :
    restarts (.running stage restart) (machine.afterRun restart next).1 = stage.restarts next := by
  cases next with
  | «over» result =>
      rw [RunStage.restarts_over]
      cases result <;> rfl
  | _ => rfl

/-- What a step of a call does to the tokens. -/
theorem Advances.deals (tracked : ∀ graph, machine.engine.graph = some graph → graph.Tracked)
    (calm : stage.Tracked) (advances : stage.Advances worker machine next after) :
    Machine.Deals worker machine after (stage.restarts next) := by
  cases advances with
  | halts => exact machine.aside_stopTicker.deals worker
  | waits =>
      rw [restarts_self]
      exact Machine.deals_of_frame rfl rfl rfl rfl rfl
  | enters _ enters => cases enters <;> exact Machine.deals_of_frame rfl rfl rfl rfl rfl
  | queues =>
      rw [restarts_self]
      exact machine.deals_of_claim worker
  | works holds works =>
      have alone : ∀ holder, machine.graphGate.holder? = some holder → holder = worker :=
        fun _ => Gate.eq_of_holder?_claim holds
      cases works with
      | installed => exact Machine.deals_of_work holds (.restart alone rfl calm) rfl
      | spliced => exact calm.elim
      | cleared => exact Machine.deals_of_work holds (.gone alone rfl) rfl
      | _ => exact Machine.deals_of_work holds (.none rfl) rfl
  | assigns => exact (machine.aside_assign _).deals worker
  | dismisses => exact (machine.aside_dismiss _).deals worker
  | @runs run reached restart middle moves =>
      rw [restarts_afterRun]
      exact ((Machine.advances_stepRun moves).deals tracked).aside (middle.aside_afterRun ..)
  | sends sent => exact Machine.deals_of_send sent
  | closesDown => exact machine.aside_closeDown.deals worker
  | _ => exact Machine.deals_of_frame rfl rfl rfl rfl rfl

/-- A call that does not change a connection and takes over only tracked graphs goes on so. -/
theorem Advances.tracked (visual : machine.engine.config.mode = .visual) (calm : stage.Tracked)
    (advances : stage.Advances worker machine next after) : next.Tracked := by
  cases advances with
  | @begins call =>
      cases call with
      | rewire => exact calm
      | pause milliseconds => cases milliseconds <;> trivial
      | _ => trivial
  | @halts call halts =>
      cases call with
      | restart | discard => trivial
      | _ => cases halts
  | waits | queues => exact calm
  | enters _ enters =>
      cases enters with
      | built made =>
          rw [visual] at made
          exact Graph.tracked_of_build made
      | rewires => exact calm.elim
      | _ => trivial
  | works _ works => cases works <;> trivial
  | runs => exact tracked_afterRun ..
  | @leaves _ restart => cases restart <;> trivial
  | _ => trivial

end CallStage

/-! ## Tickers and couriers -/

section

variable {machine after : Machine} {worker : Nat}
  (tracked : ∀ graph, machine.engine.graph = some graph → graph.Tracked)

include tracked

theorem Ticker.Advances.deals {ticker next : Ticker}
    (advances : ticker.Advances worker machine next after) :
    Machine.Deals worker machine after (ticker.stage.restarts next.stage) := by
  cases advances with
  | ends waits =>
      rw [waits]
      exact (Machine.Aside.refl machine).deals worker
  | begins waits =>
      rw [waits]
      exact (Machine.Aside.refl machine).deals worker
  | @runs run reached _ running moves =>
      have deals := (Machine.advances_stepRun moves).deals tracked
      rw [running]
      cases reached with
      | «over» result =>
          rw [RunStage.restarts_over] at deals
          cases result <;> exact deals
      | _ => exact deals

theorem Courier.Advances.deals {courier next : Courier}
    (advances : courier.Advances worker machine next after) :
    Machine.Deals worker machine after (courier.stage.restarts next.stage) := by
  cases advances with
  | fetches fetched =>
      obtain ⟨board, rfl⟩ := Machine.board_of_fetch fetched
      exact Machine.deals_of_frame rfl rfl rfl rfl rfl
  | sends sent => exact Machine.deals_of_send sent
  | @runs channel run reached _ moves =>
      have deals := (Machine.advances_stepRun moves).deals tracked
      cases reached with
      | «over» result =>
          rw [RunStage.restarts_over] at deals
          exact deals
      | _ => exact deals
  | @withdraws channel stage =>
      have still : stage.restarts .withdrawing = false := by cases stage <;> rfl
      rw [still]
      exact Machine.deals_of_same rfl rfl rfl
        (fun _ other held => Gate.holder?_leave held (Ne.symm other)) fun _ _ found => found
  | _ => exact Machine.deals_of_frame rfl rfl rfl rfl rfl

end

/-! ## All workers -/

namespace Machine

variable {machine after : Machine} {worker : Nat}

/-- What a step of a worker other than worker zero does. -/
theorem deals_step (visual : machine.engine.config.mode = .visual)
    (tracked : ∀ graph, machine.engine.graph = some graph → graph.Tracked)
    (calm : ∀ number stage, machine.workers.get? number = some (.caller stage) → stage.Tracked)
    (other : worker ≠ server) (stepped : machine.step worker = some after) :
    ∃ held next middle, machine.workers.get? worker = some held ∧
      after = setWorker middle worker next ∧ Deals worker machine middle (held.restarts next) ∧
      ∀ stage, next = .caller stage → stage.Tracked := by
  obtain ⟨held, next, middle, found, rfl, advances⟩ := advances_step other stepped
  refine ⟨held, next, middle, found, rfl, ?_⟩
  cases advances with
  | caller advances =>
      have known := calm worker _ found
      refine ⟨advances.deals tracked known, ?_⟩
      rintro _ ⟨⟩
      exact advances.tracked visual known
  | ticker advances => exact ⟨advances.deals tracked, fun _ => Worker.noConfusion⟩
  | courier advances => exact ⟨advances.deals tracked, fun _ => Worker.noConfusion⟩

end Machine

end CardNet
