import CardNet.Proofs.Engine.Strides
import CardNet.Proofs.Graph.Postings

/-!
# Events on their way

The events of an anchor go from the anchor through the mail of a channel to the courier, which has
each of them noted on the place of the anchor and then runs the graph (`Route`). Here it is said how a
machine is watched meanwhile (`Deliveries`, `Machine.attend`), and what holds of it at all times
(`Machine.Delivers`): every event is in the mail, in the hands of the courier, about to be noted, noted
or lost; and as long as a place on the way holds tokens, a run is open or about to be opened that will
try the transition behind it.
-/

namespace CardNet

/-! ## Watching a machine -/

/-- The way of the events of an anchor through a graph. -/
structure Route where
  /-- The endpoint of the anchor. -/
  origin : Endpoint
  /-- The slot of the anchor. -/
  slot : Nat
  /-- The connections that start from the anchor. -/
  links : List Connection
  /-- The channel of the graph. -/
  channel : Nat
  /-- The worker that delivers the events of the graph. -/
  courier : Nat
  /-- The longest that the record of an event may take. -/
  limit : Option Nat

namespace Route

/-- The transitions that the events go through. -/
def own (route : Route) : List String :=
  route.origin.eventTransition :: route.links.map Connection.transfer

/-- The listener through which the events come to the graph. -/
def listener (route : Route) : Listener := ⟨route.channel, route.origin.eventPlace⟩

end Route

/-- Something that happens to a machine: an event is emitted, or anything else. -/
inductive Occasion where
  | emit (anchor : Anchor) (value : Value)
  | happen (incident : Incident)

/-- What happens to the machine. -/
def Occasion.incident : Occasion → Incident
  | emit anchor value => .board (·.emit anchor value)
  | happen incident => incident

/-- Whether an occasion leaves the board alone but for events that are emitted, and is no call that
builds or edits the graph or executes one of some transitions. -/
def Occasion.spares (own : List String) : Occasion → Bool
  | emit _ _ => true
  | happen (.call call) => call.isAside own
  | happen (.board _) => false
  | happen _ => true

/-- What has become of the events of an anchor. -/
structure Deliveries where
  /-- How many were emitted. -/
  emits : Nat
  /-- What was noted and what has fired. -/
  ledger : Ledger
  /-- How many were not noted, as their request failed. -/
  lost : Nat
  /-- Whether a run has failed. -/
  failed : Bool

namespace Deliveries

/-- Nothing has happened yet. -/
def blank : Deliveries := ⟨0, .blank, 0, false⟩

/-- How many events have been noted on a place. -/
def noted (seen : Deliveries) (place : String) : Nat := seen.ledger.events.count place

/-- How often a transition has fired. -/
def fired (seen : Deliveries) (transition : String) : Nat := seen.ledger.fired.count transition

/-- Whether a request to note an event on a place has failed in a step of its service. -/
def misses (place : String) : Progress → Progress → Bool
  | .fresh (.event noted), .ended (.error _) => noted = place
  | _, _ => false

/-- What is seen of a step of worker zero. -/
def afterService (seen : Deliveries) (place : String) (before after : Machine) : Deliveries :=
  match before.progress?, after.progress? with
  | some progress, some next =>
      { seen with
        ledger := seen.ledger.serve progress next
        lost := seen.lost + (misses place progress next).toNat }
  | _, _ => seen

/-- What is seen of a step of another worker. -/
def afterWork (seen : Deliveries) (worker : Nat) (after : Machine) : Deliveries :=
  { seen with failed := seen.failed || (after.stage? worker).any RunStage.hasFailed }

/-- What is seen of an occasion. -/
def after (seen : Deliveries) (route : Route) (before : Machine) (occasion : Occasion)
    (after : Machine) : Deliveries :=
  match occasion with
  | .emit anchor _ => if anchor.slot = route.slot then { seen with emits := seen.emits + 1 } else seen
  | .happen (.step worker) =>
      if worker = Machine.server then seen.afterService route.origin.eventPlace before after
      else seen.afterWork worker after
  | .happen _ => seen

end Deliveries

/-- What becomes of a machine and of the events of an anchor by occasions in order; nothing when one
of them concerns the way of the events or cannot happen. -/
def Machine.attend (route : Route) : Machine → Deliveries → List Occasion →
    Option (Machine × Deliveries)
  | machine, seen, [] => some (machine, seen)
  | machine, seen, occasion :: rest =>
      if occasion.spares route.own then
        (machine.undergo occasion.incident).bind fun after =>
          attend route after (seen.after route machine occasion after) rest
      else none

/-! ## Schedulers -/

/-- Whether a task notes an event on a place. -/
def Task.notes (place : String) : Task → Bool
  | event noted => noted = place
  | _ => false

/-- Whether a task that is served is yet to note an event on a place. -/
def Progress.notes (place : String) : Progress → Bool
  | fresh task => task.notes place
  | _ => false

/-- A task that is served tries to fire a transition, for whoever waits for it. -/
def Progress.Tries (transition : String) (progress : Progress) : Prop :=
  progress = .fresh (.fire transition) ∨ ∃ flight wake,
    progress = .firing flight wake (some (.bool true)) ∧ flight.firing.transition = transition

/-- The result of a request to fire that the transition has not refused. -/
def Bearing (result : Except Failure Value) : Prop := ∀ value, result = .ok value → value = .bool true

namespace Scheduler

/-- A scheduler of the tasks of a machine. -/
abbrev OfTasks := Scheduler Task Progress

/-- How many requests have yet to note an event on a place. -/
def notes (scheduler : OfTasks) (place : String) : Nat :=
  scheduler.requests.countP (·.2.task.notes place) +
    scheduler.service.toList.countP (·.progress.notes place)

/-- A request has come to a result, of which its sender may not have heard. -/
def Ends (scheduler : OfTasks) (ticket : Nat) (result : Except Failure Value) : Prop :=
  scheduler.result? ticket = some result ∨
    ∃ service, scheduler.service = some service ∧ service.ticket = ticket ∧
      service.progress = .ended result

/-- A request tries to fire a transition. -/
def Tries (scheduler : OfTasks) (ticket : Nat) (transition : String) : Prop :=
  (∃ request, (ticket, request) ∈ scheduler.requests ∧ request.task = .fire transition) ∨
    ∃ service, scheduler.service = some service ∧ service.ticket = ticket ∧
      service.progress.Tries transition

/-- A request to fire has had a result other than that the transition may not fire. -/
def Bears (scheduler : OfTasks) (ticket : Nat) : Prop :=
  ∃ result, scheduler.Ends ticket result ∧ Bearing result

end Scheduler

/-! ## What is to come -/

/-- A run will try a transition before it is closed. What is `lasting` in front of the transition
stays when a run is opened. -/
def RunStage.Promises (scheduler : Scheduler.OfTasks) (lasting : Bool) (transition : String) :
    RunStage → Prop
  | opening _ force => lasting = true ∧ force = true
  | listing _ _ => True
  | passing _ _ progressed rest => progressed = true ∨ transition ∈ rest
  | firing _ _ progressed rest ticket => progressed = true ∨ transition ∈ rest ∨
      scheduler.Tries ticket transition ∨ scheduler.Bears ticket
  | _ => False

/-- A courier will open a run. -/
def CourierStage.Promises (scheduler : Scheduler.OfTasks) : CourierStage → Prop
  | recording ticket => ∃ value, scheduler.Ends ticket (.ok value)
  | running (.arriving _ force) => force = true
  | _ => False

/-- The courier that a worker is. -/
def Worker.courier? : Worker → Option Courier
  | courier held => some held
  | _ => none

/-- Whether a worker is a courier that is about to have an event noted on a place. -/
def Worker.carries (place : String) : Worker → Bool
  | courier ⟨_, _, .reporting other⟩ => other = place
  | _ => false

namespace Machine

/-- The courier that a worker is. -/
def courier? (machine : Machine) (number : Nat) : Option Courier :=
  (machine.workers.get? number).bind Worker.courier?

/-- A run that is open, or that the courier is about to begin, will try a transition. -/
def Promises (machine : Machine) (lasting : Bool) (transition : String) : Prop :=
  (∃ number stage, machine.stage? number = some stage ∧
      stage.Promises machine.scheduler lasting transition) ∨
    lasting = true ∧ ∃ number courier, machine.courier? number = some courier ∧
      courier.stage.Promises machine.scheduler

/-- The tokens on a place, with those that a transition has taken which is under way. -/
def load (machine : Machine) (place transition : String) : Nat :=
  ((machine.engine.graph.map fun graph => graph.net.tokens place).getD 0) +
    (machine.flight?.toList.map fun flight => flight.firing.transition).count transition

/-- Whether the courier is about to have an event of the anchor noted. -/
def carries (machine : Machine) (route : Route) : Bool :=
  (machine.workers.get? route.courier).any (Worker.carries route.origin.eventPlace)

/-- A run waits for a firing. -/
def AwaitsFiring (machine : Machine) (ticket : Nat) : Prop :=
  ∃ number inputs fired progressed rest,
    machine.stage? number = some (.firing inputs fired progressed rest ticket)

/-- Who waits for a task, and which tasks are done for nobody. -/
def Awaits (machine : Machine) (route : Route) (ticket : Nat) : Task → Prop
  | .fire _ => machine.AwaitsFiring ticket
  | .event _ => ∃ number courier, machine.courier? number = some courier ∧
      courier.stage = .recording ticket
  | .node id _ => id ∉ route.own
  | _ => True

/-- Who waits for a task that is served. -/
def AwaitsService (machine : Machine) (route : Route) (ticket : Nat) : Progress → Prop
  | .fresh task => machine.Awaits route ticket task
  | .firing flight _ answer => (answer = some (.bool true) ∧ machine.AwaitsFiring ticket) ∨
      flight.firing.transition ∉ route.own
  | _ => True

/-! ## What always holds -/

/-- Workers that leave the way of events alone. Whoever is in an open run holds the run gate, and
there is one courier. -/
structure Manned (route : Route) (machine : Machine) : Prop where
  peaceful : ∀ number held, machine.workers.get? number = some held → held.IsPeaceful route.own
  numbered : ∀ number held, machine.workers.get? number = some held → number < machine.nextWorker
  alone : ∀ number stage, machine.stage? number = some stage → stage.isOpen = true →
    machine.runGate.holder? = some number
  courier : ∀ number courier, machine.courier? number = some courier →
    number = route.courier ∧ courier.channel = route.channel

/-- Requests for which their senders wait. -/
structure Entrusted (route : Route) (machine : Machine) : Prop where
  orderly : machine.scheduler.Orderly
  waiting : ∀ entry ∈ machine.scheduler.requests, machine.Awaits route entry.1 entry.2.task
  served : ∀ service, machine.scheduler.service = some service →
    machine.AwaitsService route service.ticket service.progress

/-- As many tokens are on their way as were brought and not taken, and a run will try to take
them. -/
structure Balanced (route : Route) (machine : Machine) (seen : Deliveries) : Prop where
  accounted : ∃ ledger, machine.Accounted ledger
  origin : machine.load route.origin.eventPlace route.origin.eventTransition +
    seen.fired route.origin.eventTransition = seen.noted route.origin.eventPlace
  relay : ∀ link ∈ route.links, machine.load link.splitPlace link.transfer +
    seen.fired link.transfer = seen.fired route.origin.eventTransition

/-- As long as tokens are on their way, a run will try to take them. -/
structure Expected (route : Route) (machine : Machine) (seen : Deliveries) : Prop where
  origin : seen.fired route.origin.eventTransition < seen.noted route.origin.eventPlace →
    machine.Promises true route.origin.eventTransition
  relay : ∀ link ∈ route.links,
    seen.fired link.transfer < seen.fired route.origin.eventTransition →
      machine.Promises false link.transfer

/-- Every event that was emitted is in the mail, in the hands of the courier, about to be noted, noted
or lost, and none is lost but to the time limit. -/
structure Tracked (route : Route) (machine : Machine) (seen : Deliveries) : Prop where
  posts : ∀ slot, machine.engine.board.posts slot route.listener =
    if slot = route.slot then 1 else 0
  emits : seen.emits = machine.engine.board.letters route.listener + (machine.carries route).toNat +
    machine.scheduler.notes route.origin.eventPlace + seen.noted route.origin.eventPlace + seen.lost
  limit : machine.scheduler.limit = route.limit
  prompt : route.limit = none → seen.lost = 0 ∧
    ∀ service, machine.scheduler.service = some service → service.deadline = none

/-- A machine on which the events of an anchor are delivered. -/
structure Delivers (route : Route) (machine : Machine) (seen : Deliveries) : Prop where
  handsOn : ∃ graph, machine.engine.graph = some graph ∧
    graph.net.HandsOn route.origin route.links
  manned : machine.Manned route
  entrusted : machine.Entrusted route
  balanced : machine.Balanced route seen
  expected : machine.Expected route seen
  tracked : machine.Tracked route seen

end Machine

end CardNet
