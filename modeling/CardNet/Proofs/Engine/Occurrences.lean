import CardNet.Proofs.Engine.Incidents
import CardNet.Proofs.Engine.RenumberedSteps

/-!
# What happens to a machine, and what is seen of it

Calls come in, the ticker is started and stopped, time passes, workers take steps, and in between
something is done to cards and anchors (`Occurrence`, `Machine.meetAll`). What can be seen of a machine
(`Machine.view`) does not show any of the numbers that channels and listeners go under: machines that
differ in these alone take the same course (`Machine.Matches.meetAll`).
-/

namespace CardNet

/-- Something that is done to cards and anchors from outside. -/
inductive Deed where
  | write (anchor : Anchor) (value : Value)
  | reset (anchor : Anchor)
  | emit (anchor : Anchor) (value : Value)
  | call (card : Card) (inputs globals : Option Values)
  /-- Something else is remembered of the card at a slot. -/
  | note (slot : Nat) (change : CardRecord → CardRecord)
  | takeLog
  /-- Other globals are supplied to the present graph. -/
  | supply (globals : Values)

/-- The board after a deed. -/
def Deed.apply (graph : Option Graph) (board : Board) : Deed → Board
  | .write anchor value => board.write anchor value
  | .reset anchor => board.resetAnchor anchor
  | .emit anchor value => board.emit anchor value
  | .call card inputs globals => (card.call inputs globals board).2
  | .note slot change => board.modifyRecord slot change
  | .takeLog => board.takeLog.2
  | .supply globals =>
      match graph with
      | some graph => board.supplyGlobals graph.channel globals
      | none => board

/-- Something that happens to a machine. -/
inductive Occurrence where
  | call (call : Call)
  | tick (interval : Option Nat) (inputs : Values)
  | halt
  | wait (time : Nat)
  | step (worker : Nat)
  | deed (deed : Deed)

/-- What happens to a machine with a graph. -/
def Occurrence.incident (graph : Option Graph) : Occurrence → Incident
  | .call asked => .call asked
  | .tick interval inputs => .tick interval inputs
  | .halt => .halt
  | .wait time => .wait time
  | .step worker => .step worker
  | .deed done => .board fun board => done.apply graph board

/-- What can be seen of a graph. -/
structure GraphView where
  mode : Mode
  /-- The circuit, but for what its transitions do. -/
  net : Net Content Unit
  cards : List Card
  connections : Registry Connection
  /-- The nodes of the plan of each entry place. -/
  paths : Registry (List String)
  /-- The nodes of the plan of all entry places. -/
  plan : Option (List String)
  warnings : List Warning
  /-- The event places whose anchors the graph listens to. -/
  subscribed : List String

/-- What can be seen of a machine. -/
structure View where
  /-- The answers that callers got. -/
  answers : Nat → Option (Except Failure Answer)
  graph : Option GraphView
  records : Records
  tally : Tally
  ticking : Bool
  /-- The number of runs of a ticker. -/
  ticks : Nat → Option Nat
  clock : Nat
  values : Std.ExtTreeMap Nat Value
  cards : Std.ExtTreeMap Nat CardRecord
  log : List String
  /-- How many listeners an anchor has. -/
  listeners : Anchor → Nat

def Graph.view (graph : Graph) : GraphView where
  mode := graph.mode
  net := graph.net.mapActions fun _ => ()
  cards := graph.cards
  connections := graph.connections
  paths := graph.paths.map fun _ => Plan.order
  plan := graph.plan.map Plan.order
  warnings := graph.warnings
  subscribed := graph.subscriptions.names

namespace Machine

/-- The number of runs of a ticker that succeeded. -/
def ticks? (machine : Machine) (number : Nat) : Option Nat :=
  match machine.workers.get? number with
  | some (.ticker ticker) => some ticker.ticks
  | _ => none

def view (machine : Machine) : View where
  answers := machine.answer?
  graph := machine.engine.graph.map Graph.view
  records := machine.engine.records
  tally := machine.scheduler.tally
  ticking := machine.isTicking
  ticks := machine.ticks?
  clock := machine.clock
  values := machine.engine.board.values
  cards := machine.engine.board.records
  log := machine.engine.board.log
  listeners := machine.engine.board.listenerCount

/-- The machine after something has happened, if it can happen. -/
def meet (machine : Machine) (occurrence : Occurrence) : Option Machine :=
  machine.undergo (occurrence.incident machine.engine.graph)

/-- The machine after things have happened in order, if they can. -/
def meetAll (machine : Machine) (occurrences : List Occurrence) : Option Machine :=
  occurrences.foldlM meet machine

end Machine

variable {renumber : Renumbering} {extent : Extent}

theorem Graph.view_graph (graph : Graph) : (renumber.graph graph).view = graph.view := by
  have order : ∀ plan : Plan, (renumber.plan plan).order = plan.order := by
    intro plan
    simp only [Plan.order, Renumbering.plan, List.map_map]
    exact List.map_congr_left fun step _ => by cases step <;> rfl
  have net : (renumber.graph graph).net.mapActions (fun _ => ()) =
      graph.net.mapActions fun _ => () := by
    simp only [Renumbering.graph, Renumbering.circuit, Net.mapActions, Registry.map_map]
  have paths : ((renumber.graph graph).paths.map fun _ => Plan.order) =
      graph.paths.map fun _ => Plan.order := by
    simp only [Renumbering.graph, Registry.map_map, order]
  have plan : (renumber.graph graph).plan.map Plan.order = graph.plan.map Plan.order := by
    simp only [Renumbering.graph, Option.map_map, Function.comp_def, order]
  have subscribed : (renumber.graph graph).subscriptions.names = graph.subscriptions.names :=
    Registry.names_map ..
  simp only [Graph.view, net, paths, plan, subscribed]
  rfl

theorem Board.Matches.deed {first second : Board} (boards : first.Matches renumber extent second)
    {graph : Option Graph} (within : ∀ held, graph = some held → held.channel < extent.slots)
    (deed : Deed) : (deed.apply graph first).Matches renumber extent
      (deed.apply (graph.map renumber.graph) second) := by
  cases deed with
  | write anchor value => exact boards.write anchor value
  | reset anchor => exact boards.resetAnchor anchor
  | emit anchor value => exact boards.emit anchor value
  | call card inputs globals => exact (boards.call card inputs globals).2
  | note slot change => exact boards.modifyRecord slot change
  | takeLog => exact boards.change rfl rfl boards.values boards.records boards.counters rfl
  | supply globals =>
      cases graph with
      | none => exact boards
      | some held =>
          exact boards.modifyChannel (within held rfl) fun channel =>
            { channel with globals := globals }

namespace Machine.Matches

variable {first second : Machine}

theorem answer? (machines : first.Matches renumber extent second) (number : Nat) :
    second.answer? number = first.answer? number := by
  rw [Machine.answer?, Machine.answer?, machines.workers number]
  rcases first.workers.get? number with _ | ⟨stage | ticker | courier⟩
  · rfl
  · cases stage <;> rfl
  · rfl
  · rfl

/-- Nothing of the numbers is seen. -/
theorem view (machines : first.Matches renumber extent second) : second.view = first.view := by
  have graph : second.engine.graph.map Graph.view = first.engine.graph.map Graph.view := by
    rw [machines.engine.graph, Option.map_map]
    exact congrArg (Option.map · first.engine.graph) (funext Graph.view_graph)
  have ticks : second.ticks? = first.ticks? := by
    funext number
    rw [ticks?, ticks?, machines.workers number]
    rcases first.workers.get? number with _ | ⟨stage | ticker | courier⟩ <;> rfl
  have tally : second.scheduler.tally = first.scheduler.tally := by
    rw [machines.scheduler]
    rfl
  simp only [Machine.view, funext machines.answer?, graph, machines.engine.records, tally,
    machines.isTicking, ticks, machines.clock, machines.engine.board.values,
    machines.engine.board.records, machines.engine.board.log,
    funext machines.engine.board.listenerCount]

/-- Something happens to both or to neither. -/
theorem meet (machines : first.Matches renumber extent second) (occurrence : Occurrence) :
    Option.Rel (fun one two => ∃ wider, Machine.Matches renumber wider one two)
      (first.meet occurrence) (second.meet occurrence) := by
  cases occurrence with
  | call call => exact .some ⟨extent, machines.enlist (.caller (.fresh call)) trivial⟩
  | tick interval inputs => exact .some ⟨extent, machines.startTicker interval inputs⟩
  | halt => exact .some ⟨extent, machines.stopTicker⟩
  | wait time =>
      simp only [Machine.meet, Occurrence.incident, undergo, machines.clock]
      split
      · exact .some ⟨extent, machines.withClock time⟩
      · exact .none
  | step worker => exact machines.step worker
  | deed deed =>
      have done := machines.engine.board.deed
        (fun held present => (machines.engine.within held present).channel) deed
      rw [← machines.engine.graph] at done
      exact .some ⟨extent, machines.withEngine extent.le_refl (machines.engine.withBoard done)⟩

/-- The same course can be taken by both. -/
theorem meetAll (machines : first.Matches renumber extent second)
    (occurrences : List Occurrence) :
    Option.Rel (fun one two => ∃ wider, Machine.Matches renumber wider one two)
      (first.meetAll occurrences) (second.meetAll occurrences) := by
  induction occurrences generalizing first second extent with
  | nil => exact .some ⟨extent, machines⟩
  | cons occurrence rest ih =>
      have happened := machines.meet occurrence
      revert happened
      rw [Machine.meetAll, Machine.meetAll, List.foldlM_cons, List.foldlM_cons]
      generalize first.meet occurrence = one
      generalize second.meet occurrence = two
      rintro (⟨wider, after⟩ | -)
      · exact ih after
      · exact .none

/-- Whatever happens to both, the same is seen of them. -/
theorem view_meetAll (machines : first.Matches renumber extent second)
    (occurrences : List Occurrence) :
    (second.meetAll occurrences).map Machine.view =
      (first.meetAll occurrences).map Machine.view := by
  have course := machines.meetAll occurrences
  revert course
  generalize first.meetAll occurrences = one
  generalize second.meetAll occurrences = two
  rintro (⟨wider, after⟩ | -)
  · exact congrArg some after.view
  · rfl

end Machine.Matches

end CardNet
