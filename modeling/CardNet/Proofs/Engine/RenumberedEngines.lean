import CardNet.Engine.Worker
import CardNet.Proofs.Graph.RenumberedGraphs
import CardNet.Proofs.Schedule.Relabelling

/-!
# Engines on matching boards

What an engine does with its graph comes to the same on a board that matches (`Engine.Matches`): the
openings and closings of runs, the firings, the plans, and what is built and edited.
-/

namespace CardNet

namespace Renumbering

variable (renumber : Renumbering)

def flight (flight : Flight) : Flight :=
  { flight with firing.action := renumber.action flight.firing.action }

def task : Task → Task
  | .walk plan inputs => .walk (renumber.plan plan) inputs
  | .fire transition => .fire transition
  | .node id inputs => .node id inputs
  | .input place value => .input place value
  | .event place => .event place

end Renumbering

def Task.Within (extent : Extent) : Task → Prop
  | .walk plan _ => plan.Within extent
  | _ => True

variable {renumber : Renumbering} {extent wider : Extent}

theorem Task.Within.mono {task : Task} (within : task.Within extent) (grows : extent ≤ wider) :
    task.Within wider := by
  cases task with
  | walk plan inputs => exact Plan.Within.mono within grows
  | _ => trivial

/-- An action begins in the same way. -/
theorem Board.Matches.begin {first second : Board} (boards : first.Matches renumber extent second)
    {action : Action} (within : action.Within extent) (arguments : List Value) :
    ((renumber.action action).begin arguments second).1 = (action.begin arguments first).1 ∧
      (action.begin arguments first).2.Matches renumber extent
        ((renumber.action action).begin arguments second).2 := by
  cases action with
  | split => exact ⟨rfl, boards⟩
  | transfer source target => exact boards.beginMove (.copy source target) 0 arguments
  | call card => exact ⟨rfl, boards⟩
  | start card channel =>
      simp only [Renumbering.action, Action.begin, boards.channels channel within]
      exact ⟨trivial, boards⟩
  | scripted slot failOn move =>
      have counted : Board.Matches renumber extent
          { first with counters := first.counters.insert slot (first.counters.getD slot 0 + 1) }
          { second with counters := first.counters.insert slot (first.counters.getD slot 0 + 1) } :=
        boards.change rfl rfl boards.values boards.records rfl boards.log
      simp only [Renumbering.action, Action.begin, boards.counters]
      split
      · exact ⟨rfl, counted⟩
      · exact counted.beginMove move _ arguments

namespace Bench.Matches

variable {first second : Bench}

theorem mergeGlobals (benches : first.Matches renumber extent second) (inputs : Values) :
    second.graph.mergeGlobals second.board inputs =
      first.graph.mergeGlobals first.board inputs := by
  have shared : second.board.channel second.graph.channel =
      first.board.channel first.graph.channel := by
    rw [benches.graph]
    exact benches.board.channels _ benches.within.channel
  have supplies : second.graph.suppliesGlobals = first.graph.suppliesGlobals := by
    rw [benches.graph]
    rfl
  simp only [Graph.mergeGlobals, Graph.globals?, shared, supplies]

theorem entryValues (benches : first.Matches renumber extent second) :
    second.entryValues = first.entryValues := by
  simp only [Bench.entryValues, benches.graph, benches.board.observed]
  rfl

theorem placeValues (benches : first.Matches renumber extent second) :
    second.placeValues = first.placeValues := by
  simp only [Bench.placeValues, benches.graph, benches.board.value?]
  rfl

theorem outputs (benches : first.Matches renumber extent second) :
    second.outputs = first.outputs := by
  simp only [Bench.outputs, benches.graph, benches.board.value?]
  rfl

theorem memoKey (benches : first.Matches renumber extent second) (inputs : Values) :
    second.memoKey inputs = first.memoKey inputs := by
  rw [Bench.memoKey, Bench.memoKey, benches.entryValues]

theorem supply (benches : first.Matches renumber extent second) (inputs : Values) :
    (first.supply inputs).Matches renumber extent (second.supply inputs) := by
  obtain ⟨graph, board⟩ := first
  obtain ⟨_, other⟩ := second
  obtain ⟨rfl, within, boards⟩ := benches
  exact ⟨rfl, within, boards.modifyChannel within.channel fun channel =>
    { channel with inputs := inputs }⟩

theorem setPlace (benches : first.Matches renumber extent second) (id : String) (value : Value) :
    (second.setPlace id value).1 = (first.setPlace id value).1 ∧
      (first.setPlace id value).2.Matches renumber extent (second.setPlace id value).2 := by
  obtain ⟨graph, board⟩ := first
  obtain ⟨_, other⟩ := second
  obtain ⟨rfl, within, boards⟩ := benches
  have placed : (renumber.graph graph).net.place? id = graph.net.place? id := rfl
  rw [Bench.setPlace, Bench.setPlace, placed]
  cases graph.net.place? id with
  | none => exact ⟨rfl, rfl, within, boards⟩
  | some place =>
      cases content : place.content with
      | none =>
          simp only [content, Option.map_none]
          exact ⟨trivial, rfl, within, boards⟩
      | some held =>
          simp only [content, Option.map_some, Content.setValue]
          cases held.settable? with
          | none => exact ⟨rfl, rfl, within, boards⟩
          | some anchor => exact ⟨rfl, rfl, within, boards.write anchor value⟩

theorem noteEvent (benches : first.Matches renumber extent second) (place : String) :
    (second.noteEvent place).1 = (first.noteEvent place).1 ∧
      (first.noteEvent place).2.Matches renumber extent (second.noteEvent place).2 := by
  obtain ⟨graph, board⟩ := first
  obtain ⟨_, other⟩ := second
  obtain ⟨rfl, within, boards⟩ := benches
  have collects : (renumber.graph graph).net.collectsEvents place =
      graph.net.collectsEvents place := rfl
  have mode : (renumber.graph graph).mode = graph.mode := rfl
  have marked : Graph.Within { graph with net := graph.net.modifyTokens place (· + 1) } extent :=
    within.of_transitions fun id action found => .inl found
  cases collected : graph.net.collectsEvents place with
  | false =>
      simp only [Bench.noteEvent, Bench.recordEvent, collects, collected]
      exact ⟨rfl, rfl, within, boards⟩
  | true =>
      cases run : graph.mode with
      | visual =>
          simp only [Bench.noteEvent, Bench.recordEvent, collects, collected, mode, run]
          rw [← run]
          exact ⟨rfl, rfl, marked, boards⟩
      | function =>
          simp only [Bench.noteEvent, Bench.recordEvent, collects, collected, mode, run]
          exact ⟨rfl, rfl, within, boards⟩

theorem nodeWork (benches : first.Matches renumber extent second) (id : String)
    (inputs : Values) : second.nodeWork id inputs = first.nodeWork id inputs := by
  have transitions : second.graph.net.transitions.contains id =
      first.graph.net.transitions.contains id := by
    rw [benches.graph]
    exact Registry.contains_map ..
  have placed : second.graph.net.place? id = first.graph.net.place? id := by
    rw [benches.graph]
    rfl
  simp only [Bench.nodeWork, transitions, placed, benches.mergeGlobals, benches.board.value?]

end Bench.Matches

/-! ## Firing -/

/-- A firing is begun on both sides, or on neither for the same reason. -/
theorem Circuit.launch_matches {net : Circuit} {first second : Board}
    (boards : first.Matches renumber extent second)
    (within : ∀ id action, net.transitions.get? id = some action → action.Within extent)
    (transition : String) (arguments : List Value) :
    (∃ error, net.launch first transition arguments = .error error ∧
      (renumber.circuit net).launch second transition arguments = .error error) ∨
    ∃ flight taken one two, net.launch first transition arguments = .ok (flight, taken, one) ∧
      (renumber.circuit net).launch second transition arguments =
        .ok (renumber.flight flight, renumber.circuit taken, two) ∧
      flight.firing.action.Within extent ∧ (∀ id action, taken.transitions.get? id = some action →
        net.transitions.get? id = some action) ∧ one.Matches renumber extent two := by
  have blocked : (renumber.circuit net).blocked? transition = net.blocked? transition :=
    Net.blocked?_mapActions ..
  have found : (renumber.circuit net).transitions.get? transition =
      (net.transitions.get? transition).map renumber.action := Registry.get?_map ..
  rw [Circuit.launch, Circuit.launch, Net.begin, Net.begin, blocked, found]
  cases net.blocked? transition with
  | some reason => exact .inl ⟨_, rfl, rfl⟩
  | none =>
      cases held : net.transitions.get? transition with
      | none => exact .inl ⟨_, rfl, rfl⟩
      | some action =>
          obtain ⟨job, after⟩ := boards.begin (within transition action held) arguments
          refine .inr ⟨⟨⟨transition, action, net.arcsInto transition, net.arcsFrom transition⟩,
            (action.begin arguments first).1⟩, net.deduct (net.arcsInto transition),
            (action.begin arguments first).2,
            ((renumber.action action).begin arguments second).2, rfl, ?_,
            within transition action held, ?_, after⟩
          · have deducted : (renumber.circuit net).deduct (net.arcsInto transition) =
              renumber.circuit (net.deduct (net.arcsInto transition)) := Net.deduct_mapActions ..
            dsimp only [Option.map_some]
            rw [show (renumber.circuit net).arcsInto = net.arcsInto from rfl, deducted, job]
            rfl
          · intro id action there
            rwa [Net.transitions_of_bare (Net.bare_deduct net _)] at there

theorem Circuit.land_matches (net : Circuit) {first second : Board}
    (boards : first.Matches renumber extent second) (flight : Flight) :
    ∃ result after one two, net.land first flight = (result, after, one) ∧
      (renumber.circuit net).land second (renumber.flight flight) =
        (result, renumber.circuit after, two) ∧
      (∀ id action, after.transitions.get? id = some action →
        net.transitions.get? id = some action) ∧ one.Matches renumber extent two := by
  obtain ⟨same, after⟩ := boards.finish flight.job
  have job : (renumber.flight flight).job = flight.job := rfl
  have committed : (renumber.circuit net).commit (renumber.flight flight).firing =
      renumber.circuit (net.commit flight.firing) := Net.credit_mapActions ..
  have back : (renumber.circuit net).rollback (renumber.flight flight).firing =
      renumber.circuit (net.rollback flight.firing) := Net.refund_mapActions ..
  rw [Circuit.land, Circuit.land, job, committed, back]
  cases one : flight.job.finish first with | mk result left =>
  cases two : flight.job.finish second with | mk _ right =>
  rw [one, two] at same after
  cases same
  cases result with
  | ok value =>
      refine ⟨_, _, _, _, rfl, rfl, fun id action there => ?_, after⟩
      rwa [Net.commit, Net.transitions_of_bare (Net.bare_credit net _)] at there
  | error message =>
      refine ⟨_, _, _, _, rfl, rfl, fun id action there => ?_, after⟩
      rwa [Net.rollback, Net.transitions_of_bare (Net.bare_refund net _)] at there

/-! ## Engines -/

/-- Engines that differ in numbers alone. -/
structure Engine.Matches (renumber : Renumbering) (extent : Extent) (first second : Engine) :
    Prop where
  config : second.config = first.config
  graph : second.graph = first.graph.map renumber.graph
  within : ∀ graph, first.graph = some graph → graph.Within extent
  board : first.board.Matches renumber extent second.board
  records : second.records = first.records

namespace Engine.Matches

variable {first second : Engine}

/-- There is a graph on both sides or on neither. -/
theorem bench_cases (engines : first.Matches renumber extent second) :
    (first.bench = .error .notBuilt ∧ second.bench = .error .notBuilt) ∨
      ∃ one two, first.bench = .ok one ∧ second.bench = .ok two ∧
        one.Matches renumber extent two := by
  obtain ⟨-, graph, within, boards, -⟩ := engines
  rw [Engine.bench, Engine.bench, Engine.bench?, Engine.bench?, graph]
  cases held : first.graph with
  | none => exact .inl ⟨rfl, rfl⟩
  | some own => exact .inr ⟨_, _, rfl, rfl, rfl, within own held, boards⟩

theorem withBench (engines : first.Matches renumber extent second) {one two : Bench}
    (benches : one.Matches renumber wider two) :
    (first.withBench one).Matches renumber wider (second.withBench two) where
  config := engines.config
  graph := congrArg some benches.graph
  within := by
    rintro _ ⟨⟩
    exact benches.within
  board := benches.board
  records := engines.records

theorem withBoard (engines : first.Matches renumber extent second) {one two : Board}
    (boards : one.Matches renumber extent two) :
    Matches renumber extent { first with board := one } { second with board := two } :=
  ⟨engines.config, engines.graph, engines.within, boards, engines.records⟩

theorem withRecords (engines : first.Matches renumber extent second) (records : Records) :
    Matches renumber extent { first with records := records }
      { second with records := records } :=
  ⟨engines.config, engines.graph, engines.within, engines.board, rfl⟩

theorem forget (engines : first.Matches renumber extent second) :
    first.forget.Matches renumber extent second.forget := by
  rw [Engine.forget, Engine.forget, engines.records]
  exact engines.withRecords _

/-! ### Runs -/

theorem opening (engines : first.Matches renumber extent second) (inputs : Values)
    (force : Bool) :
    (second.opening inputs force).1 = (first.opening inputs force).1 ∧
      (first.opening inputs force).2.Matches renumber extent (second.opening inputs force).2 := by
  rw [Engine.opening, Engine.opening]
  rcases engines.bench_cases with ⟨none, none'⟩ | ⟨one, two, some, some', benches⟩
  · rw [none, none']
    exact ⟨rfl, engines⟩
  · rw [some, some']
    have mode : two.graph.mode = one.graph.mode := by rw [benches.graph]; rfl
    have opened := engines.withBench
      ((benches.supply (one.graph.mergeGlobals one.board inputs)).reset.seed)
    have recalls : second.remembers = first.remembers := by
      funext key
      rw [Engine.remembers, Engine.remembers, engines.records]
    simp only [Engine.openOn, recalls, benches.mergeGlobals, benches.memoKey, engines.records,
      mode]
    by_cases recorded : (!force && first.remembers
        (one.memoKey (one.graph.mergeGlobals one.board inputs))) = true
    · simp only [if_pos recorded]
      exact ⟨trivial, engines⟩
    · simp only [if_neg recorded]
      cases one.graph.mode <;> exact ⟨rfl, opened⟩

theorem close (engines : first.Matches renumber extent second) (inputs : Values)
    (results : Option Values) :
    (second.close inputs results).1 = (first.close inputs results).1 ∧
      (first.close inputs results).2.Matches renumber extent (second.close inputs results).2 := by
  rw [Engine.close, Engine.close]
  rcases engines.bench_cases with ⟨none, none'⟩ | ⟨one, two, some, some', benches⟩
  · rw [none, none']
    exact ⟨rfl, engines⟩
  · rw [some, some']
    simp only [benches.outputs, benches.memoKey, benches.placeValues, engines.records]
    exact ⟨trivial, engines.withRecords _⟩

theorem transitions (engines : first.Matches renumber extent second) :
    second.transitions = first.transitions := by
  rw [Engine.transitions, Engine.transitions]
  rcases engines.bench_cases with ⟨none, none'⟩ | ⟨one, two, some, some', benches⟩
  · rw [none, none']
  · rw [some, some']
    simp only [Except.map, benches.graph]
    exact congrArg Except.ok (Registry.names_map _ _)

theorem plan (engines : first.Matches renumber extent second) :
    second.plan = first.plan.map (Option.map renumber.plan) ∧
      ∀ plan, first.plan = .ok (some plan) → plan.Within extent := by
  rw [Engine.plan, Engine.plan]
  rcases engines.bench_cases with ⟨none, none'⟩ | ⟨one, two, some, some', benches⟩
  · rw [none, none']
    refine ⟨rfl, ?_⟩
    rintro plan ⟨⟩
  · rw [some, some']
    simp only [Except.map, benches.graph]
    exact ⟨rfl, fun plan found => benches.within.plans plan (.inl (Except.ok.inj found))⟩

theorem nodeRequest (engines : first.Matches renumber extent second) (id : String)
    (inputs : Values) :
    second.nodeRequest id inputs = (first.nodeRequest id inputs).map (Request.map renumber.task) ∧
      ∀ request, first.nodeRequest id inputs = .ok request → request.task.Within extent := by
  rw [Engine.nodeRequest, Engine.nodeRequest]
  rcases engines.bench_cases with ⟨none, none'⟩ | ⟨one, two, some, some', benches⟩
  · rw [none, none']
    exact ⟨rfl, nofun⟩
  · have found : two.graph.paths.get? id = (one.graph.paths.get? id).map renumber.plan := by
      rw [benches.graph]
      exact Registry.get?_map ..
    rw [some, some']
    simp only [Except.map, found]
    cases own : one.graph.paths.get? id with
    | none => exact ⟨rfl, fun _ same => by cases same; trivial⟩
    | some plan =>
        refine ⟨rfl, ?_⟩
        rintro _ ⟨⟩
        exact benches.within.plans plan (.inr ⟨id, own⟩)

/-! ### Tasks -/

theorem withCircuit (engines : first.Matches renumber extent second) {net : Circuit}
    {one two : Board} (boards : one.Matches renumber extent two)
    (kept : ∀ graph, first.graph = some graph → ∀ id action,
      net.transitions.get? id = some action → graph.net.transitions.get? id = some action) :
    (first.withCircuit net one).Matches renumber extent
      (second.withCircuit (renumber.circuit net) two) where
  config := engines.config
  graph := by
    simp only [Engine.withCircuit, engines.graph, Option.map_map]
    rfl
  within := by
    intro graph held
    obtain ⟨before, present, rfl⟩ := Option.map_eq_some_iff.mp held
    exact (engines.within before present).of_transitions fun id action found =>
      .inl (kept before present id action found)
  board := boards
  records := engines.records

/-- A firing is begun on both sides, or on neither for the same reason. -/
theorem launch (engines : first.Matches renumber extent second) {one two : Bench}
    (present : first.bench = .ok one) (present' : second.bench = .ok two) (transition : String) :
    (∃ failure, first.launch one transition = .error failure ∧
      second.launch two transition = .error failure) ∨
    ∃ flight left right, first.launch one transition = .ok (flight, left) ∧
      second.launch two transition = .ok (renumber.flight flight, right) ∧
      flight.firing.action.Within extent ∧ left.Matches renumber extent right := by
  rcases engines.bench_cases with ⟨none, -⟩ | ⟨own, other, some, some', benches⟩
  · cases present.symm.trans none
  · cases present.symm.trans some
    cases present'.symm.trans some'
    have net : two.graph.net = renumber.circuit one.graph.net := by rw [benches.graph]; rfl
    rw [Engine.launch, Engine.launch, net]
    rcases Circuit.launch_matches benches.board benches.within.net transition [] with
      ⟨error, failed, failed'⟩ | ⟨flight, taken, left, right, begun, begun', within, kept, boards⟩
    · rw [failed, failed']
      exact .inl ⟨_, rfl, rfl⟩
    · rw [begun, begun']
      refine .inr ⟨_, _, _, rfl, rfl, within,
        engines.withCircuit boards fun graph held id action found => ?_⟩
      rw [Engine.bench_eq held] at present
      cases present
      exact kept id action found

theorem land (engines : first.Matches renumber extent second) (flight : Flight) :
    (second.land (renumber.flight flight)).1 = (first.land flight).1 ∧
      (first.land flight).2.Matches renumber extent (second.land (renumber.flight flight)).2 := by
  rw [Engine.land, Engine.land]
  rcases engines.bench_cases with ⟨none, none'⟩ | ⟨one, two, present, present', benches⟩
  · rw [none, none']
    exact ⟨rfl, engines⟩
  · have net : two.graph.net = renumber.circuit one.graph.net := by rw [benches.graph]; rfl
    obtain ⟨result, after, left, right, landed, landed', kept, boards⟩ :=
      Circuit.land_matches one.graph.net benches.board flight
    rw [present, present']
    dsimp only
    rw [net, landed, landed']
    refine ⟨rfl, engines.withCircuit boards fun graph held id action found => ?_⟩
    rw [Engine.bench_eq held] at present
    cases present
    exact kept id action found

theorem callOff (engines : first.Matches renumber extent second) (flight : Flight) :
    (first.callOff flight).Matches renumber extent (second.callOff (renumber.flight flight)) := by
  rw [Engine.callOff, Engine.callOff, engines.graph]
  cases held : first.graph with
  | none => exact engines
  | some graph =>
      have back : Circuit.callOff (renumber.graph graph).net (renumber.flight flight) =
          renumber.circuit (graph.net.callOff flight) := Net.refund_mapActions ..
      dsimp only [Option.map_some]
      rw [back]
      refine engines.withCircuit engines.board fun other same id action found => ?_
      cases held.symm.trans same
      rwa [Circuit.callOff, Net.rollback, Net.transitions_of_bare (Net.bare_refund ..)] at found

theorem visit (engines : first.Matches renumber extent second) (card : Card) (globals : Values) :
    (second.visit card globals).1 = (first.visit card globals).1 ∧
      (first.visit card globals).2.Matches renumber extent (second.visit card globals).2 := by
  obtain ⟨same, after⟩ := engines.board.call card none (some globals)
  exact ⟨congrArg (Except.mapError (Failure.card card.id)) same, engines.withBoard after⟩

theorem setPlace (engines : first.Matches renumber extent second) (id : String) (value : Value) :
    (second.setPlace id value).1 = (first.setPlace id value).1 ∧
      (first.setPlace id value).2.Matches renumber extent (second.setPlace id value).2 := by
  rw [Engine.setPlace, Engine.setPlace]
  rcases engines.bench_cases with ⟨none, none'⟩ | ⟨one, two, some, some', benches⟩
  · rw [none, none']
    exact ⟨rfl, engines⟩
  · rw [some, some']
    obtain ⟨same, after⟩ := benches.setPlace id value
    exact ⟨congrArg (Except.map fun _ => Value.null) same, engines.withBench after⟩

theorem noteEvent (engines : first.Matches renumber extent second) (place : String) :
    (second.noteEvent place).1 = (first.noteEvent place).1 ∧
      (first.noteEvent place).2.Matches renumber extent (second.noteEvent place).2 := by
  rw [Engine.noteEvent, Engine.noteEvent]
  rcases engines.bench_cases with ⟨none, none'⟩ | ⟨one, two, some, some', benches⟩
  · rw [none, none']
    exact ⟨rfl, engines⟩
  · rw [some, some']
    obtain ⟨same, after⟩ := benches.noteEvent place
    exact ⟨congrArg (Except.map fun _ => Value.null) same, engines.withBench after⟩

/-! ### Building and editing -/

theorem build (engines : first.Matches renumber extent second) (config : GraphConfig)
    (cards : List Card) (globals : Option Values) :
    ∃ wider, extent ≤ wider ∧
      (second.build config cards globals).1 =
        (first.build config cards globals).1.map renumber.graph ∧
      (∀ graph, (first.build config cards globals).1 = .ok graph → graph.Within wider) ∧
      (first.build config cards globals).2.Matches renumber wider
        (second.build config cards globals).2 := by
  obtain ⟨wider, grows, same, within, after⟩ :=
    Graph.build_matches engines.board first.config.mode config cards globals
  rw [Engine.build, Engine.build, engines.config]
  exact ⟨wider, grows, same, within, rfl, engines.graph,
    fun graph held => (engines.within graph held).mono grows, after, engines.records⟩

theorem discard (engines : first.Matches renumber extent second) :
    first.discard.Matches renumber extent second.discard := by
  have board : first.discard.board.Matches renumber extent second.discard.board := by
    rw [Engine.discard, Engine.discard, engines.graph]
    cases held : first.graph with
    | none => exact engines.board
    | some graph =>
        have bench : Bench.Matches renumber extent ⟨graph, first.board⟩
            ⟨renumber.graph graph, second.board⟩ :=
          ⟨rfl, engines.within graph held, engines.board⟩
        exact bench.release
  exact ⟨engines.config, rfl, nofun, board, rfl⟩

theorem install (engines : first.Matches renumber extent second) {graph : Graph}
    (within : graph.Within extent) :
    (first.install graph).Matches renumber extent (second.install (renumber.graph graph)) := by
  refine ⟨engines.config, rfl, ?_, engines.discard.board, rfl⟩
  rintro _ ⟨⟩
  exact within

theorem addConnection (engines : first.Matches renumber extent second)
    (connection : Connection) : Concur (Matches renumber) extent
      (first.addConnection connection) (second.addConnection connection) := by
  rw [Engine.addConnection, Engine.addConnection]
  rcases engines.bench_cases with ⟨none, none'⟩ | ⟨one, two, some, some', benches⟩
  · rw [none, none']
    exact .intro engines
  · rw [some, some']
    obtain ⟨result, left, right, wider, made, made', grows, after⟩ :=
      benches.addConnection connection
    dsimp only
    rw [made, made']
    have put := engines.withBench after
    cases result with
    | error failure => exact (Concur.intro put).widen grows
    | ok id => exact (Concur.intro put.forget).widen grows

theorem removeConnection (engines : first.Matches renumber extent second) (id : String) :
    Concur (Matches renumber) extent (first.removeConnection id) (second.removeConnection id) := by
  rw [Engine.removeConnection, Engine.removeConnection]
  rcases engines.bench_cases with ⟨none, none'⟩ | ⟨one, two, some, some', benches⟩
  · rw [none, none']
    exact .intro engines
  · rw [some, some']
    obtain ⟨result, left, right, wider, made, made', grows, after⟩ := benches.removeConnection id
    dsimp only
    rw [made, made']
    have put := engines.withBench after
    rcases result with failure | ⟨_ | _⟩
    · exact (Concur.intro put).widen grows
    · exact (Concur.intro put).widen grows
    · exact (Concur.intro put.forget).widen grows

end Engine.Matches

end CardNet
