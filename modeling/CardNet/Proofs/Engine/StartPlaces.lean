import CardNet.Proofs.Engine.Settling
import CardNet.Proofs.Graph.Provenance
import CardNet.Proofs.Graph.Reckoning
import CardNet.Proofs.Graph.Restraints

/-!
# Cards without inputs, called one by one

A caller may ask for the work of a single node. For the start place of a card without inputs this
is a call of the card with the inputs of the caller and the present globals on top, as long as there
is no plan for the place. In function mode there is one: it calls the card too, but with the inputs
that the last run was given, whatever the caller says (`Session.executeNode_startPlace`).
-/

namespace CardNet

/-! ## Start places -/

/-- No other card of a graph starts at the start place of a card. -/
def Card.StartsAlone (card : Card) (cards : List Card) : Prop :=
  ∀ other ∈ cards, other.startPlace = card.startPlace → other = card

/-- The names of the two nodes of a card end alike. -/
theorem Card.internalTransition_eq_iff {first second : Card} :
    first.internalTransition = second.internalTransition ↔
      first.startPlace = second.startPlace := by
  have call : ∀ card : Card, card.internalTransition =
      "internal_transition_" ++ (card.id ++ ("_" ++ card.title)) :=
    fun card => (Part.internal card).name_eq
  have start : ∀ card : Card, card.startPlace =
      "internal_place_" ++ (card.id ++ ("_" ++ card.title)) :=
    fun card => (Part.start card).name_eq
  rw [call, call, start, start, String.append_right_inj, String.append_right_inj]

namespace Graph.Furnished

variable {graph : Graph} (furnished : graph.Furnished) {card : Card}

include furnished

/-- The start place of a card starts it. -/
theorem content?_startPlace (known : card ∈ graph.cards) (source : card.anchorsOf .input = [])
    (alone : card.StartsAlone graph.cards) :
    graph.net.content? card.startPlace = some (.trigger card) := by
  obtain ⟨fixture, held⟩ := Option.ne_none_iff_exists'.mp (furnished.start card known source)
  obtain ⟨edit, lays, brought⟩ := furnished.drafted _ _ held
  cases lays with
  | @card other _ member brings =>
      cases brings with
      | anchor | event =>
          have named := Site.place.inj (Prod.mk.inj (Option.some.inj brought)).1
          have read := congrArg Family.read named
          simp at read
      | start =>
          obtain ⟨named, rfl⟩ := Prod.mk.inj (Option.some.inj brought)
          obtain rfl := alone other member (Site.place.inj named)
          exact Circuit.content?_of_fixture? held
      | call | begin | input | output => cases brought
  | connection found brings =>
      cases brings with
      | source | event | target | relay =>
          have named := Site.place.inj (Prod.mk.inj (Option.some.inj brought)).1
          have read := congrArg Family.read named
          simp at read
      | listen | handOver | transfer | hand | spread | take | bring => cases brought

/-- The transition of a card calls it. -/
theorem get?_internalTransition (alone : card.StartsAlone graph.cards) {action : Action}
    (found : graph.net.transitions.get? card.internalTransition = some action) :
    action = card.action graph.channel := by
  have held := Circuit.fixture?_transition_eq_some.mpr found
  obtain ⟨edit, lays, brought⟩ := furnished.drafted _ _ held
  cases lays with
  | @card other _ member brings =>
      cases brings with
      | call =>
          obtain ⟨named, same⟩ := Prod.mk.inj (Option.some.inj brought)
          obtain rfl := alone other member
            (Card.internalTransition_eq_iff.mp (Site.transition.inj named))
          exact (Fixture.transition.inj same).symm
      | anchor | event | start | begin | input | output => cases brought
  | @connection connection parties _ found brings =>
      cases brings with
      | handOver =>
          have named := Site.transition.inj (Prod.mk.inj (Option.some.inj brought)).1
          exact absurd named.symm (connection.internalTransition_ne_handOver parties.source card)
      | transfer =>
          have named := Site.transition.inj (Prod.mk.inj (Option.some.inj brought)).1
          exact absurd named.symm (card.internalTransition_ne_transfer connection)
      | source | event | listen | target | relay | hand | spread | take | bring => cases brought

/-- The start place of a card leads to the transition of the card and nowhere else. -/
theorem joins_startPlace (plain : graph.net.Plain) (alone : card.StartsAlone graph.cards)
    {target : String} (joined : graph.net.Joins card.startPlace target) :
    target = card.internalTransition := by
  obtain ⟨edit, lays, brought⟩ := furnished.drafted _ _ ((Circuit.mem_arcs_iff plain).mp joined)
  have ends : ∀ {first second}, edit = .arc first second →
      first = card.startPlace ∧ second = target := by
    rintro first second rfl
    have same := Fixture.arc.inj (Prod.mk.inj (Option.some.inj brought)).2
    exact ⟨congrArg Arc.source same, congrArg Arc.target same⟩
  have read : ∀ {first second}, edit = .arc first second → Family.read first = .start := by
    intro first second same
    rw [(ends same).1, Family.read_startPlace]
  cases lays with
  | @card other _ member brings =>
      cases brings with
      | begin =>
          obtain ⟨start, rfl⟩ := ends rfl
          rw [alone other member start]
      | input => cases (Family.read_place _).symm.trans (read rfl)
      | output => cases (Family.read_name (.internal other)).symm.trans (read rfl)
      | anchor | event | start | call => cases brought
  | @connection connection parties _ found brings =>
      cases brings with
      | hand =>
          have here := read rfl
          unfold Connection.sourcePlace at here
          split at here
          · cases (Family.read_eventPlace _).symm.trans here
          · cases (Family.read_place _).symm.trans here
      | spread =>
          have apart := ((Part.start card).ne_of_own (.inl rfl) connection).2.2 parties.source
          exact absurd (ends rfl).1.symm apart
      | take => cases (Family.read_splitPlace _).symm.trans (read rfl)
      | bring => cases (Family.read_name (.transfer connection)).symm.trans (read rfl)
      | source | event | listen | target | handOver | relay | transfer => cases brought

end Graph.Furnished

/-! ## Plans of entry places -/

/-- A graph in which the plan under a name is that of the place of this name alone; there are plans
in function mode only. -/
structure Graph.Pathed (graph : Graph) : Prop where
  unplanned : graph.mode = .visual → ∀ name, graph.paths.get? name = none
  made : ∀ name plan, graph.paths.get? name = some plan →
    Plan.ofEntries graph.net [name] = .ok plan

namespace Graph

variable {graph other : Graph}

theorem paths_compile (graph : Graph) :
    graph.compile.2.paths = (pathsOf graph.net graph.net.entryPlaces .empty).2 := by
  unfold compile
  dsimp only
  split
  · next stopped => rw [stopped]
  · next done =>
      rw [done]
      split
      · rfl
      · split <;> rfl

/-- Where plans are made again it does not matter which there were. -/
theorem pathed_recompile (unplanned : graph.mode = .visual → ∀ name, graph.paths.get? name = none) :
    graph.recompile.2.Pathed := by
  obtain ⟨paths, plan, same⟩ := recompile_frame (rfl : graph.recompile = _)
  have frame : graph.recompile.2 = { graph with paths := paths, plan := plan } := same
  have mode : graph.recompile.2.mode = graph.mode := by rw [frame]
  have net : graph.recompile.2.net = graph.net := by rw [frame]
  cases kind : graph.mode with
  | visual =>
      have none := unplanned kind
      refine ⟨?_, ?_⟩
      · rw [recompile_visual kind]
        exact unplanned
      · intro name plan found
        rw [recompile_visual kind] at found
        cases (none name).symm.trans found
  | function =>
      refine ⟨?_, ?_⟩
      · intro visual
        cases kind.symm.trans (mode.symm.trans visual)
      · intro name plan found
        rw [recompile_function kind, paths_compile] at found
        rw [net]
        exact (made_of_pathsOf found).resolve_left nofun

end Graph

namespace Bench

variable {bench : Bench}

private theorem pathed_addConnection (seated : bench.graph.Seated) (pathed : bench.graph.Pathed)
    (connection : Connection) : (bench.addConnection connection).2.graph.Pathed := by
  unfold addConnection
  split
  · next failure after stopped =>
      obtain ⟨-, rfl⟩ := connect_error seated stopped
      rw [graph_alerted]
      exact ⟨pathed.unplanned, pathed.made⟩
  · next id after connected =>
      obtain ⟨-, grown, warnings, grows, rfl⟩ := grows_of_connect connected
      refine Graph.pathed_recompile ?_
      dsimp only
      rw [grows.graph]
      exact pathed.unplanned

private theorem pathed_removeConnection (pathed : bench.graph.Pathed) (id : String) :
    (bench.removeConnection id).2.graph.Pathed := by
  unfold removeConnection
  split
  · exact pathed
  · refine Graph.pathed_recompile ?_
    rw [graph_uproot]
    exact pathed.unplanned

/-- In every graph that can be reached the plans of places are plans of the present circuit. -/
theorem Reached.pathed (reached : bench.Reached) : bench.graph.Pathed := by
  induction reached with
  | @build mode _ _ _ _ _ graph built =>
      have heeds := Graph.heeds_of_build built (Restraint.fits_free mode) Restraint.lenient_free
        fun _ _ => trivial
      have pathed := graph.pathed_recompile fun visual name =>
        Option.eq_none_iff_forall_ne_some.mpr fun plan found =>
          heeds.unplanned visual plan (.inr ⟨name, found⟩)
      rwa [Graph.planned_of_build built] at pathed
  | add connection before ih => exact pathed_addConnection before.seated ih connection
  | remove id _ ih => exact pathed_removeConnection ih id
  | run board same _ ih =>
      refine ⟨ih.unplanned, fun name plan found => ?_⟩
      rw [Plan.ofEntries_of_bare same]
      exact ih.made name plan found

end Bench

/-! ## Plans of start places -/

/-- The region of a start that leads to one node begins with the two. -/
theorem Net.RegionOrder.start_only {κ α : Type} {net : Net κ α} {start next : String}
    {order : List String} (region : net.RegionOrder [start] order)
    (loopless : ∀ node, ¬net.Joins node node)
    (only : ∀ target, net.Joins start target → target = next) :
    order = [start] ∨ ∃ rest, order = start :: next :: rest := by
  -- What stands behind the start is led to from somewhere in front of it.
  have led : ∀ front node rest, order = front ++ node :: rest → node ≠ start →
      ∃ before ∈ front, net.Joins before node := by
    intro front node rest split other
    have inside : node ∈ order := split ▸ List.mem_append_right _ (List.mem_cons_self ..)
    obtain ⟨first, started, leads⟩ := (region.reached node inside).resolve_left
      (mt List.mem_singleton.mp other)
    obtain rfl := List.mem_singleton.mp started
    obtain ⟨before, member, joined⟩ : ∃ before ∈ order, net.Joins before node := by
      cases leads with
      | single step => exact ⟨first, region.starts first started, step.1⟩
      | tail path step =>
          exact ⟨_, region.mem_of_reaches (region.starts first started) path, step.1⟩
    rcases region.forward front node rest split before member joined with rfl | early
    · exact absurd joined (loopless before)
    · exact ⟨before, early, joined⟩
  cases order with
  | nil => cases region.starts start (List.mem_singleton_self start)
  | cons first tail =>
      by_cases here : first = start
      · subst here
        cases tail with
        | nil => exact .inl rfl
        | cons second rest =>
            have other : second ≠ first := by
              rintro rfl
              exact (List.nodup_cons.mp region.nodup).1 (List.mem_cons_self ..)
            obtain ⟨before, member, joined⟩ := led [first] second rest rfl other
            rw [List.mem_singleton.mp member] at joined
            rw [only second joined]
            exact .inr ⟨rest, rfl⟩
      · obtain ⟨before, member, -⟩ := led [] first tail rfl here
        cases member

/-- The plan of a start place begins with a call of its card, unless it is empty. -/
theorem Bench.Reached.plan_startPlace {bench : Bench} (reached : bench.Reached) {card : Card}
    (known : card ∈ bench.graph.cards) (source : card.anchorsOf .input = [])
    (alone : card.StartsAlone bench.graph.cards) {plan : Plan}
    (made : Plan.ofEntries bench.graph.net [card.startPlace] = .ok plan) :
    plan.steps = [] ∨ ∃ rest, plan.steps =
      .act card.internalTransition (.start card bench.graph.channel) :: rest := by
  have tidy := reached.seated.tidy
  have furnished := reached.furnished
  obtain ⟨order, found, walked⟩ := Plan.ofEntries_eq_ok made
  obtain ⟨steps, mapped, same⟩ := Plan.ofPath_eq_ok walked
  have region := Net.regionOrder_spec tidy.plain tidy.nodup_nodes found
  have loopless : ∀ node, ¬bench.graph.net.Joins node node := by
    intro node joined
    exact reached.operated.shape.2.irrefl ⟨_, joined, rfl, rfl⟩ rfl
  have start := furnished.content?_startPlace known source alone
  -- The start place itself shows no value.
  have silent : ∀ {step}, Plan.step? bench.graph.net card.startPlace = .ok step → step = none := by
    intro step made
    rcases Plan.step?_spec made with ⟨action, transition, -⟩ | ⟨-, content, held, shows, -⟩ |
      ⟨-, none⟩
    · obtain ⟨place, held, -⟩ := Option.bind_eq_some_iff.mp start
      have named := tidy.place _ (Registry.mem_names_of_get? held)
      rw [tidy.transition _ (Registry.mem_names_of_get? transition)] at named
      cases named
    · rw [← Option.some.inj (start.symm.trans held)] at shows
      cases shows
    · exact none
  have shape := region.start_only loopless fun target => furnished.joins_startPlace tidy.plain alone
  rcases shape with rfl | ⟨rest, rfl⟩
  · obtain ⟨first, later, one, others, rfl⟩ := Plan.mapM_cons_eq_ok mapped
    cases others
    rw [same, silent one]
    exact .inl rfl
  · obtain ⟨first, later, one, others, rfl⟩ := Plan.mapM_cons_eq_ok mapped
    obtain ⟨second, more, two, -, rfl⟩ := Plan.mapM_cons_eq_ok others
    obtain ⟨fixture, held⟩ := Option.ne_none_iff_exists'.mp (furnished.call card known)
    obtain ⟨action, called, -⟩ := Option.map_eq_some_iff.mp held
    have starts : action = .start card bench.graph.channel := by
      rw [furnished.get?_internalTransition alone called, Card.action, source]
      rfl
    rw [Plan.step?, called, starts] at two
    obtain rfl := Except.ok.inj two
    rw [same, silent one]
    exact .inr ⟨more.filterMap id, rfl⟩

/-- A step that calls a card without inputs gives it the inputs of the channel. -/
theorem Plan.runSteps_start {limit left : Option Nat} {card : Card}
    (fits : spend limit card.delay = some left) (name : String) (channel : Nat)
    (rest : List PlanStep) (results : Values) (board : Board) :
    runSteps limit (.act name (.start card channel) :: rest) results board =
      match card.call none (some (board.channel channel).inputs) board with
      | (.error message, board) => (.failed (.actionFailed name message), board)
      | (.ok value, board) => runSteps left rest (results.insert name value) board := by
  rcases called : card.call none (some (board.channel channel).inputs) board with
    ⟨message | value, after⟩ <;>
    simp only [runSteps, Action.begin, Job.delay, Job.finish, fits, called]

/-! ## Calls of start places -/

/-- A card without inputs is called with the globals that it is given. -/
theorem Card.arguments_source {card : Card} (source : card.anchorsOf .input = [])
    (globals : Values) (board : Board) : card.arguments none (some globals) board = globals := by
  have empty : card.gather board = ∅ := by
    rw [gather, source]
    rfl
  rw [arguments, Option.getD_none, Option.getD_some, empty, Values.fill_empty]

namespace Engine

/-- What a call of a function card without inputs comes to depends on the globals that it is given
and on nothing that is on the board. -/
theorem visit_function {card : Card} (source : card.anchorsOf .input = [])
    {run : Values → Except String Values} (work : card.work = .function run) (engine : Engine)
    (globals : Values) : engine.visit card globals =
      match run globals with
      | .error message => (.error (.card card.id message),
          { engine with board := card.enter engine.board })
      | .ok results => (.ok (.ofValues results),
          { engine with board := card.publish results (card.enter engine.board) }) := by
  rw [visit, Card.call, Card.arguments_source source, Card.compute, work]
  dsimp only
  cases run globals with
  | error message => rfl
  | ok results => rfl

end Engine

namespace Session

variable {session : Session} {graph : Graph} {card : Card}

/-- The work of the start place of a card, where there is no plan for it. -/
theorem executeNode_of_pathless (held : session.engine.graph = some graph) (tidy : graph.net.Tidy)
    (start : graph.net.content? card.startPlace = some (.trigger card))
    (pathless : graph.paths.get? card.startPlace = none) (inputs : Values) :
    ∃ tally, session.executeNode card.startPlace inputs =
      if fits session.engine.config.taskTimeout card.delay then
        let (answer, engine) := session.engine.visit card
          (graph.mergeGlobals session.engine.board inputs)
        (answer, ⟨engine, tally⟩)
      else
        (.error (.timeout card.startPlace (session.engine.config.taskTimeout.getD 0)),
          ⟨session.engine, tally⟩) := by
  obtain ⟨place, present, holds⟩ := Option.bind_eq_some_iff.mp start
  have apart : graph.net.transitions.contains card.startPlace = false := by
    refine Bool.eq_false_iff.mpr fun transition => ?_
    have named := tidy.place _ (Registry.mem_names_of_get? present)
    rw [tidy.transition _ (Registry.contains_eq_true.mp transition)] at named
    cases named
  have work : Bench.nodeWork ⟨graph, session.engine.board⟩ card.startPlace inputs =
      .ok (.visit card (graph.mergeGlobals session.engine.board inputs)) := by
    simp only [Bench.nodeWork, apart, present, holds]
    rfl
  have asked : session.engine.nodeRequest card.startPlace inputs =
      .ok (Task.nodeRun card.startPlace inputs) := by
    rw [Engine.nodeRequest, Engine.bench_eq held]
    simp only [Except.map, pathless]
  rw [executeNode, asked]
  simp only [request, Task.nodeRun, Engine.perform, Engine.bench_eq held, Engine.performNode, work]
  split
  · exact ⟨_, rfl⟩
  · exact ⟨_, rfl⟩

/-- Asked for the start place of a card without inputs for which there is no plan, an engine calls
the card with the inputs of the caller and the present globals on top. There are no such plans in
visual mode. Where there is one, it calls the card before it does anything else, or does nothing at
all; but the inputs that it calls the card with are those that the channel of the graph was given
last. -/
theorem executeNode_startPlace (session : Session) {graph : Graph} {card : Card}
    (held : session.engine.graph = some graph)
    (reached : Bench.Reached ⟨graph, session.engine.board⟩) (known : card ∈ graph.cards)
    (source : card.anchorsOf .input = []) (alone : card.StartsAlone graph.cards)
    (inputs : Values) :
    (graph.mode = .visual → graph.paths.get? card.startPlace = none) ∧
    (graph.paths.get? card.startPlace = none →
      ∃ tally, session.executeNode card.startPlace inputs =
        if fits session.engine.config.taskTimeout card.delay then
          let (answer, engine) := session.engine.visit card
            (graph.mergeGlobals session.engine.board inputs)
          (answer, ⟨engine, tally⟩)
        else
          (.error (.timeout card.startPlace (session.engine.config.taskTimeout.getD 0)),
            ⟨session.engine, tally⟩)) ∧
    (∀ run, card.work = .function run → ∀ globals, session.engine.visit card globals =
      match run globals with
      | .error message => (.error (.card card.id message),
          { session.engine with board := card.enter session.engine.board })
      | .ok results => (.ok (.ofValues results), { session.engine with
          board := card.publish results (card.enter session.engine.board) })) ∧
    ∀ plan, graph.paths.get? card.startPlace = some plan →
      session.executeNode card.startPlace inputs = session.request (Task.pathRun plan inputs) ∧
      (plan.steps = [] ∨ ∃ rest, plan.steps =
          .act card.internalTransition (.start card graph.channel) :: rest ∧
        ∀ limit left results board, spend limit card.delay = some left →
          plan.run limit results board =
            match card.call none (some (board.channel graph.channel).inputs) board with
            | (.error message, board) =>
                (.failed (.actionFailed card.internalTransition message), board)
            | (.ok value, board) => Plan.runSteps left rest
                (results.insert card.internalTransition value) board) := by
  have tidy := reached.seated.tidy
  have start := reached.furnished.content?_startPlace known source alone
  refine ⟨?_, ?_, ?_, ?_⟩
  · intro visual
    exact reached.pathed.unplanned visual card.startPlace
  · intro pathless
    exact executeNode_of_pathless held tidy start pathless inputs
  · intro run work globals
    exact Engine.visit_function source work session.engine globals
  · intro plan planned
    refine ⟨?_, ?_⟩
    · rw [executeNode, Engine.nodeRequest, Engine.bench_eq held]
      simp only [Except.map, planned]
    · rcases reached.plan_startPlace known source alone (reached.pathed.made _ plan planned) with
        none | ⟨rest, steps⟩
      · exact .inl none
      · refine .inr ⟨rest, steps, fun limit left results board fits => ?_⟩
        rw [Plan.run, steps]
        exact Plan.runSteps_start fits ..

/-- A build in function mode whose plans are made by short searches. -/
theorem build_of_within {steps : Nat} {config : GraphConfig} {cards : List Card} {bench : Bench}
    (function : session.engine.config.mode = .function)
    (found : Graph.buildWithin steps config cards session.engine.board = some bench) :
    session.build config cards none = (.ok bench.graph.report, { session with
      engine := Engine.install { session.engine with board := bench.board } bench.graph }) := by
  rw [build, Engine.build, function, Graph.build_of_within found]

end Session

/-! ## A source of the inputs of others -/

namespace Stale

/-- A card that shows one of the globals that it is called with. -/
def card : Card where
  slot := 0
  id := "s"
  title := "t"
  anchors := [⟨1, "out", .output, none, false⟩]
  delay := 0
  work := .function fun globals => .ok ((∅ : Values).insert "out" (globals.getD "x" .null))

def config : GraphConfig := ⟨"stale", []⟩

def board : Board := { Board.empty with nextSlot := 2 }

/-- An engine without a graph, to run graphs in a mode. -/
def start (mode : Mode) : Session := .idle (EngineConfig.standard.withMode mode) board

/-- An engine in function mode that has taken a graph over. -/
def built (bench : Bench) : Session where
  engine := { (start .function).engine with graph := some bench.graph, board := bench.board }
  tally := .zero

def inputs (n : Int) : Values := (∅ : Values).insert "x" (.ofInt n)

/-- What the card shows when it is called by a caller after a run with other inputs. -/
def shown (session : Session) (earlier own : Int) : Option Int :=
  let ran := (session.exec (inputs earlier) false).2
  (ran.executeNode card.startPlace (inputs own)).1.toOption.bind fun answer =>
    (answer.asValues.get? "place_s_out").bind Value.toInt?

theorem alone : card.StartsAlone [card] :=
  fun _ member _ => List.mem_singleton.mp member

end Stale

namespace Session

/-- In visual mode the card is called with what the caller says. -/
theorem executeNode_startPlace_visual : ∃ (report : Report) (session : Session),
    (Stale.start .visual).build Stale.config [Stale.card] none = (.ok report, session) ∧
    (session.executeNode Stale.card.startPlace (Stale.inputs 2)).1 =
      .ok (.ofValues ((∅ : Values).insert "out" (.ofInt 2))) := by
  have supplies : (Graph.build .visual Stale.config [Stale.card] none Stale.board).1.toOption.map
      Graph.suppliesGlobals = some false := by decide +kernel
  rcases result : Graph.build .visual Stale.config [Stale.card] none Stale.board with
    ⟨failure | graph, board⟩
  · rw [result] at supplies
    cases supplies
  · rw [result] at supplies
    obtain ⟨whole, visual⟩ := Graph.built_of_build result
    let session : Session :=
      { Stale.start .visual with
        engine := Engine.install { (Stale.start .visual).engine with board := board } graph }
    have built : (Stale.start .visual).build Stale.config [Stale.card] none =
        (.ok graph.report, session) := by
      rw [build, Engine.build]
      have same : Graph.build (Stale.start .visual).engine.config.mode Stale.config [Stale.card]
          none (Stale.start .visual).engine.board = (.ok graph, board) := result
      rw [same]
    have known : Stale.card ∈ graph.cards := by
      rw [whole.cards_eq]
      exact List.mem_singleton_self _
    obtain ⟨unplanned, direct, answers, -⟩ := executeNode_startPlace session rfl (.build result)
      known rfl (whole.cards_eq ▸ Stale.alone) (Stale.inputs 2)
    obtain ⟨tally, same⟩ := direct (unplanned visual)
    have merged : graph.mergeGlobals session.engine.board (Stale.inputs 2) = Stale.inputs 2 := by
      rw [Graph.mergeGlobals, Graph.globals?, Option.some.inj supplies]
      rfl
    have timely : fits session.engine.config.taskTimeout Stale.card.delay = true := rfl
    have value : (Stale.inputs 2).getD "x" .null = .ofInt 2 := Std.ExtTreeMap.getD_insert_self
    refine ⟨graph.report, session, built, ?_⟩
    rw [same, if_pos timely, merged, answers _ rfl, value]

/-- In function mode it is called with what an earlier run was given, and so the same call is
answered with one thing after the one run and with another after the other. -/
theorem executeNode_takes_earlier_inputs : ∃ (report : Report) (session : Session),
    (Stale.start .function).build Stale.config [Stale.card] none = (.ok report, session) ∧
    Stale.shown session 1 2 = some 1 ∧ Stale.shown session 3 2 = some 3 := by
  have ran : (Graph.buildWithin 60 Stale.config [Stale.card] Stale.board).map (fun bench =>
      (Stale.shown (Stale.built bench) 1 2, Stale.shown (Stale.built bench) 3 2)) =
        some (some 1, some 3) := by
    decide +kernel
  obtain ⟨bench, found, shown⟩ := Option.map_eq_some_iff.mp ran
  obtain ⟨one, other⟩ := Prod.mk.inj shown
  exact ⟨_, _, build_of_within rfl found, one, other⟩

end Session

end CardNet
