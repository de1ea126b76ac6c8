import CardNet.Proofs.Engine.Plans
import CardNet.Proofs.Graph.Opening

/-!
# The course of a run

In either mode a run does the actions of some transitions in order: those that exhaust the net
when it is fired, and those of the region of all entries when it follows the plan
(`Graph.Course`). A run that is not answered from the records succeeds exactly when these actions
do (`Session.exec_of_course`, `Session.course_of_exec`), and its outputs are read off the board
that they leave.
-/

namespace CardNet

/-! ## Graphs -/

namespace Graph

/-- The plan of a graph that is run by plans is that of all its entries. -/
def Compiled (graph : Graph) : Prop :=
  graph.mode = .function →
    graph.net.entryPlaces = [] ∧ graph.plan = none ∨
      ∃ plan, graph.plan = some plan ∧
        Plan.ofEntries graph.net graph.net.entryPlaces = .ok plan

/-- The transitions whose actions a run of a graph does in order, within the limits that the
settings put on the number of firings and on the time of a task. -/
def Course (graph : Graph) (settings : EngineConfig) (trace : List String) : Prop :=
  match graph.mode with
  | .visual => graph.net.Exhausts trace ∧ trace.length ≤ settings.maxFirings ∧
      ∀ transition ∈ trace, fits settings.taskTimeout (graph.net.delay transition) = true
  | .function => ∃ order, graph.net.regionOrder graph.net.entryPlaces = .ok order ∧
      trace = graph.net.actsOf order ∧
      (graph.net.spendAll settings.taskTimeout trace).isSome

/-- How a run of a graph goes on that is not answered from the records. -/
def way (graph : Graph) (inputs : Values) : Opening :=
  match graph.mode with
  | .visual => .firings inputs
  | .function => .plan inputs

/-- The circuit of a graph after a run. -/
def spent (graph : Graph) (trace : List String) : Circuit :=
  match graph.mode with
  | .visual => graph.net.firedAll trace
  | .function => graph.net

theorem spent_visual {graph : Graph} (mode : graph.mode = .visual) (trace : List String) :
    graph.spent trace = graph.net.firedAll trace := by
  rw [spent, mode]

theorem spent_function {graph : Graph} (mode : graph.mode = .function) (trace : List String) :
    graph.spent trace = graph.net := by
  rw [spent, mode]

theorem spent_nil (graph : Graph) : graph.spent [] = graph.net := by
  unfold spent
  split <;> rfl

@[simp] theorem bare_spent (graph : Graph) (trace : List String) :
    (graph.spent trace).bare = graph.net.bare := by
  unfold spent
  split
  · exact graph.net.bare_firedAll trace
  · rfl

theorem Compiled.of_bare {graph : Graph} (compiled : graph.Compiled) {net : Circuit}
    (same : net.bare = graph.net.bare) : ({ graph with net := net } : Graph).Compiled := by
  intro mode
  dsimp only
  rw [Net.entryPlaces_of_bare same, Plan.ofEntries_of_bare same]
  exact compiled mode

theorem regionOrder_nil (net : Circuit) : net.regionOrder [] = .ok [] := by
  simp [Net.regionOrder, Net.reachableFrom, Frontier.follow, Descent.order, misplaced?]

/-- What making the plans where the mode needs them does to a graph. -/
theorem recompile_spec {graph after : Graph} {result : Except Failure Unit}
    (recompiled : graph.recompile = (result, after)) :
    (∃ paths plan, after = { graph with paths := paths, plan := plan }) ∧
      (result = .ok () → after.Compiled) := by
  by_cases mode : graph.mode = .function
  · rw [recompile_function mode] at recompiled
    obtain ⟨⟨paths, plan, rfl⟩, compiled⟩ := compile_spec recompiled
    exact ⟨⟨paths, plan, rfl⟩, fun succeeds _ => compiled succeeds⟩
  · have visual : graph.mode = .visual := by
      cases other : graph.mode with
      | visual => rfl
      | function => exact (mode other).elim
    rw [recompile_visual visual] at recompiled
    cases recompiled
    exact ⟨⟨graph.paths, graph.plan, rfl⟩, fun _ function => (mode function).elim⟩

/-- A graph whose circuit draws cards and connections, ready to be run. -/
structure Ready (graph : Graph) (cards : List Card) (connections laid : List Connection) :
    Prop where
  draws : graph.net.Draws cards connections graph.channel laid
  compiled : graph.Compiled

end Graph

namespace Bench

/-- A bench after a run that did the actions of some transitions. -/
def finished (opened : Bench) (trace : List String) (board : Board) : Bench :=
  ⟨{ opened.graph with net := opened.graph.spent trace }, board⟩

theorem outputs_of_bare {first second : Bench}
    (same : first.graph.net.bare = second.graph.net.bare)
    (board : first.board = second.board) : first.outputs = second.outputs := by
  simp only [outputs, Circuit.contentsOf, Net.content?_of_bare same,
    Net.exitPlaces_of_bare same, board]

end Bench

/-! ## Engines -/

namespace Engine

/-- An engine whose last run ended on a bench and was recorded. -/
structure Recorded (engine : Engine) (bench : Bench) (inputs : Values) : Prop where
  graph : engine.graph = some bench.graph
  board : engine.board = bench.board
  memo : engine.records.memo = some (bench.memoKey inputs)
  outputs : engine.records.outputs = bench.outputs

variable {engine : Engine} {graph : Graph} {inputs : Values} {force : Bool}

/-- Whether a run would be answered from the records. -/
def answers (engine : Engine) (graph : Graph) (inputs : Values) (force : Bool) : Bool :=
  !force && engine.remembers
    ((Bench.mk graph engine.board).memoKey (graph.mergeGlobals engine.board inputs))

/-- The bench of an engine at the opening of a run with inputs that are yet to be merged. -/
def opened (engine : Engine) (graph : Graph) (inputs : Values) : Bench :=
  (Bench.mk graph engine.board).opened (graph.mergeGlobals engine.board inputs)

@[simp] theorem bare_opened (engine : Engine) (graph : Graph) (inputs : Values) :
    (engine.opened graph inputs).graph.net.bare = graph.net.bare :=
  Bench.bare_opened _ _

theorem playAll_opened (engine : Engine) (graph : Graph) (inputs : Values) :
    (engine.opened graph inputs).graph.net.playAll = graph.net.playAll :=
  Circuit.playAll_of_bare (engine.bare_opened graph inputs)

theorem opening_recorded (held : engine.graph = some graph)
    (answers : engine.answers graph inputs force = true) :
    engine.opening inputs force = (.ok (.recorded engine.records.outputs), engine) := by
  unfold Engine.answers at answers
  simp only [opening, bench_eq held, openOn, answers, ↓reduceIte]

theorem opening_fresh (held : engine.graph = some graph)
    (fresh : engine.answers graph inputs force = false) :
    engine.opening inputs force =
      (.ok (match graph.mode with
        | .visual => .firings (graph.mergeGlobals engine.board inputs)
        | .function => .plan (graph.mergeGlobals engine.board inputs)),
        engine.withBench (engine.opened graph inputs)) := by
  unfold Engine.answers at fresh
  simp only [opening, bench_eq held, openOn, fresh, Bool.false_eq_true, ↓reduceIte]
  cases graph.mode <;> rfl

theorem opening_ne_recorded (held : engine.graph = some graph)
    (fresh : engine.answers graph inputs force = false) (recorded : Values) :
    (engine.opening inputs force).1 ≠ .ok (.recorded recorded) := by
  rw [opening_fresh held fresh]
  cases graph.mode with
  | visual => exact fun absurd => by cases absurd
  | function => exact fun absurd => by cases absurd

theorem close_eq (bench : Bench) (held : engine.graph = some bench.graph)
    (board : engine.board = bench.board) (inputs : Values) (results : Option Values) :
    ∃ after : Engine, engine.close inputs results = (.ok bench.outputs, after) ∧
      after.Recorded bench inputs ∧ after.config = engine.config := by
  have same : engine.bench = .ok bench := by rw [bench_eq held, board]
  simp only [close, same]
  refine ⟨_, rfl, ⟨held, board, ?_, ?_⟩, rfl⟩
  · cases results <;> rfl
  · cases results <;> rfl

end Engine

/-! ## Sessions -/

namespace Session

variable {session after : Session} {graph : Graph} {inputs outputs : Values} {force : Bool}

/-- The transitions whose actions are begun when a run goes on, in order. -/
def begun (session : Session) : Opening → List String
  | .recorded _ => []
  | .firings _ => firedInPasses session.engine.config.maxFirings 0 session
  | .plan _ =>
      match session.engine.plan with
      | .ok (some plan) =>
          Plan.begun session.engine.config.taskTimeout plan.steps session.engine.board
      | _ => []

/-- The transitions whose actions are begun when the graph is run, in order. -/
def enacted (session : Session) (inputs : Values) (force : Bool) : List String :=
  match session.engine.opening inputs force with
  | (.ok opening, engine) => { session with engine := engine }.begun opening
  | (.error _, _) => []

/-- An answer from the records changes nothing at all. -/
theorem exec_recorded (held : session.engine.graph = some graph)
    (answers : session.engine.answers graph inputs force = true) :
    session.exec inputs force = (.ok session.engine.records.outputs, session) := by
  rw [exec, run, Engine.opening_recorded held answers]
  rfl

/-! ### Once a run is open -/

section

variable {opened : Bench}

/-- A run that is open succeeds when the actions of its course do. -/
theorem carryOut_of_course (inputs : Values) (held : session.engine.graph = some opened.graph)
    (same : session.engine.board = opened.board) (compiled : opened.graph.Compiled)
    (functional : opened.graph.net.Functional) {trace : List String} {board : Board}
    (course : opened.graph.Course session.engine.config trace)
    (played : opened.graph.net.playAll trace opened.board = some board) :
    ∃ after, session.carryOut (opened.graph.way inputs) =
        (.ok (opened.finished trace board).outputs, after) ∧
      after.engine.Recorded (opened.finished trace board) inputs ∧
      after.engine.config = session.engine.config := by
  rw [← same] at played
  unfold Graph.Course at course
  cases mode : opened.graph.mode with
  | visual =>
      simp only [mode] at course
      obtain ⟨exhausts, within, timely⟩ := course
      obtain ⟨tally, fired⟩ := firePasses_of_exhausts session.engine.config.maxFirings 0
        held functional timely exhausts played (by omega)
      have stage : (session.engine.withCircuit (opened.graph.net.firedAll trace) board).graph =
          some (opened.finished trace board).graph := by
        rw [Engine.graph_withCircuit held, Bench.finished, Graph.spent_visual mode]
      obtain ⟨engine, closed, recorded, config⟩ := Engine.close_eq
        (opened.finished trace board) stage rfl inputs none
      refine ⟨⟨engine, tally⟩, ?_, recorded, config⟩
      simp only [Graph.way, mode, carryOut, fired, close, closed]
  | function =>
      simp only [mode] at course
      obtain ⟨order, found, rfl, timely⟩ := course
      have stage : ∀ board : Board, ({ session.engine with board := board } : Engine).graph =
          some (opened.finished (opened.graph.net.actsOf order) board).graph := by
        intro board
        rw [Bench.finished, Graph.spent_function mode]
        exact held
      obtain ⟨engine, tally, noted, followed, closed, recorded, config⟩ :
          ∃ engine tally noted, session.followPlan inputs =
              (.ok noted, ⟨{ session.engine with board := board }, tally⟩) ∧
            Engine.close { session.engine with board := board } inputs (some noted) =
              (.ok (opened.finished (opened.graph.net.actsOf order) board).outputs, engine) ∧
            engine.Recorded (opened.finished (opened.graph.net.actsOf order) board) inputs ∧
            engine.config = session.engine.config := by
        rcases compiled mode with ⟨none, unplanned⟩ | ⟨plan, planned, made⟩
        · rw [none, Graph.regionOrder_nil] at found
          cases found
          cases played
          obtain ⟨engine, closed, recorded, config⟩ := Engine.close_eq _
            (stage session.engine.board) rfl inputs (some ∅)
          exact ⟨engine, session.tally, ∅, followPlan_of_none held unplanned inputs, closed,
            recorded, config⟩
        · obtain ⟨order', found', made'⟩ := Plan.ofEntries_eq_ok made
          obtain rfl : order = order' := Except.ok.inj (found.symm.trans found')
          obtain ⟨noted, tally, followed⟩ := followPlan_of_playAll held
            functional timely planned made' played
          obtain ⟨engine, closed, recorded, config⟩ := Engine.close_eq _
            (stage board) rfl inputs (some noted)
          exact ⟨engine, tally, noted, followed, closed, recorded, config⟩
      refine ⟨⟨engine, tally⟩, ?_, recorded, config⟩
      simp only [Graph.way, mode, carryOut, followed, close, closed]

/-- An open run that succeeds has a course, whose actions were all begun and succeeded. -/
theorem course_of_carryOut (held : session.engine.graph = some opened.graph)
    (same : session.engine.board = opened.board) (compiled : opened.graph.Compiled)
    (functional : opened.graph.net.Functional)
    (ran : session.carryOut (opened.graph.way inputs) = (.ok outputs, after)) :
    ∃ board, opened.graph.Course session.engine.config
        (session.begun (opened.graph.way inputs)) ∧
      opened.graph.net.playAll (session.begun (opened.graph.way inputs)) opened.board =
        some board ∧
      outputs = (opened.finished (session.begun (opened.graph.way inputs)) board).outputs ∧
      after.engine.Recorded
        (opened.finished (session.begun (opened.graph.way inputs)) board) inputs ∧
      after.engine.config = session.engine.config := by
  unfold Graph.Course
  cases mode : opened.graph.mode with
  | visual =>
      simp only [Graph.way, mode, carryOut, begun] at ran ⊢
      rcases fired : firePasses session.engine.config.maxFirings 0 session with
        ⟨failure | total, next⟩
      · rw [fired] at ran
        cases ran
      · rw [fired] at ran
        obtain ⟨exhausts, played, count, within, engine, timely⟩ :=
          exhausts_of_firePasses held fired
        generalize firedInPasses session.engine.config.maxFirings 0 session = trace at *
        have stage : next.engine.graph = some (opened.finished trace next.engine.board).graph := by
          rw [engine, Engine.graph_withCircuit held, Bench.finished, Graph.spent_visual mode]
        obtain ⟨last, closed, recorded, config⟩ := Engine.close_eq _ stage rfl inputs none
        simp only [close, closed] at ran
        cases ran
        refine ⟨next.engine.board, ⟨exhausts, ?_, timely functional⟩, same ▸ played, rfl, recorded,
          ?_⟩
        · rcases within with rfl | le
          · exact Nat.zero_le _
          · omega
        · rw [config, engine]
          rfl
  | function =>
      simp only [Graph.way, mode, carryOut, begun] at ran ⊢
      have bench := Engine.bench_eq held
      rcases compiled mode with ⟨none, unplanned⟩ | ⟨plan, planned, made⟩
      · rw [followPlan_of_none held unplanned inputs] at ran
        have noPlan : session.engine.plan = .ok Option.none := by
          rw [Engine.plan, bench, ← unplanned]
          rfl
        have stage : session.engine.graph =
            some (opened.finished [] session.engine.board).graph := by
          rw [Bench.finished, Graph.spent_function mode]
          exact held
        obtain ⟨last, closed, recorded, config⟩ := Engine.close_eq _ stage rfl inputs (some ∅)
        simp only [close, closed] at ran
        cases ran
        rw [noPlan]
        refine ⟨session.engine.board, ⟨[], ?_, rfl, rfl⟩, same ▸ rfl, rfl, recorded, config⟩
        rw [none, Graph.regionOrder_nil]
      · obtain ⟨order, found, made'⟩ := Plan.ofEntries_eq_ok made
        have withPlan : session.engine.plan = .ok (some plan) := by
          rw [Engine.plan, bench, ← planned]
          rfl
        rcases walked : session.followPlan inputs with ⟨failure | noted, next⟩
        · rw [walked] at ran
          cases ran
        · rw [walked] at ran
          obtain ⟨played, engine, log, timely⟩ := playAll_of_followPlan held planned made' walked
          have stage : next.engine.graph = some (opened.finished
              (opened.graph.net.actsOf order) next.engine.board).graph := by
            rw [engine, Bench.finished, Graph.spent_function mode]
            exact held
          obtain ⟨last, closed, recorded, config⟩ := Engine.close_eq _ stage rfl inputs
            (some noted)
          simp only [close, closed] at ran
          cases ran
          rw [withPlan]
          simp only [log]
          refine ⟨next.engine.board, ⟨order, found, rfl, timely functional⟩, same ▸ played, rfl,
            recorded, ?_⟩
          rw [config, engine]

/-- However an open run ends, of the engine it changes tokens, the board and the records only. -/
theorem carryOut_frame (inputs : Values) (held : session.engine.graph = some opened.graph) :
    ∃ net, (session.carryOut (opened.graph.way inputs)).2.engine.graph =
        some { opened.graph with net := net } ∧ net.bare = opened.graph.net.bare ∧
      (session.carryOut (opened.graph.way inputs)).2.engine.config = session.engine.config := by
  unfold Graph.way
  cases opened.graph.mode with
  | visual =>
      obtain ⟨net, board, same, bare⟩ := firePasses_frame
        session.engine.config.maxFirings 0 held
      have stage := Engine.graph_withCircuit held net board
      simp only [carryOut]
      rcases fired : firePasses session.engine.config.maxFirings 0 session with
        ⟨failure | total, next⟩
      · rw [fired] at same
        dsimp only at same ⊢
        exact ⟨net, by rw [same, stage], bare, by rw [same]; rfl⟩
      · rw [fired] at same
        dsimp only at same ⊢
        rw [← same] at stage
        obtain ⟨last, closed, recorded, config⟩ := Engine.close_eq
          ⟨{ opened.graph with net := net }, next.engine.board⟩ stage rfl inputs none
        simp only [close, closed]
        exact ⟨net, recorded.graph, bare, by rw [config, same]; rfl⟩
  | function =>
      obtain ⟨board, same⟩ := followPlan_frame held inputs
      simp only [carryOut]
      rcases walked : session.followPlan inputs with ⟨failure | noted, next⟩
      · rw [walked] at same
        dsimp only at same ⊢
        exact ⟨opened.graph.net, by rw [same]; exact held, rfl, by rw [same]⟩
      · rw [walked] at same
        dsimp only at same ⊢
        obtain ⟨last, closed, recorded, config⟩ := Engine.close_eq
          ⟨opened.graph, next.engine.board⟩ (by rw [same]; exact held) rfl inputs (some noted)
        simp only [close, closed]
        exact ⟨opened.graph.net, recorded.graph, rfl, by rw [config, same]⟩

end

/-! ### Whole runs -/

/-- A session at the opening of a run with inputs that are yet to be merged. -/
def started (session : Session) (graph : Graph) (inputs : Values) : Session :=
  { session with engine := session.engine.withBench (session.engine.opened graph inputs) }

/-- A run that is not answered from the records is opened and carried out. -/
theorem exec_eq (held : session.engine.graph = some graph)
    (fresh : session.engine.answers graph inputs force = false) :
    session.exec inputs force =
      match (session.started graph inputs).carryOut
        ((session.engine.opened graph inputs).graph.way
          (graph.mergeGlobals session.engine.board inputs)) with
      | (.ok outputs, session) => (.ok outputs, session)
      | (.error failure, session) =>
          (.error failure, { session with engine := session.engine.forget }) := by
  rw [exec, run, Engine.opening_fresh held fresh]
  rfl

private theorem enacted_eq (held : session.engine.graph = some graph)
    (fresh : session.engine.answers graph inputs force = false) :
    session.enacted inputs force = (session.started graph inputs).begun
      ((session.engine.opened graph inputs).graph.way
        (graph.mergeGlobals session.engine.board inputs)) := by
  rw [enacted, Engine.opening_fresh held fresh]
  rfl

private theorem compiled_opened (compiled : graph.Compiled) :
    (session.engine.opened graph inputs).graph.Compiled :=
  Bench.graph_opened _ _ ▸ compiled.of_bare (by rw [Net.bare_seedAll, Circuit.bare_clearTokens])

/-- A run succeeds when the actions of its course do. -/
theorem exec_of_course (held : session.engine.graph = some graph) (compiled : graph.Compiled)
    (functional : graph.net.Functional)
    (fresh : session.engine.answers graph inputs force = false) {trace : List String}
    {board : Board}
    (course : (session.engine.opened graph inputs).graph.Course session.engine.config trace)
    (played : graph.net.playAll trace (session.engine.opened graph inputs).board = some board) :
    ∃ after, session.exec inputs force =
        (.ok ((session.engine.opened graph inputs).finished trace board).outputs, after) ∧
      after.engine.Recorded ((session.engine.opened graph inputs).finished trace board)
        (graph.mergeGlobals session.engine.board inputs) ∧
      after.engine.config = session.engine.config := by
  rw [← Engine.playAll_opened session.engine graph inputs] at played
  have stage : (session.started graph inputs).engine.graph =
      some (session.engine.opened graph inputs).graph := rfl
  obtain ⟨after, ran, recorded, config⟩ := carryOut_of_course
    (graph.mergeGlobals session.engine.board inputs) stage rfl (compiled_opened compiled)
    (functional.of_bare (Engine.bare_opened ..).symm) course played
  exact ⟨after, by rw [exec_eq held fresh, ran], recorded, config⟩

/-- A run that succeeds has a course, whose actions were all begun and succeeded. -/
theorem course_of_exec (held : session.engine.graph = some graph) (compiled : graph.Compiled)
    (functional : graph.net.Functional)
    (fresh : session.engine.answers graph inputs force = false)
    (ran : session.exec inputs force = (.ok outputs, after)) :
    ∃ board, (session.engine.opened graph inputs).graph.Course session.engine.config
        (session.enacted inputs force) ∧
      graph.net.playAll (session.enacted inputs force)
        (session.engine.opened graph inputs).board = some board ∧
      outputs =
        ((session.engine.opened graph inputs).finished (session.enacted inputs force) board).outputs ∧
      after.engine.Recorded
        ((session.engine.opened graph inputs).finished (session.enacted inputs force) board)
        (graph.mergeGlobals session.engine.board inputs) ∧
      after.engine.config = session.engine.config := by
  rw [exec_eq held fresh] at ran
  rw [enacted_eq held fresh, ← Engine.playAll_opened session.engine graph inputs]
  split at ran
  · next result next carried =>
      cases ran
      exact course_of_carryOut rfl rfl
        (compiled_opened compiled) (functional.of_bare (Engine.bare_opened ..).symm) carried
  · cases ran

/-- However a run ends, of the graph it changes tokens only. -/
theorem exec_frame (held : session.engine.graph = some graph) (inputs : Values) (force : Bool) :
    ∃ net, (session.exec inputs force).2.engine.graph = some { graph with net := net } ∧
      net.bare = graph.net.bare ∧
      (session.exec inputs force).2.engine.config = session.engine.config := by
  cases fresh : session.engine.answers graph inputs force with
  | true =>
      rw [exec_recorded held fresh]
      exact ⟨graph.net, held, rfl, rfl⟩
  | false =>
      have stage : (session.started graph inputs).engine.graph =
          some (session.engine.opened graph inputs).graph := rfl
      obtain ⟨net, kept, bare, config⟩ :=
        carryOut_frame (graph.mergeGlobals session.engine.board inputs) stage
      rw [Engine.bare_opened] at bare
      refine ⟨net, ?_, bare, ?_⟩
      · rw [exec_eq held fresh]
        split
        · next carried => rw [carried] at kept; exact kept
        · next carried => rw [carried] at kept; exact kept
      · rw [exec_eq held fresh]
        split
        · next carried => rw [carried] at config; exact config
        · next carried => rw [carried] at config; exact config

/-- After a run that failed the records are not used. -/
theorem memo_of_exec_error {failure : Failure}
    (failed : session.exec inputs force = (.error failure, after)) :
    after.engine.records.memo = none := by
  unfold exec at failed
  split at failed
  · cases failed
  · cases failed
    rfl

/-- A session that was idle takes over a graph that can be built. -/
theorem build_idle (settings : EngineConfig) {config : GraphConfig} {cards : List Card}
    {board start : Board} {globals : Option Values}
    (built : Graph.build settings.mode config cards globals board = (.ok graph, start)) :
    (idle settings board).build config cards globals =
      (.ok graph.report, ⟨⟨settings, some graph, start, .blank⟩, .zero⟩) := by
  simp only [build, Engine.build, idle, Engine.idle, built]
  rfl

/-- A session that was idle takes over a graph that can be built; its first run is not answered
from the records. -/
theorem exists_build (settings : EngineConfig) {config : GraphConfig} {cards : List Card}
    {board start : Board} {globals : Option Values}
    (built : Graph.build settings.mode config cards globals board = (.ok graph, start)) :
    ∃ session, (idle settings board).build config cards globals = (.ok graph.report, session) ∧
      session.engine.graph = some graph ∧ session.engine.board = start ∧
      session.engine.config = settings ∧
      ∀ inputs force, session.engine.answers graph inputs force = false :=
  ⟨_, build_idle settings built, rfl, rfl, rfl, fun _ _ => Bool.and_false _⟩

end Session

end CardNet
