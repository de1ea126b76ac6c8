import CardNet.Proofs.Engine.FeedForwardRuns

/-!
# The modes agree

A graph without cycles has the same outputs in either mode, or fails in both
(`Session.exec_mode_agrees`): whichever way it is run, its outputs are read off the board that
its transitions leave in any order that suits what depends on what (`Session.toOption_exec`).
-/

namespace CardNet

variable {cards : List Card} {connections : List Connection} {graph : Graph} {session : Session}
  {inputs : Values} {force : Bool} {rank : String → Nat}

/-- At the opening of a run one and the same board comes of graphs that differ in mode and plans
only. -/
theorem Engine.board_opened_congr {first second : Engine} {one two : Graph}
    (board : first.board = second.board) (net : one.net = two.net)
    (channel : one.channel = two.channel) (supplies : one.suppliesGlobals = two.suppliesGlobals)
    (inputs : Values) : (first.opened one inputs).board = (second.opened two inputs).board := by
  have merged : one.mergeGlobals first.board inputs = two.mergeGlobals second.board inputs := by
    simp only [Graph.mergeGlobals, Graph.globals?, board, channel, supplies]
  simp only [Engine.opened, merged, Bench.board_opened, Bench.supply, net, channel]
  rw [board]

namespace Session

/-- Whatever course a run of a graph without cycles takes, its transitions leave the board that they
leave in any suitable order. -/
theorem playAll_of_course (ready : graph.Ready cards connections connections)
    (feed : FeedForward cards connections) {order trace : List String}
    (all : order.Perm graph.net.transitions.names)
    (arranged : Arranged (Relation.TransGen graph.net.Feeds) order)
    (course : (session.engine.opened graph inputs).graph.Course session.engine.config trace)
    (board : Board) : graph.net.playAll trace board = graph.net.playAll order board := by
  obtain ⟨rank, marked⟩ := feed.exists_markedGraph ready.draws
  have same := session.engine.bare_opened graph inputs
  have opened := ready.draws.of_bare same.symm
  have seeded : (session.engine.opened graph inputs).graph.net.Seeded :=
    Bench.seeded_opened ready.draws feed.names
  obtain ⟨rank', marked'⟩ := feed.exists_markedGraph opened
  obtain ⟨perm, suits⟩ := course.arranged marked' seeded opened.nodup_nodes
  rw [Net.transitions_of_bare same] at perm
  have feeds : (session.engine.opened graph inputs).graph.net.Feeds = graph.net.Feeds := by
    funext first second
    rw [Net.Feeds, Net.Feeds, Net.joins_of_bare same]
  rw [feeds] at suits
  exact ready.draws.playAll_eq feed.names feed.slots feed.functions marked suits arranged perm
    (perm.trans all.symm) board

/-- What a run of a graph without cycles answers is read off the board that its transitions leave
in any suitable order; it fails when one of them does. -/
theorem toOption_exec (held : session.engine.graph = some graph)
    (ready : graph.Ready cards connections connections) (feed : FeedForward cards connections)
    (patient : session.engine.config.taskTimeout = none)
    (enough : graph.net.transitions.size ≤ session.engine.config.maxFirings)
    (fresh : session.engine.answers graph inputs force = false) {order : List String}
    (all : order.Perm graph.net.transitions.names)
    (arranged : Arranged (Relation.TransGen graph.net.Feeds) order) :
    (session.exec inputs force).1.toOption =
      (graph.net.playAll order (session.engine.opened graph inputs).board).map
        fun board => (Bench.mk graph board).outputs := by
  have same := session.engine.bare_opened graph inputs
  have opened := ready.draws.of_bare same.symm
  have seeded : (session.engine.opened graph inputs).graph.net.Seeded :=
    Bench.seeded_opened ready.draws feed.names
  obtain ⟨rank', marked'⟩ := feed.exists_markedGraph opened
  have functional : graph.net.Functional := fun id action => ready.draws.functional feed.functions
  have outputs : ∀ trace board,
      ((session.engine.opened graph inputs).finished trace board).outputs =
        (Bench.mk graph board).outputs := fun trace board =>
    Bench.outputs_of_bare (((Graph.bare_spent _ trace).trans same)) rfl
  cases played : graph.net.playAll order (session.engine.opened graph inputs).board with
  | some board =>
      obtain ⟨trace, course⟩ := Graph.exists_course marked' seeded opened.nodup_nodes
        patient (by rwa [Net.transitions_of_bare same])
      rw [← playAll_of_course ready feed all arranged course] at played
      obtain ⟨after, ran, -, -⟩ := exec_of_course held ready.compiled functional fresh course played
      rw [ran, outputs]
      rfl
  | none =>
      rcases ran : session.exec inputs force with ⟨failure | values, after⟩
      · rfl
      · obtain ⟨board, course, done, -⟩ := course_of_exec held ready.compiled functional fresh ran
        rw [playAll_of_course ready feed all arranged course, played] at done
        cases done

/-- Visual and function mode compute the same outputs. Function cards that are joined without a
cycle are built on one board, once for each mode; then one run with the same inputs either fails
in both modes or answers with the same outputs. -/
theorem exec_mode_agrees {config : GraphConfig} (feed : FeedForward cards config.connections)
    {settings : EngineConfig} (patient : settings.taskTimeout = none) (globals : Option Values)
    (board : Board) :
    ∃ drawn planned visual function,
      (idle (settings.withMode .visual) board).build config cards globals = (.ok drawn, visual) ∧
      (idle (settings.withMode .function) board).build config cards globals =
        (.ok planned, function) ∧
      ∀ inputs force, drawn.transitions ≤ settings.maxFirings →
        (visual.exec inputs force).1.toOption = (function.exec inputs force).1.toOption := by
  obtain ⟨net, start, builds⟩ := Graph.build_ok feed globals board
  obtain ⟨drawn, builtVisual, readyVisual, -, netVisual, channelVisual, suppliesVisual⟩ :=
    builds .visual
  obtain ⟨planned, builtFunction, readyFunction, -, netFunction, channelFunction,
    suppliesFunction⟩ := builds .function
  obtain ⟨visual, visualBuild, visualGraph, visualBoard, visualConfig, visualFresh⟩ :=
    exists_build (settings.withMode .visual) builtVisual
  obtain ⟨function, functionBuild, functionGraph, functionBoard, functionConfig, functionFresh⟩ :=
    exists_build (settings.withMode .function) builtFunction
  refine ⟨_, _, visual, function, visualBuild, functionBuild, fun inputs force enough => ?_⟩
  have sameNet : planned.net = drawn.net := netFunction.trans netVisual.symm
  have sameBoard : (function.engine.opened planned inputs).board =
      (visual.engine.opened drawn inputs).board :=
    Engine.board_opened_congr (functionBoard.trans visualBoard.symm) sameNet
      (channelFunction.trans channelVisual.symm) (suppliesFunction.trans suppliesVisual.symm)
      inputs
  -- Any course of the run in visual mode is an order for both.
  obtain ⟨rank, marked⟩ := feed.exists_markedGraph readyVisual.draws
  obtain ⟨order, found⟩ := Net.regionOrder_of_ascending marked.plain
    readyVisual.draws.nodup_nodes marked.ascending drawn.net.entryPlaces_subset_nodes
  have region := Net.regionOrder_spec marked.plain readyVisual.draws.nodup_nodes found
  have all := region.perm_transitions marked
  have arranged := region.arranged marked
  rw [toOption_exec visualGraph readyVisual feed (by rw [visualConfig]; exact patient)
      (by rw [visualConfig]; exact enough) (visualFresh inputs force) all arranged,
    toOption_exec functionGraph readyFunction feed (by rw [functionConfig]; exact patient)
      (by rw [functionConfig, sameNet]; exact enough) (functionFresh inputs force)
      (sameNet ▸ all) (sameNet ▸ arranged), sameBoard, sameNet]
  refine congrArg (Option.map · _) (funext fun board => ?_)
  exact Bench.outputs_of_bare (by rw [sameNet]) rfl

/-- The triangle of cards can be run in either mode. -/
theorem exec_mode_agrees_triangle :
    FeedForward Triangle.seated.1 Triangle.config.connections ∧
      (EngineConfig.standard.withTaskTimeout none).taskTimeout = none ∧
      ∃ drawn planned visual function,
        (idle ((EngineConfig.standard.withTaskTimeout none).withMode .visual)
          Triangle.seated.2).build Triangle.config Triangle.seated.1 none = (.ok drawn, visual) ∧
        (idle ((EngineConfig.standard.withTaskTimeout none).withMode .function)
          Triangle.seated.2).build Triangle.config Triangle.seated.1 none = (.ok planned, function) ∧
        ∀ inputs force, drawn.transitions ≤ 10000 →
          (visual.exec inputs force).1.toOption = (function.exec inputs force).1.toOption :=
  ⟨Triangle.feedForward, rfl,
    exec_mode_agrees Triangle.feedForward
      rfl none Triangle.seated.2⟩

end Session

end CardNet
