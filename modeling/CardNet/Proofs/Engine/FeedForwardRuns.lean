import CardNet.Proofs.Engine.Courses

/-!
# Runs of graphs without cycles

A graph without cycles can be built in either mode (`Graph.build_ok`). Every run of it does each
transition once, after those that it depends on (`Graph.Course.arranged`), and so what a run
leaves on the board does not depend on its course (`Circuit.Draws.playAll_eq`).
-/

namespace CardNet

variable {cards : List Card} {connections laid : List Connection} {channel : Nat}
  {net : Circuit} {rank : String → Nat}

/-! ## Building -/

/-- Without a cycle known entries have a plan. -/
theorem Plan.exists_ofEntries (graph : net.MarkedGraph rank) (distinct : net.nodes.Nodup)
    (entries : List String) (known : ∀ entry ∈ entries, entry ∈ net.nodes) :
    ∃ plan, ofEntries net entries = .ok plan := by
  obtain ⟨order, found⟩ := Net.regionOrder_of_ascending graph.plain distinct graph.ascending known
  have region := Net.regionOrder_spec graph.plain distinct found
  obtain ⟨plan, made⟩ := exists_ofPath entries region.within
  exact ⟨plan, by rw [ofEntries, found]; exact made⟩

theorem Net.entryPlaces_subset_nodes {κ α : Type} (net : Net κ α) :
    ∀ entry ∈ net.entryPlaces, entry ∈ net.nodes :=
  fun _ member => List.mem_append_left _ (List.mem_filter.mp member).1

namespace Graph

private theorem exists_pathsOf (graph : net.MarkedGraph rank) (distinct : net.nodes.Nodup)
    {entries : List String} (known : ∀ entry ∈ entries, entry ∈ net.nodes)
    (paths : Registry Plan) : ∃ all, pathsOf net entries paths = (.ok (), all) := by
  induction entries generalizing paths with
  | nil => exact ⟨paths, rfl⟩
  | cons entry rest ih =>
      obtain ⟨plan, made⟩ := Plan.exists_ofEntries graph distinct [entry]
        fun other member => known other (by simp_all)
      obtain ⟨all, done⟩ := ih
        (fun other member => known other (List.mem_cons_of_mem _ member)) (paths.insert entry plan)
      exact ⟨all, by rw [pathsOf, made]; exact done⟩

/-- Without a cycle the plans can be made. -/
theorem exists_recompile (graph : Graph) (marked : graph.net.MarkedGraph rank)
    (distinct : graph.net.nodes.Nodup) : ∃ after, graph.recompile = (.ok (), after) := by
  cases mode : graph.mode with
  | visual => exact ⟨graph, recompile_visual mode⟩
  | function =>
      have known := graph.net.entryPlaces_subset_nodes
      obtain ⟨all, pathsDone⟩ := exists_pathsOf marked distinct known .empty
      obtain ⟨common, made⟩ := Plan.exists_ofEntries marked distinct _ known
      rw [recompile_function mode]
      simp only [compile, pathsDone, made]
      split
      · exact ⟨_, rfl⟩
      · exact ⟨_, rfl⟩

/-- Cards that are joined without a cycle can be built in either mode, to graphs that are ready and
differ in nothing that is looked at when they are opened; the entries are at their defaults then. -/
theorem build_seeded {config : GraphConfig} (feed : FeedForward cards config.connections)
    (globals : Option Values) (board : Board) :
    ∃ net : Circuit, ∀ mode, ∃ graph,
      build mode config cards globals board =
          (.ok graph, net.seedPlaces.foldl net.applyDefault (groundwork board globals)) ∧
        graph.Ready cards config.connections config.connections ∧ graph.mode = mode ∧
        graph.net = net ∧ graph.channel = board.nextSlot ∧
        graph.suppliesGlobals = globals.isSome := by
  obtain ⟨net, draws, builds⟩ := build_eq feed.names (fun _ member => member) feed.eventless board
  have same := net.bare_seedAll net.seedPlaces
  refine ⟨net.seedAll net.seedPlaces, fun mode => ?_⟩
  obtain ⟨registry, warnings, -, built⟩ := builds mode globals
  have seeded : (Bench.mk (assembled mode net cards board.nextSlot globals.isSome registry warnings)
      (groundwork board globals)).seed =
        ⟨assembled mode (net.seedAll net.seedPlaces) cards board.nextSlot globals.isSome registry
          warnings, net.seedPlaces.foldl net.applyDefault (groundwork board globals)⟩ := rfl
  have drawn := draws.of_bare same.symm
  obtain ⟨rank, marked⟩ := feed.exists_markedGraph drawn
  obtain ⟨after, made⟩ := exists_recompile (assembled mode
    (net.seedAll net.seedPlaces) cards board.nextSlot globals.isSome registry warnings) marked
    drawn.nodup_nodes
  obtain ⟨⟨paths, plan, rfl⟩, compiled⟩ := recompile_spec made
  refine ⟨_, ?_, ⟨drawn, compiled rfl⟩, rfl, rfl, rfl, rfl⟩
  rw [built, seeded, Bench.recompile, made, Circuit.seedPlaces_of_bare same,
    Circuit.applyDefault_of_bare same]
  rfl

/-- Cards that are joined without a cycle can be built in either mode, to graphs on the same
board that are ready and differ in nothing that is looked at when they are opened. -/
theorem build_ok {config : GraphConfig} (feed : FeedForward cards config.connections)
    (globals : Option Values) (board : Board) :
    ∃ (net : Circuit) (start : Board), ∀ mode, ∃ graph,
      build mode config cards globals board = (.ok graph, start) ∧
        graph.Ready cards config.connections config.connections ∧ graph.mode = mode ∧
        graph.net = net ∧ graph.channel = board.nextSlot ∧
        graph.suppliesGlobals = globals.isSome := by
  obtain ⟨net, builds⟩ := build_seeded feed globals board
  exact ⟨net, _, builds⟩

end Graph

/-! ## Running -/

namespace Graph

variable {graph : Graph} {settings : EngineConfig} {trace : List String}

/-- A run of an acyclic marked graph does each transition once, after those that it depends
on. -/
theorem Course.arranged (course : graph.Course settings trace) (marked : graph.net.MarkedGraph rank)
    (seeded : graph.net.Seeded) (distinct : graph.net.nodes.Nodup) :
    trace.Perm graph.net.transitions.names ∧
      Arranged (Relation.TransGen graph.net.Feeds) trace := by
  unfold Course at course
  split at course
  · exact ⟨course.1.perm marked seeded, marked.arranged seeded course.1.fireable⟩
  · obtain ⟨order, found, rfl, -⟩ := course
    have region := Net.regionOrder_spec marked.plain distinct found
    exact ⟨region.perm_transitions marked, region.arranged marked⟩

/-- A run of an acyclic marked graph has a course, when it may fire often enough and its tasks may
take any time. -/
theorem exists_course (marked : graph.net.MarkedGraph rank) (seeded : graph.net.Seeded)
    (distinct : graph.net.nodes.Nodup) (patient : settings.taskTimeout = none)
    (enough : graph.net.transitions.size ≤ settings.maxFirings) :
    ∃ trace, graph.Course settings trace := by
  unfold Course
  split
  · obtain ⟨trace, exhausts⟩ := marked.exists_exhausts seeded
    refine ⟨trace, exhausts, ?_, fun _ _ => by rw [patient]; rfl⟩
    have size : graph.net.transitions.names.length = graph.net.transitions.size :=
      List.length_map ..
    have bound := marked.length_le_of_fireable seeded exhausts.fireable
    omega
  · obtain ⟨order, found⟩ := Net.regionOrder_of_ascending marked.plain distinct marked.ascending
      graph.net.entryPlaces_subset_nodes
    exact ⟨_, order, found, rfl, by rw [patient, Circuit.spendAll_none]; rfl⟩

end Graph

/-- The transitions can be put in an order that suits what depends on what. -/
theorem FeedForward.exists_order (feed : FeedForward cards connections)
    (draws : net.Draws cards connections channel connections) :
    ∃ order, order.Perm net.transitions.names ∧
      Arranged (Relation.TransGen net.Feeds) order := by
  obtain ⟨rank, marked⟩ := feed.exists_markedGraph draws
  obtain ⟨order, found⟩ := Net.regionOrder_of_ascending marked.plain draws.nodup_nodes
    marked.ascending net.entryPlaces_subset_nodes
  have region := Net.regionOrder_spec marked.plain draws.nodup_nodes found
  exact ⟨_, region.perm_transitions marked, region.arranged marked⟩

/-- When transitions are done in an order that suits what depends on what, the board that they
leave does not depend on the order. -/
theorem Circuit.Draws.playAll_eq (draws : net.Draws cards connections channel laid)
    (distinct : DistinctNames cards connections) (slots : DistinctSlots cards)
    (functions : ∀ card ∈ cards, ∃ run, card.work = .function run)
    (marked : net.MarkedGraph rank) {first second : List String}
    (left : Arranged (Relation.TransGen net.Feeds) first)
    (right : Arranged (Relation.TransGen net.Feeds) second)
    (all : first.Perm net.transitions.names) (perm : first.Perm second) (board : Board) :
    net.playAll first board = net.playAll second board := by
  refine left.foldlM_eq right perm ?_ board
  intro item member other others differ forth back state
  obtain ⟨one, foundOne⟩ := Registry.exists_get?_of_mem_names (all.mem_iff.mp member)
  obtain ⟨two, foundTwo⟩ := Registry.exists_get?_of_mem_names (all.mem_iff.mp others)
  have playOne : ∀ state, net.play item state = one.play state := fun state => by
    rw [Circuit.play, foundOne, Option.bind_some]
  have playTwo : ∀ state, net.play other state = two.play state := fun state => by
    rw [Circuit.play, foundTwo, Option.bind_some]
  have apart := draws.actions_apart distinct slots marked foundOne foundTwo differ forth back
  simp only [playOne, playTwo]
  exact Action.play_comm (draws.functional functions foundOne) (draws.functional functions foundTwo)
    apart state

end CardNet
