import CardNet.Proofs.Graph.FailedEdits
import CardNet.Proofs.Graph.Outlets
import CardNet.Proofs.Graph.Rebuilding

/-!
# The plans that a graph has

However a graph was built, edited and run: its transitions call cards of the graph, split, or carry
values over (`Bench.Reached.staffed`), and in function mode a plan that it has is the plan of its
present circuit, as are the plans of the entry places (`Bench.Reached.current`). An edit after
which plans cannot be made leaves none behind. The mode of a graph matters for its plans only
(`Graph.build_function`).
-/

namespace CardNet

/-! ## What transitions do -/

/-- What a transition of a graph may do: call one of the cards, split, or carry a value over. -/
def Action.Serves (cards : List Card) (channel : Nat) (action : Action) : Prop :=
  action = .split ∨ (∃ source target, action = .transfer source target) ∨
    ∃ card ∈ cards, action = card.action channel

/-- A graph whose transitions serve its cards. -/
def Graph.Staffed (graph : Graph) : Prop :=
  ∀ id action, graph.net.transitions.get? id = some action →
    action.Serves graph.cards graph.channel

/-- The edits for cards and connections bring no other transitions. -/
theorem Action.serves_of_brings {cards : List Card} {connections : List Connection} {channel : Nat}
    {edit : Edit} (member : edit ∈ drafts cards connections channel) {id : String}
    {action : Action} (brought : edit.brings? = some (.transition id, .transition action)) :
    action.Serves cards channel := by
  rcases mem_drafts.mp member with ⟨card, known, brings⟩ | ⟨connection, -, parties, -, brings⟩
  · cases brings <;> cases brought
    exact .inr (.inr ⟨card, known, rfl⟩)
  · cases brings <;> cases brought
    · exact .inl rfl
    · exact .inr (.inl ⟨_, _, rfl⟩)

namespace Graph

variable {graph other : Graph}

theorem Built.staffed {cards : List Card} {connections : List Connection} {channel : Nat}
    (built : graph.Built cards connections channel) : graph.Staffed := by
  intro id action found
  obtain ⟨edit, member, brought⟩ :=
    built.exists_draft (Circuit.fixture?_transition_eq_some.mpr found)
  rw [built.cards_eq, built.channel_eq]
  exact Action.serves_of_brings member brought

/-- Without some of its transitions a graph is still staffed. -/
theorem Staffed.restrict (staffed : graph.Staffed) (cards : other.cards = graph.cards)
    (channel : other.channel = graph.channel)
    (kept : ∀ id action, other.net.transitions.get? id = some action →
      graph.net.transitions.get? id = some action) : other.Staffed := by
  intro id action found
  rw [cards, channel]
  exact staffed id action (kept id action found)

/-- The transitions of function cards do no scripted work. -/
theorem Staffed.functional (staffed : graph.Staffed)
    (functions : ∀ card ∈ graph.cards, ∃ run, card.work = .function run) :
    graph.net.Functional := by
  intro id action found
  rcases staffed id action found with rfl | ⟨source, target, rfl⟩ | ⟨card, known, rfl⟩
  · trivial
  · trivial
  · obtain ⟨run, work⟩ := functions card known
    exact card.functional_action work graph.channel

/-- The transitions of a graph call no other cards than its own. -/
theorem Staffed.mem_cards (staffed : graph.Staffed) {id : String} {action : Action}
    (found : graph.net.transitions.get? id = some action) {card : Card}
    (calls : action.card? = some card) : card ∈ graph.cards := by
  rcases staffed id action found with rfl | ⟨source, target, rfl⟩ | ⟨called, known, rfl⟩
  · cases calls
  · cases calls
  · rw [Card.card?_action] at calls
    exact Option.some.inj calls ▸ known

/-! ## Which plans there are -/

/-- The plans of the entry places, in order. -/
def closures (graph : Graph) : List Plan := graph.net.entryPlaces.filterMap graph.paths.get?

/-- In function mode a plan is that of the entry places of the circuit as it is, and there are the
plans of the entry places one by one. -/
def Current (graph : Graph) : Prop :=
  graph.mode = .function → ∀ plan, graph.plan = some plan → graph.net.entryPlaces ≠ [] ∧
    Plan.ofEntries graph.net graph.net.entryPlaces = .ok plan ∧
    pathsOf graph.net graph.net.entryPlaces .empty = (.ok (), graph.paths)

theorem pathsOf_of_bare {first second : Circuit} (same : first.bare = second.bare) :
    pathsOf first = pathsOf second := by
  funext entries paths
  induction entries generalizing paths with
  | nil => rfl
  | cons entry rest ih => simp only [pathsOf, Plan.ofEntries_of_bare same, ih]

/-- A graph with the same nodes and arcs and the same plans is as current. -/
theorem Current.congr (current : graph.Current) (net : other.net.bare = graph.net.bare)
    (mode : other.mode = graph.mode) (paths : other.paths = graph.paths)
    (plan : other.plan = graph.plan) : other.Current := by
  unfold Current
  rw [mode, paths, plan, Net.entryPlaces_of_bare net, Plan.ofEntries_of_bare net,
    pathsOf_of_bare net]
  exact current

/-- Plans that were just made are current. -/
theorem current_recompile (graph : Graph) : graph.recompile.2.Current := by
  intro function
  obtain ⟨paths, plan, same⟩ := recompile_frame (rfl : graph.recompile = _)
  have frame : graph.recompile.2 = { graph with paths := paths, plan := plan } := same
  have mode : graph.mode = .function := by rwa [frame] at function
  rw [recompile_function mode]
  unfold compile
  dsimp only
  split
  · exact nofun
  · next paths made =>
      split
      · exact nofun
      · next some' =>
          split
          · exact nofun
          · next plan found =>
              rintro _ ⟨⟩
              exact ⟨fun none => some' (List.isEmpty_iff.mpr none), found, made⟩

/-- What stands under an entry place after its plan was made. -/
theorem get?_pathsOf {net : Circuit} {entries : List String} {paths all : Registry Plan}
    (made : pathsOf net entries paths = (.ok (), all)) (name : String) : all.get? name =
      if name ∈ entries then (Plan.ofEntries net [name]).toOption else paths.get? name := by
  induction entries generalizing paths with
  | nil =>
      cases made
      rfl
  | cons entry rest ih =>
      unfold pathsOf at made
      split at made
      · next plan own =>
          rw [ih made, Registry.get?_insert]
          by_cases same : name = entry
          · simp [same, own, Except.toOption]
          · simp [same]
      · cases made

namespace Current

variable (current : graph.Current) (function : graph.mode = .function) {plan : Plan}
  (planned : graph.plan = some plan)
include current function planned

/-- A plan of the entry places one by one is the plan of one of them. -/
theorem mem_closures {closure : Plan} : closure ∈ graph.closures ↔
    ∃ entry ∈ graph.net.entryPlaces, Plan.ofEntries graph.net [entry] = .ok closure := by
  obtain ⟨-, -, made⟩ := current function plan planned
  rw [closures, List.mem_filterMap]
  refine exists_congr fun entry => and_congr_right fun member => ?_
  rw [get?_pathsOf made, if_pos member]
  cases Plan.ofEntries graph.net [entry] <;> simp [Except.toOption]

/-- Every entry place has a plan. -/
theorem exists_closure {entry : String} (member : entry ∈ graph.net.entryPlaces) :
    ∃ closure, Plan.ofEntries graph.net [entry] = .ok closure := by
  obtain ⟨-, -, made⟩ := current function plan planned
  exact (pathsOf_eq_ok .empty).mp (congrArg Prod.fst made) entry member

end Current

end Graph

namespace Bench

variable {bench after : Bench} {connection : Connection}

theorem graph_alerted (bench : Bench) (connection : Connection) :
    (bench.alerted connection).graph =
      { bench.graph with subscriptions := (bench.alerted connection).graph.subscriptions } := by
  unfold alerted
  split
  · split
    · exact bench.graph_listen _ _
    · rfl
  · rfl

/-- Adding a connection, with or without success, leaves a graph staffed. -/
theorem staffed_connect (seated : bench.graph.Seated) (staffed : bench.graph.Staffed)
    (connection : Connection) : (bench.connect connection).2.graph.Staffed := by
  rcases connected : bench.connect connection with ⟨failure | id, after⟩
  · obtain ⟨-, rfl⟩ := connect_error seated connected
    rw [graph_alerted]
    exact staffed
  · obtain ⟨-, grown, warnings, grows, rfl⟩ := grows_of_connect connected
    have cards : grown.graph.cards = bench.graph.cards := by rw [grows.graph]
    have channel : grown.graph.channel = bench.graph.channel := by rw [grows.graph]
    intro id action found
    have held := Circuit.fixture?_transition_eq_some.mpr found
    change action.Serves grown.graph.cards grown.graph.channel
    rw [cards, channel]
    rcases grows.net.of_held held with old | ⟨edit, member, brought⟩
    · exact staffed id action (Circuit.fixture?_transition_eq_some.mp old)
    · exact Action.serves_of_brings
        (mem_drafts_of_draft (List.mem_singleton_self connection) member) brought

theorem staffed_recompile (staffed : bench.graph.Staffed) : bench.recompile.2.graph.Staffed := by
  obtain ⟨paths, plan, same⟩ := Graph.recompile_frame (rfl : bench.graph.recompile = _)
  have frame : bench.recompile.2.graph = { bench.graph with paths := paths, plan := plan } := same
  rw [frame]
  exact staffed

theorem staffed_addConnection (seated : bench.graph.Seated) (staffed : bench.graph.Staffed)
    (connection : Connection) : (bench.addConnection connection).2.graph.Staffed := by
  have connected := staffed_connect seated staffed connection
  unfold addConnection
  split
  · next same => rwa [same] at connected
  · next same => exact staffed_recompile (by rwa [same] at connected)

theorem staffed_removeConnection (staffed : bench.graph.Staffed) (id : String) :
    (bench.removeConnection id).2.graph.Staffed := by
  unfold removeConnection
  split
  · exact staffed
  · refine staffed_recompile ?_
    rw [graph_uproot]
    exact staffed.restrict rfl rfl fun id action => Circuit.get?_uprooted

theorem current_addConnection (seated : bench.graph.Seated) (current : bench.graph.Current)
    (connection : Connection) : (bench.addConnection connection).2.graph.Current := by
  unfold addConnection
  split
  · next failure after stopped =>
      obtain ⟨-, rfl⟩ := connect_error seated stopped
      rw [graph_alerted]
      exact current
  · exact Graph.current_recompile _

theorem current_removeConnection (current : bench.graph.Current) (id : String) :
    (bench.removeConnection id).2.graph.Current := by
  unfold removeConnection
  split
  · exact current
  · exact Graph.current_recompile _

/-- The transitions of a graph that can be reached call its cards, split, or carry values over. -/
theorem Reached.staffed (reached : bench.Reached) : bench.graph.Staffed := by
  induction reached with
  | build built => exact (Graph.built_of_build built).1.staffed
  | add connection before ih => exact staffed_addConnection before.seated ih connection
  | remove id _ ih => exact staffed_removeConnection ih id
  | run board same _ ih =>
      exact ih.restrict rfl rfl fun id action => by rw [Net.transitions_of_bare same]; exact fun h => h

/-- The plans of a graph that can be reached are those of its circuit. -/
theorem Reached.current (reached : bench.Reached) : bench.graph.Current := by
  induction reached with
  | @build _ _ _ _ _ _ graph built =>
      have current := graph.current_recompile
      rwa [Graph.planned_of_build built] at current
  | add connection before ih => exact current_addConnection before.seated ih connection
  | remove id _ ih => exact current_removeConnection ih id
  | run board same _ ih => exact ih.congr same rfl rfl rfl

end Bench

/-! ## The mode of a graph -/

/-- A graph on its board, to be run in another mode. -/
def Bench.inMode (bench : Bench) (mode : Mode) : Bench :=
  { bench with graph := { bench.graph with mode := mode } }

theorem Edit.apply_inMode (edit : Edit) (bench : Bench) (mode : Mode) :
    edit.apply (bench.inMode mode) = (edit.apply bench).map fun after => after.inMode mode := by
  have net : ∀ made : Except Failure Circuit, (bench.inMode mode).withNet made =
      (bench.withNet made).map fun after => after.inMode mode := fun made => by
    cases made <;> rfl
  cases edit with
  | listen card anchor =>
      refine congrArg Except.ok ?_
      unfold Bench.listen Board.subscribe
      change (if bench.graph.subscriptions.contains _ then bench.inMode mode else _) = _
      split
      · rfl
      · cases anchor.listens <;> rfl
  | _ => exact net _

namespace Bench

theorem applyAll_inMode (bench : Bench) (mode : Mode) (edits : List Edit) :
    (bench.inMode mode).applyAll edits =
      ((bench.applyAll edits).1, (bench.applyAll edits).2.inMode mode) := by
  induction edits generalizing bench with
  | nil => rfl
  | cons edit rest ih =>
      rw [applyAll, applyAll, Edit.apply_inMode]
      cases edit.apply bench with
      | ok after => exact ih after
      | error failure => rfl

theorem connect_inMode (bench : Bench) (mode : Mode) (connection : Connection) :
    (bench.inMode mode).connect connection =
      ((bench.connect connection).1, (bench.connect connection).2.inMode mode) := by
  unfold connect
  dsimp only
  rw [show (bench.inMode mode).graph.cards = bench.graph.cards from rfl]
  cases connection.parties bench.graph.cards with
  | error reason => rfl
  | ok parties =>
      simp only
      rw [show (bench.inMode mode).graph.channel = bench.graph.channel from rfl, applyAll_inMode]
      rcases bench.applyAll (connection.layout parties bench.graph.channel) with
        ⟨failure | _, after⟩ <;> rfl

theorem connectAll_inMode (bench : Bench) (mode : Mode) (connections : List Connection) :
    (bench.inMode mode).connectAll connections =
      ((bench.connectAll connections).1, (bench.connectAll connections).2.inMode mode) := by
  induction connections generalizing bench with
  | nil => rfl
  | cons connection rest ih =>
      rw [connectAll, connectAll, connect_inMode]
      rcases bench.connect connection with ⟨failure | id, after⟩
      · rfl
      · exact ih after

/-- Laying out a graph for function mode comes down to laying it out for visual mode and making the
plans. -/
theorem construct_inMode {bench after : Bench} {connections : List Connection}
    (visual : bench.graph.mode = .visual)
    (constructed : bench.construct connections = (.ok (), after)) :
    (bench.inMode .function).construct connections = (after.inMode .function).recompile := by
  unfold construct at constructed ⊢
  rw [connectAll_inMode]
  rcases connected : bench.connectAll connections with ⟨failure | _, middle⟩
  · rw [connected] at constructed
    cases constructed
  · have mode : middle.graph.mode = .visual := by
      obtain ⟨grown, warnings, grows, rfl⟩ := grows_of_connectAll connected
      have frame : grown.graph.mode = bench.graph.mode := by rw [grows.graph]
      exact frame.trans visual
    rw [connected] at constructed
    dsimp only at constructed ⊢
    rw [show (middle.inMode .function).graph.cards = middle.graph.cards from rfl,
      show (middle.inMode .function).graph.channel = middle.graph.channel from rfl,
      applyAll_inMode]
    rcases applied : middle.applyAll (middle.graph.cards.flatMap fun card =>
        card.blueprint middle.graph.channel) with ⟨failure | _, laid⟩
    · rw [applied] at constructed
      cases constructed
    · rw [applied] at constructed ⊢
      have still : laid.seed.graph.mode = .visual := by
        have frame : laid.graph.mode = middle.graph.mode := by rw [(grows_of_applyAll applied).graph]
        exact frame.trans mode
      dsimp only at constructed
      rw [recompile, Graph.recompile_visual still] at constructed
      cases constructed
      rfl

end Bench

/-- The mode of a graph matters for its plans only. -/
theorem Graph.build_function {config : GraphConfig} {cards : List Card} {globals : Option Values}
    {board after : Board} {graph planned : Graph}
    (built : build .visual config cards globals board = (.ok graph, after))
    (made : compile { graph with mode := .function } = (.ok (), planned)) :
    build .function config cards globals board = (.ok planned, after) := by
  unfold build at built ⊢
  split at built
  · cases built
  · next net created =>
      dsimp only at built ⊢
      split at built
      · next bench constructed =>
          cases built
          have function := Bench.construct_inMode rfl constructed
          have compiled : (bench.inMode .function).recompile =
              (.ok (), ⟨planned, bench.board⟩) := by
            rw [Bench.recompile, Graph.recompile_function rfl]
            exact congrArg (fun done : Except Failure Unit × Graph =>
              (done.1, Bench.mk done.2 bench.board)) made
          have whole : Bench.construct ⟨blank .function net cards board.allocate.1 globals.isSome, _⟩
              config.connections = (.ok (), ⟨planned, bench.board⟩) := function.trans compiled
          rw [whole]
      · cases built

end CardNet
