import CardNet.Proofs.Graph.Merging
import CardNet.Proofs.Graph.Planning

/-!
# Graphs under restraint

A restraint says which transitions may fire and for which ones plans may act. A graph heeds it when
its circuit has no others and no plan of it acts for others (`Graph.Heeds`). Building and editing a
graph, with or without success, keeps to a restraint that bars at most transfers, as long as no
connection is laid out whose transfer it bars (`Bench.heeds_addConnection`, `Graph.heeds_of_build`).
Once a connection was taken out, the graph has nothing more to do with its transfer
(`Bench.heeds_of_removal`).
-/

namespace CardNet

/-- Which transitions may fire, and for which of them plans may act. -/
structure Restraint where
  fires : String → Prop
  acts : String → Prop

namespace Restraint

/-- Nothing is barred. -/
def free : Restraint := ⟨fun _ => True, fun _ => True⟩

/-- Any transition may fire, and plans act for none. -/
def unplanned : Restraint := ⟨fun _ => True, fun _ => False⟩

/-- One transition is barred. -/
def without (id : String) : Restraint := ⟨(· ≠ id), (· ≠ id)⟩

/-- Where there are plans, they may act for whatever may fire. -/
def Fits (restraint : Restraint) (mode : Mode) : Prop :=
  mode = .function → ∀ id, restraint.fires id → restraint.acts id

/-- No other transitions are barred than transfers. -/
structure Lenient (restraint : Restraint) : Prop where
  call : ∀ card : Card, restraint.fires card.internalTransition
  handOver : ∀ (connection : Connection) (source : Anchor),
    restraint.fires (connection.handOver source)

theorem lenient_free : free.Lenient := ⟨fun _ => trivial, fun _ _ => trivial⟩

theorem lenient_unplanned : unplanned.Lenient := ⟨fun _ => trivial, fun _ _ => trivial⟩

theorem lenient_without (connection : Connection) : (without connection.transfer).Lenient where
  call := fun card => card.internalTransition_ne_transfer connection
  handOver := fun other source => (other.transfer_ne_handOver source connection).symm

theorem fits_free (mode : Mode) : free.Fits mode := fun _ _ _ => trivial

theorem fits_unplanned : unplanned.Fits .visual := nofun

theorem fits_without (id : String) (mode : Mode) : (without id).Fits mode := fun _ _ fires => fires

end Restraint

/-- A step of a plan acts for no transition that is barred. -/
def PlanStep.Heeds (restraint : Restraint) : PlanStep → Prop
  | act id _ => restraint.acts id
  | read _ _ => True

def Plan.Heeds (plan : Plan) (restraint : Restraint) : Prop :=
  ∀ step ∈ plan.steps, step.Heeds restraint

namespace Plan

variable {net : Circuit} {restraint : Restraint}

/-- Steps that carry out a path do what transitions of the circuit do. -/
theorem CarryOut.get?_of_act {steps : List PlanStep} {path : List String}
    (left : CarryOut net path steps) {id : String} {action : Action}
    (member : .act id action ∈ steps) : net.transitions.get? id = some action := by
  induction steps generalizing path with
  | nil => cases member
  | cons first rest ih =>
      obtain ⟨later, others, leads⟩ := left.cons
      rcases List.mem_cons.mp member with rfl | inRest
      · exact leads.1
      · exact ih others inRest

theorem get?_of_ofEntries {entries : List String} {plan : Plan}
    (made : ofEntries net entries = .ok plan) {id : String} {action : Action}
    (member : .act id action ∈ plan.steps) : net.transitions.get? id = some action := by
  obtain ⟨order, -, walked⟩ := ofEntries_eq_ok made
  exact CarryOut.get?_of_act (ofPath_eq_ok walked) member

theorem heeds_of_ofEntries {entries : List String} {plan : Plan}
    (made : ofEntries net entries = .ok plan)
    (may : ∀ id ∈ net.transitions.names, restraint.acts id) : plan.Heeds restraint := by
  intro step member
  cases step with
  | act id action => exact may id (Registry.mem_names_of_get? (get?_of_ofEntries made member))
  | read id content => trivial

end Plan

namespace Graph

/-- A plan is one of those of the graph. -/
def Offers (graph : Graph) (plan : Plan) : Prop :=
  graph.plan = some plan ∨ ∃ id, graph.paths.get? id = some plan

/-- A graph has no transition that is barred, and its plans act for none; there are plans in function
mode only. -/
structure Heeds (graph : Graph) (restraint : Restraint) : Prop where
  fits : restraint.Fits graph.mode
  net : ∀ id ∈ graph.net.transitions.names, restraint.fires id
  plans : ∀ plan, graph.Offers plan → plan.Heeds restraint
  unplanned : graph.mode = .visual → ∀ plan, ¬graph.Offers plan

variable {graph : Graph} {restraint : Restraint}

/-- Tokens do not matter for restraints. -/
theorem Heeds.of_net (heeds : graph.Heeds restraint) {net : Circuit}
    (same : net.bare = graph.net.bare) : Heeds { graph with net := net } restraint where
  fits := heeds.fits
  net := by
    rw [Net.transitions_of_bare same]
    exact heeds.net
  plans := heeds.plans
  unplanned := heeds.unplanned

/-! ## Making plans -/

theorem made_of_pathsOf {net : Circuit} {entries : List String} {paths : Registry Plan}
    {id : String} {plan : Plan} (found : (pathsOf net entries paths).2.get? id = some plan) :
    paths.get? id = some plan ∨ Plan.ofEntries net [id] = .ok plan := by
  induction entries generalizing paths with
  | nil => exact .inl found
  | cons entry rest ih =>
      unfold pathsOf at found
      split at found
      · next own made =>
          rcases ih found with before | later
          · rw [Registry.get?_insert] at before
            split at before
            · next same =>
                cases before
                exact .inr (same ▸ made)
            · exact .inl before
          · exact .inr later
      · exact .inl found

/-- Plans that are made are plans of entries of the circuit, in whatever way that ends. -/
theorem made_of_compile {plan : Plan} (offers : graph.compile.2.Offers plan) :
    ∃ starts, Plan.ofEntries graph.net starts = .ok plan := by
  have own : ∀ id, (pathsOf graph.net graph.net.entryPlaces .empty).2.get? id = some plan →
      ∃ starts, Plan.ofEntries graph.net starts = .ok plan :=
    fun id found => ⟨[id], (made_of_pathsOf found).resolve_left nofun⟩
  unfold compile at offers
  dsimp only at offers
  split at offers
  · next reason made stopped =>
      rw [stopped] at own
      exact offers.elim nofun fun ⟨id, found⟩ => own id found
  · next made done =>
      rw [done] at own
      split at offers
      · exact offers.elim nofun fun ⟨id, found⟩ => own id found
      · split at offers
        · exact offers.elim nofun fun ⟨id, found⟩ => own id found
        · next common planned =>
            rcases offers with same | ⟨id, found⟩
            · cases same
              exact ⟨_, planned⟩
            · exact own id found

/-- The plans of a graph after they were to be made again are made of its circuit, or were there
before. -/
theorem made_of_recompile {plan : Plan} (offers : graph.recompile.2.Offers plan) :
    graph.Offers plan ∨ ∃ starts, Plan.ofEntries graph.net starts = .ok plan := by
  cases mode : graph.mode with
  | visual =>
      rw [recompile_visual mode] at offers
      exact .inl offers
  | function =>
      rw [recompile_function mode] at offers
      exact .inr (made_of_compile offers)

/-- Making the plans again keeps to a restraint that the circuit heeds, whatever the plans were
before. -/
theorem heeds_recompile (fits : restraint.Fits graph.mode)
    (net : ∀ id ∈ graph.net.transitions.names, restraint.fires id)
    (unplanned : graph.mode = .visual → ∀ plan, ¬graph.Offers plan) :
    graph.recompile.2.Heeds restraint := by
  obtain ⟨paths, plan, same⟩ := recompile_frame (rfl : graph.recompile = _)
  have frame : graph.recompile.2 = { graph with paths := paths, plan := plan } := same
  have idle : graph.mode = .visual → ∀ plan, ¬graph.recompile.2.Offers plan := by
    intro mode
    rw [recompile_visual mode]
    exact unplanned mode
  refine ⟨by rw [frame]; exact fits, by rw [frame]; exact net, fun plan offers => ?_, ?_⟩
  · cases mode : graph.mode with
    | visual => exact absurd offers (idle mode plan)
    | function =>
        rw [recompile_function mode] at offers
        obtain ⟨starts, made⟩ := made_of_compile offers
        exact Plan.heeds_of_ofEntries made fun id member => fits mode id (net id member)
  · rw [frame] at idle ⊢
    exact idle

theorem Heeds.recompile (heeds : graph.Heeds restraint) : graph.recompile.2.Heeds restraint :=
  heeds_recompile heeds.fits heeds.net heeds.unplanned

end Graph

namespace Bench

variable {bench after : Bench} {restraint : Restraint}

/-! ## Adding connections -/

/-- Edits that are made up to the first that fails have the effect of those that were made. -/
theorem exists_grows (bench : Bench) (edits : List Edit) :
    ∃ done, (∀ edit ∈ done, edit ∈ edits) ∧ bench.Grows done (bench.applyAll edits).2 := by
  induction edits generalizing bench with
  | nil => exact ⟨[], List.forall_mem_nil _, .refl bench⟩
  | cons edit rest ih =>
      rw [applyAll]
      split
      · next middle applied =>
          obtain ⟨done, among, grows⟩ := ih middle
          refine ⟨edit :: done, ?_, (grows_of_apply applied).trans grows⟩
          intro other member
          rcases List.mem_cons.mp member with rfl | inRest
          · exact List.mem_cons_self
          · exact List.mem_cons_of_mem _ (among other inRest)
      · exact ⟨[], List.forall_mem_nil _, .refl bench⟩

/-- Edits that bring no barred transition keep to a restraint. -/
theorem heeds_applyAll (heeds : bench.graph.Heeds restraint) {edits : List Edit}
    (may : ∀ id action, .transition id action ∈ edits → restraint.fires id) :
    (bench.applyAll edits).2.graph.Heeds restraint := by
  obtain ⟨done, among, grows⟩ := bench.exists_grows edits
  rw [grows.graph]
  refine ⟨heeds.fits, fun id member => ?_, heeds.plans, heeds.unplanned⟩
  obtain ⟨action, found⟩ := Registry.exists_get?_of_mem_names member
  rcases grows.net.of_held (Circuit.fixture?_transition_eq_some.mpr found) with
    old | ⟨edit, made, brought⟩
  · exact heeds.net id (Circuit.mem_transitions_of_held old)
  · cases edit with
    | transition name held =>
        cases brought
        exact may _ _ (among _ made)
    | _ => cases brought

theorem fires_of_card (lenient : restraint.Lenient) {card : Card} {channel : Nat} {id : String}
    {action : Action} (brings : card.Brings channel (.transition id action)) :
    restraint.fires id := by
  cases brings
  exact lenient.call card

/-- A connection that is laid out keeps to a restraint that does not bar its transfer. -/
theorem heeds_connect (heeds : bench.graph.Heeds restraint) (lenient : restraint.Lenient)
    {connection : Connection} (may : restraint.fires connection.transfer) :
    (bench.connect connection).2.graph.Heeds restraint := by
  unfold connect
  dsimp only
  split
  · exact ⟨heeds.fits, heeds.net, heeds.plans, heeds.unplanned⟩
  · next parties found =>
      have laid : (bench.applyAll (connection.layout parties bench.graph.channel)).2.graph.Heeds
          restraint := by
        apply heeds_applyAll heeds
        intro id action member
        rw [Connection.layout, List.mem_append, List.mem_append, Card.mem_blueprint,
          Card.mem_blueprint, Connection.mem_blueprint] at member
        rcases member with (own | ofSource) | ofTarget
        · cases own with
          | handOver => exact lenient.handOver connection parties.source
          | transfer => exact may
        · exact fires_of_card lenient ofSource
        · exact fires_of_card lenient ofTarget
      split
      · next failure after failed =>
          rw [failed] at laid
          exact laid
      · next after done =>
          rw [done] at laid
          exact ⟨laid.fits, laid.net, laid.plans, laid.unplanned⟩

theorem heeds_connectAll (heeds : bench.graph.Heeds restraint) (lenient : restraint.Lenient)
    {connections : List Connection}
    (may : ∀ connection ∈ connections, restraint.fires connection.transfer) :
    (bench.connectAll connections).2.graph.Heeds restraint := by
  induction connections generalizing bench with
  | nil => exact heeds
  | cons connection rest ih =>
      have connected := heeds_connect heeds lenient (may connection List.mem_cons_self)
      rw [connectAll]
      split
      · next id after done =>
          rw [done] at connected
          exact ih connected fun other member => may other (List.mem_cons_of_mem _ member)
      · next failure after failed =>
          rw [failed] at connected
          exact connected

theorem heeds_addConnection (heeds : bench.graph.Heeds restraint) (lenient : restraint.Lenient)
    {connection : Connection} (may : restraint.fires connection.transfer) :
    (bench.addConnection connection).2.graph.Heeds restraint := by
  have connected := heeds_connect heeds lenient may
  unfold addConnection
  split
  · next failure after failed =>
      rw [failed] at connected
      exact connected
  · next id after done =>
      rw [done] at connected
      exact connected.recompile

/-! ## Removing connections -/

/-- Taking a connection out leaves no transitions but those that were there, and not its transfer. -/
theorem mem_transitions_uproot {connection : Connection} {id : String}
    (member : id ∈ (bench.uproot connection).graph.net.transitions.names) :
    id ∈ bench.graph.net.transitions.names ∧ id ≠ connection.transfer := by
  rw [graph_uproot] at member
  obtain ⟨action, found⟩ := Registry.exists_get?_of_mem_names member
  refine ⟨Registry.mem_names_of_get? (Circuit.get?_uprooted found), ?_⟩
  rintro rfl
  have bared : (bench.graph.net.bared connection).transitions.get? connection.transfer = none := by
    rw [Circuit.bared, Net.transitions_removePlace, Net.transitions_removeTransition,
      Registry.get?_erase, if_pos rfl]
  unfold Circuit.uprooted at found
  dsimp only at found
  split at found
  · rw [Net.transitions_removeTransition, Registry.get?_erase] at found
    split at found
    · cases found
    · cases bared.symm.trans found
  · cases bared.symm.trans found

theorem heeds_removeConnection (heeds : bench.graph.Heeds restraint) (id : String) :
    (bench.removeConnection id).2.graph.Heeds restraint := by
  unfold removeConnection
  split
  · exact heeds
  · next connection listed =>
      apply Graph.heeds_recompile
      · rw [graph_uproot]
        exact heeds.fits
      · exact fun other member => heeds.net other (mem_transitions_uproot member).1
      · rw [graph_uproot]
        exact heeds.unplanned

/-- A graph from which a connection was taken out has nothing more to do with its transfer. -/
theorem heeds_of_removal (heeds : bench.graph.Heeds restraint) {id : String}
    {connection : Connection} (listed : bench.graph.connections.get? id = some connection) :
    (bench.removeConnection id).2.graph.Heeds (.without connection.transfer) := by
  unfold removeConnection
  rw [listed]
  apply Graph.heeds_recompile (Restraint.fits_without _ _)
  · exact fun other member => (mem_transitions_uproot member).2
  · rw [graph_uproot]
    exact heeds.unplanned

end Bench

/-! ## Building -/

theorem Bench.heeds_construct {restraint : Restraint} {bench : Bench}
    (heeds : bench.graph.Heeds restraint) (lenient : restraint.Lenient)
    {connections : List Connection}
    (may : ∀ connection ∈ connections, restraint.fires connection.transfer) :
    (bench.construct connections).2.graph.Heeds restraint := by
  have connects := heeds_connectAll heeds lenient may
  unfold construct
  split
  · next failure middle stopped =>
      rw [stopped] at connects
      exact connects
  · next middle connected =>
      rw [connected] at connects
      have laid : (middle.applyAll (middle.graph.cards.flatMap fun card =>
          card.blueprint middle.graph.channel)).2.graph.Heeds restraint := by
        apply heeds_applyAll connects
        intro id action member
        obtain ⟨card, -, brings⟩ := List.mem_flatMap.mp member
        exact fires_of_card lenient (Card.mem_blueprint.mp brings)
      dsimp only
      split
      · next failure whole stopped =>
          rw [stopped] at laid
          exact laid
      · next whole applied =>
          rw [applied] at laid
          have seeded : whole.seed.graph.Heeds restraint := by
            apply laid.of_net
            exact Net.bare_seedAll whole.graph.net whole.graph.net.seedPlaces
          exact seeded.recompile

/-- A graph without connections does nothing for any transition. -/
theorem Graph.heeds_blank {restraint : Restraint} {mode : Mode} (fits : restraint.Fits mode)
    (name : String) (cards : List Card) (channel : Nat) (supplies : Bool) :
    (Graph.blank mode ⟨name, .empty, .empty, .empty, .empty, .empty⟩ cards channel
      supplies).Heeds restraint := by
  have planless : ∀ plan, ¬(Graph.blank mode ⟨name, .empty, .empty, .empty, .empty, .empty⟩ cards
      channel supplies).Offers plan := by
    rintro plan (whole | ⟨entry, path⟩)
    · cases whole
    · cases path
  refine ⟨fits, fun id member => ?_, fun plan offers => (planless plan offers).elim,
    fun _ plan offers => (planless plan offers).elim⟩
  cases member

/-- A graph that is built keeps to a restraint that bars no transfer of its connections. -/
theorem Graph.heeds_of_build {restraint : Restraint} {mode : Mode} {config : GraphConfig}
    {cards : List Card} {globals : Option Values} {board after : Board} {graph : Graph}
    (built : Graph.build mode config cards globals board = (.ok graph, after))
    (fits : restraint.Fits mode) (lenient : restraint.Lenient)
    (may : ∀ connection ∈ config.connections, restraint.fires connection.transfer) :
    graph.Heeds restraint := by
  rw [Graph.build, create_eq] at built
  dsimp only at built
  split at built
  · next bench constructed =>
      cases built
      have start : (Bench.mk (Graph.blank mode ⟨s!"PetriNet_{config.name}", .empty, .empty, .empty,
          .empty, .empty⟩ cards board.nextSlot globals.isSome)
            (groundwork board globals)).graph.Heeds restraint :=
        heeds_blank fits _ _ _ _
      have heeds := Bench.heeds_construct start lenient may
      exact congrArg (fun done : Except Failure Unit × Bench => done.2.graph) constructed ▸ heeds
  · cases built

end CardNet
