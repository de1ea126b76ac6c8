import CardNet.Proofs.Graph.Renumbering
import CardNet.Proofs.Graph.Restraints
import CardNet.Proofs.Net.Relabelling

/-!
# Graphs on matching boards

A graph knows the number of its channel, which stands in the transitions that call cards without
inputs too, and the numbers of its subscriptions. With these replaced it is the same graph on a
board that matches (`Bench.Matches`): edits, and with them building, come to the same and leave such
graphs again.
-/

namespace CardNet

namespace Renumbering

variable (renumber : Renumbering)

def action : Action → Action
  | .start card channel => .start card (renumber.channel channel)
  | .split => .split
  | .transfer source target => .transfer source target
  | .call card => .call card
  | .scripted slot failOn move => .scripted slot failOn move

def step : PlanStep → PlanStep
  | .act id action => .act id (renumber.action action)
  | .read id content => .read id content

def plan (plan : Plan) : Plan := { plan with steps := plan.steps.map renumber.step }

def circuit (net : Circuit) : Circuit := net.mapActions renumber.action

def subscription (held : Subscription) : Subscription :=
  { held with number := renumber.number held.anchor.slot held.number }

def graph (graph : Graph) : Graph :=
  { graph with
    net := renumber.circuit graph.net
    paths := graph.paths.map fun _ => renumber.plan
    plan := graph.plan.map renumber.plan
    channel := renumber.channel graph.channel
    subscriptions := graph.subscriptions.map fun _ => renumber.subscription }

def edit : Edit → Edit
  | .transition id action => .transition id (renumber.action action)
  | edit => edit

end Renumbering

/-! ## What was given out -/

/-- An action looks at no channel that was not given out. -/
def Action.Within (extent : Extent) : Action → Prop
  | .start _ channel => channel < extent.slots
  | _ => True

def PlanStep.Within (extent : Extent) : PlanStep → Prop
  | .act _ action => action.Within extent
  | .read _ _ => True

def Plan.Within (plan : Plan) (extent : Extent) : Prop :=
  ∀ step ∈ plan.steps, step.Within extent

def Edit.Within (extent : Extent) : Edit → Prop
  | .transition _ action => action.Within extent
  | _ => True

/-- The numbers in a graph were given out. -/
structure Graph.Within (graph : Graph) (extent : Extent) : Prop where
  channel : graph.channel < extent.slots
  net : ∀ id action, graph.net.transitions.get? id = some action → action.Within extent
  plans : ∀ plan, graph.Offers plan → plan.Within extent
  subscriptions : ∀ held ∈ graph.subscriptions.values,
    held.number < extent.numbers held.anchor.slot

section

variable {renumber : Renumbering} {extent wider : Extent} {graph : Graph} {net : Circuit}

theorem Action.Within.mono {action : Action} (within : action.Within extent)
    (grows : extent ≤ wider) : action.Within wider := by
  cases action with
  | start card channel => exact Nat.lt_of_lt_of_le within grows.1
  | _ => trivial

theorem Edit.Within.mono {edit : Edit} (within : edit.Within extent) (grows : extent ≤ wider) :
    edit.Within wider := by
  cases edit with
  | transition id action => exact Action.Within.mono within grows
  | _ => trivial

theorem Plan.Within.mono {plan : Plan} (within : plan.Within extent) (grows : extent ≤ wider) :
    plan.Within wider := by
  intro step member
  cases step with
  | act id action => exact (within _ member).mono grows
  | read id content => trivial

theorem Graph.Within.mono (within : graph.Within extent) (grows : extent ≤ wider) :
    graph.Within wider where
  channel := Nat.lt_of_lt_of_le within.channel grows.1
  net := fun id action found => (within.net id action found).mono grows
  plans := fun plan offers => (within.plans plan offers).mono grows
  subscriptions := fun held member =>
    Nat.lt_of_lt_of_le (within.subscriptions held member) (grows.2 _)

/-- Tokens do not matter for what was given out. -/
theorem Graph.Within.of_transitions (within : graph.Within extent)
    (kept : ∀ id action, net.transitions.get? id = some action →
      graph.net.transitions.get? id = some action ∨ action.Within extent) :
    Graph.Within { graph with net := net } extent where
  channel := within.channel
  net := by
    intro id action found
    rcases kept id action found with before | new
    · exact within.net id action before
    · exact new
  plans := within.plans
  subscriptions := within.subscriptions

theorem Card.within_blueprint {card : Card} {channel : Nat} (known : channel < extent.slots) :
    ∀ edit ∈ card.blueprint channel, edit.Within extent := by
  intro edit member
  cases Card.mem_blueprint.mp member with
  | call =>
      change (card.action channel).Within extent
      unfold Card.action
      split
      · exact known
      · trivial
  | _ => trivial

theorem Connection.within_layout (connection : Connection) (parties : Parties) {channel : Nat}
    (known : channel < extent.slots) :
    ∀ edit ∈ connection.layout parties channel, edit.Within extent := by
  intro edit member
  simp only [layout, List.mem_append, Connection.mem_blueprint] at member
  rcases member with (own | ofSource) | ofTarget
  · cases own <;> trivial
  · exact Card.within_blueprint known edit ofSource
  · exact Card.within_blueprint known edit ofTarget

/-! ## Plans -/

theorem Plan.within_of_ofEntries {starts : List String} {plan : Plan}
    (made : Plan.ofEntries net starts = .ok plan)
    (within : ∀ id action, net.transitions.get? id = some action → action.Within extent) :
    plan.Within extent := by
  intro step member
  cases step with
  | act id action => exact within id action (Plan.get?_of_ofEntries made member)
  | read id content => trivial

theorem Graph.Within.recompile (within : graph.Within extent) :
    graph.recompile.2.Within extent := by
  obtain ⟨paths, plan, same⟩ := Graph.recompile_frame (rfl : graph.recompile = _)
  have frame : graph.recompile.2 = { graph with paths := paths, plan := plan } := same
  refine ⟨?_, ?_, fun plan offers => ?_, ?_⟩
  · rw [frame]
    exact within.channel
  · rw [frame]
    exact within.net
  · rcases Graph.made_of_recompile offers with before | ⟨starts, made⟩
    · exact within.plans plan before
    · exact Plan.within_of_ofEntries made within.net
  · rw [frame]
    exact within.subscriptions

private theorem mapM_map {α β ε γ : Type} (find : α → Except ε β) (change : β → γ)
    (items : List α) :
    items.mapM (fun item => (find item).map change) = (items.mapM find).map (List.map change) := by
  induction items with
  | nil => rfl
  | cons item rest ih =>
      rw [List.mapM_cons, List.mapM_cons, ih]
      cases find item with
      | error failure => rfl
      | ok found => cases rest.mapM find <;> rfl

theorem Plan.step?_circuit (id : String) : Plan.step? (renumber.circuit net) id =
    (Plan.step? net id).map (Option.map renumber.step) := by
  have found : (renumber.circuit net).transitions.get? id =
      (net.transitions.get? id).map renumber.action := Registry.get?_map ..
  have placed : (renumber.circuit net).place? id = net.place? id := rfl
  rw [Plan.step?, Plan.step?, found, placed]
  cases net.transitions.get? id with
  | some action => rfl
  | none =>
      cases net.place? id with
      | none => rfl
      | some place =>
          simp only [Option.map_none]
          cases place.content.filter Content.isReadable <;> rfl

theorem Plan.ofEntries_circuit (starts : List String) :
    Plan.ofEntries (renumber.circuit net) starts =
      (Plan.ofEntries net starts).map renumber.plan := by
  have order : (renumber.circuit net).regionOrder starts = net.regionOrder starts :=
    Net.regionOrder_mapActions ..
  rw [Plan.ofEntries, Plan.ofEntries, order]
  split
  · rfl
  · next path found =>
      rw [Plan.ofPath, Plan.ofPath, funext Plan.step?_circuit, mapM_map]
      cases path.mapM (Plan.step? net) with
      | error reason => rfl
      | ok steps =>
          simp only [Except.map, Renumbering.plan, List.filterMap_map, List.map_filterMap]
          rfl

theorem Graph.pathsOf_circuit (entries : List String) (paths : Registry Plan) :
    Graph.pathsOf (renumber.circuit net) entries (paths.map fun _ => renumber.plan) =
      ((Graph.pathsOf net entries paths).1,
        (Graph.pathsOf net entries paths).2.map fun _ => renumber.plan) := by
  induction entries generalizing paths with
  | nil => rfl
  | cons entry rest ih =>
      rw [Graph.pathsOf, Graph.pathsOf, Plan.ofEntries_circuit]
      cases Plan.ofEntries net [entry] with
      | error reason => rfl
      | ok plan =>
          have later := ih (paths.insert entry plan)
          rwa [← Registry.insert_map] at later

theorem Graph.recompile_graph : (renumber.graph graph).recompile =
    (graph.recompile.1, renumber.graph graph.recompile.2) := by
  have mode : (renumber.graph graph).mode = graph.mode := rfl
  rw [Graph.recompile, Graph.recompile, mode]
  split
  · rfl
  · have entries : (renumber.graph graph).net.entryPlaces = graph.net.entryPlaces := rfl
    have own : (renumber.graph graph).net = renumber.circuit graph.net := rfl
    have paths : Graph.pathsOf (renumber.circuit graph.net) graph.net.entryPlaces .empty = _ :=
      Graph.pathsOf_circuit graph.net.entryPlaces .empty
    rw [Graph.compile, Graph.compile, entries, own, paths]
    rcases Graph.pathsOf graph.net graph.net.entryPlaces .empty with ⟨reason | _, made⟩
    · rfl
    · dsimp only
      split
      · rfl
      · rw [Plan.ofEntries_circuit]
        cases Plan.ofEntries graph.net graph.net.entryPlaces <;> rfl

/-! ## Edits -/

theorem Edit.change_circuit (edit : Edit) :
    (renumber.edit edit).change (renumber.circuit net) =
      (edit.change net).map renumber.circuit := by
  have bind : ∀ id content wanted, (renumber.circuit net).bindPlace id content wanted =
      (net.bindPlace id content wanted).map renumber.circuit := by
    intro id content wanted
    have placed : (renumber.circuit net).place? id = net.place? id := rfl
    have added := Net.addPlace_mapActions renumber.action net id ⟨.process, 0, some content⟩
    rw [Circuit.bindPlace, Circuit.bindPlace, placed]
    split
    · rw [Renumbering.circuit, added]
      cases net.addPlace id ⟨.process, 0, some content⟩ <;> rfl
    · dsimp only
      split <;> rfl
  cases edit with
  | anchorPlace card anchor => exact bind _ _ _
  | eventPlace card anchor => exact bind _ _ _
  | listen card anchor => rfl
  | place id held =>
      have known : (renumber.circuit net).places = net.places := rfl
      simp only [Renumbering.edit, Edit.change, Circuit.ensurePlace, known]
      split
      · rfl
      · rw [Renumbering.circuit, Net.addPlace_mapActions]
        cases net.addPlace id held <;> rfl
  | transition id action =>
      have known : (renumber.circuit net).transitions.contains id = net.transitions.contains id :=
        Registry.contains_map ..
      simp only [Renumbering.edit, Edit.change, Circuit.ensureTransition, known]
      split
      · rfl
      · rw [Renumbering.circuit, Net.addTransition_mapActions]
        cases net.addTransition id action <;> rfl
  | arc source target =>
      have known : (renumber.circuit net).isConnected source target =
        net.isConnected source target := rfl
      simp only [Renumbering.edit, Edit.change, Circuit.ensureArc, known]
      split
      · rfl
      · rw [Renumbering.circuit, Net.addArc_mapActions]
        cases net.addArc source target 1 <;> rfl

/-- The transitions after an edit were there before, or the edit brought them. -/
theorem Edit.Within.change {edit : Edit} (within : edit.Within extent) {after : Circuit}
    (changed : edit.change net = .ok after) {id : String} {action : Action}
    (found : after.transitions.get? id = some action) :
    net.transitions.get? id = some action ∨ action.Within extent := by
  rcases (Circuit.Grows.of_change changed).of_held
    (Circuit.fixture?_transition_eq_some.mpr found) with old | ⟨own, member, brought⟩
  · exact .inl (Circuit.fixture?_transition_eq_some.mp old)
  · cases List.mem_singleton.mp member
    cases edit with
    | transition name held =>
        cases brought
        exact .inr within
    | _ => cases brought

theorem Card.blueprint_edit (card : Card) (channel : Nat) :
    card.blueprint (renumber.channel channel) =
      (card.blueprint channel).map renumber.edit := by
  have inputs : card.inputEdits (renumber.channel channel) =
      (card.inputEdits channel).map renumber.edit := by
    simp only [inputEdits]
    split <;> simp [List.map_flatMap, Renumbering.edit, Renumbering.action]
  simp only [blueprint, inputs, List.map_append, List.map_flatMap, List.map_map]
  rfl

theorem Connection.layout_edit (connection : Connection) (parties : Parties) (channel : Nat) :
    connection.layout parties (renumber.channel channel) =
      (connection.layout parties channel).map renumber.edit := by
  have own : ∀ source target, (connection.blueprint source target).map renumber.edit =
      connection.blueprint source target := by
    intro source target
    simp only [blueprint, sourceEdits]
    split <;> rfl
  simp only [layout, Card.blueprint_edit, List.map_append, own]

end

namespace Bench

/-- A graph on a board, and the graph with other numbers on a board that matches. -/
structure Matches (renumber : Renumbering) (extent : Extent) (first second : Bench) : Prop where
  graph : second.graph = renumber.graph first.graph
  within : first.graph.Within extent
  board : first.board.Matches renumber extent second.board

variable {renumber : Renumbering} {extent wider : Extent} {first second : Bench}

namespace Matches

/-- The same as far as the graph goes. -/
theorem withGraph (benches : first.Matches renumber extent second) {graph : Graph}
    (within : graph.Within extent) :
    Matches renumber extent { first with graph := graph }
      { second with graph := renumber.graph graph } :=
  ⟨rfl, within, benches.board⟩

theorem listen (benches : first.Matches renumber extent second) (place : String)
    (anchor : Anchor) : ∃ wider, extent ≤ wider ∧
      (first.listen place anchor).Matches renumber wider (second.listen place anchor) := by
  obtain ⟨graph, board⟩ := first
  obtain ⟨_, other⟩ := second
  obtain ⟨rfl, within, boards⟩ := benches
  have known : (renumber.graph graph).subscriptions.contains place =
      graph.subscriptions.contains place := Registry.contains_map ..
  have heard : (⟨(renumber.graph graph).channel, place⟩ : Listener) =
      renumber.listener ⟨graph.channel, place⟩ := rfl
  obtain ⟨numbered, wider, grows, given, after⟩ :=
    boards.subscribe anchor ⟨graph.channel, place⟩ within.channel
  rw [Bench.listen, Bench.listen, known, heard]
  split
  · exact ⟨extent, extent.le_refl, rfl, within, boards⟩
  · refine ⟨wider, grows, ?_⟩
    cases one : board.subscribe anchor ⟨graph.channel, place⟩ with | mk taken left =>
    cases two : other.subscribe anchor (renumber.listener ⟨graph.channel, place⟩) with
      | mk _ right =>
    rw [one] at given after numbered
    rw [two] at after numbered
    cases numbered
    cases taken with
    | none => exact ⟨rfl, within.mono grows, after⟩
    | some number =>
        refine ⟨?_, ?_, after⟩
        · have entered := Registry.insert_map renumber.subscription graph.subscriptions place
            ⟨anchor, number⟩
          exact congrArg (fun subscriptions => { renumber.graph graph with subscriptions })
            entered
        · obtain ⟨channel, net, plans, subscriptions⟩ := within.mono grows
          refine ⟨channel, net, plans, fun held member => ?_⟩
          obtain ⟨name, found⟩ := Registry.mem_values_iff.mp member
          rw [Registry.get?_insert] at found
          split at found
          · cases found
            exact given number rfl
          · exact subscriptions held (Registry.mem_values_iff.mpr ⟨name, found⟩)

/-- An edit is made on both sides, or fails on both for the same reason. -/
theorem apply (benches : first.Matches renumber extent second) {edit : Edit}
    (fits : edit.Within extent) :
    (∃ failure, edit.apply first = .error failure ∧
      (renumber.edit edit).apply second = .error failure) ∨
    ∃ one two wider, edit.apply first = .ok one ∧ (renumber.edit edit).apply second = .ok two ∧
      extent ≤ wider ∧ one.Matches renumber wider two := by
  have netted : ∀ edit : Edit, edit.Within extent →
      (∃ failure, first.withNet (edit.change first.graph.net) = .error failure ∧
        second.withNet ((renumber.edit edit).change second.graph.net) = .error failure) ∨
      ∃ one two wider, first.withNet (edit.change first.graph.net) = .ok one ∧
        second.withNet ((renumber.edit edit).change second.graph.net) = .ok two ∧
        extent ≤ wider ∧ one.Matches renumber wider two := by
    intro edit fits
    have net : second.graph.net = renumber.circuit first.graph.net := by rw [benches.graph]; rfl
    rw [net, Edit.change_circuit]
    cases made : edit.change first.graph.net with
    | error failure => exact .inl ⟨failure, rfl, rfl⟩
    | ok after =>
        refine .inr ⟨_, _, extent, rfl, rfl, extent.le_refl, ?_⟩
        have within := benches.within.of_transitions fun id action found =>
          fits.change made found
        have same := benches.withGraph within
        rwa [show second.graph = renumber.graph first.graph from benches.graph]
  cases edit with
  | listen card anchor =>
      obtain ⟨wider, grows, after⟩ := benches.listen (Endpoint.eventPlace ⟨card, anchor.id⟩) anchor
      exact .inr ⟨_, _, wider, rfl, rfl, grows, after⟩
  | anchorPlace card anchor => exact netted (.anchorPlace card anchor) fits
  | eventPlace card anchor => exact netted (.eventPlace card anchor) fits
  | place id held => exact netted (.place id held) fits
  | transition id action => exact netted (.transition id action) fits
  | arc source target => exact netted (.arc source target) fits

theorem applyAll (benches : first.Matches renumber extent second) {edits : List Edit}
    (fit : ∀ edit ∈ edits, edit.Within extent) :
    Concur (Matches renumber) extent (first.applyAll edits)
      (second.applyAll (edits.map renumber.edit)) := by
  induction edits generalizing first second extent with
  | nil => exact Concur.intro benches
  | cons edit rest ih =>
      obtain ⟨own, others⟩ := List.forall_mem_cons.mp fit
      rw [Bench.applyAll, List.map_cons, Bench.applyAll]
      rcases benches.apply own with ⟨failure, failed, failed'⟩ | ⟨one, two, wider, made, made',
        grows, after⟩
      · rw [failed, failed']
        exact Concur.intro benches
      · rw [made, made']
        exact (ih after fun other member => (others other member).mono grows).widen grows

theorem register (benches : first.Matches renumber extent second) (connection : Connection) :
    (first.register connection).Matches renumber extent (second.register connection) := by
  obtain ⟨graph, board⟩ := first
  obtain ⟨_, other⟩ := second
  obtain ⟨rfl, within, boards⟩ := benches
  exact ⟨rfl, ⟨within.channel, within.net, within.plans, within.subscriptions⟩, boards⟩

theorem warn (benches : first.Matches renumber extent second) (connection : Connection)
    (reason : SkipReason) :
    (first.warn connection reason).Matches renumber extent (second.warn connection reason) := by
  obtain ⟨graph, board⟩ := first
  obtain ⟨_, other⟩ := second
  obtain ⟨rfl, within, boards⟩ := benches
  exact ⟨rfl, ⟨within.channel, within.net, within.plans, within.subscriptions⟩, boards⟩

theorem connect (benches : first.Matches renumber extent second) (connection : Connection) :
    Concur (Matches renumber) extent (first.connect connection) (second.connect connection) := by
  have cards : second.graph.cards = first.graph.cards := by rw [benches.graph]; rfl
  have channel : second.graph.channel = renumber.channel first.graph.channel := by
    rw [benches.graph]
    rfl
  simp only [Bench.connect, cards, channel]
  split
  · exact Concur.intro ((benches.warn connection _).register connection)
  · next parties found =>
      have laid := benches.applyAll
        (Connection.within_layout connection parties benches.within.channel)
      rw [← Connection.layout_edit] at laid
      obtain ⟨result, one, two, wider, made, made', grows, after⟩ := laid
      rw [made, made']
      cases result with
      | error failure => exact (Concur.intro after).widen grows
      | ok => exact (Concur.intro (after.register connection)).widen grows

theorem connectAll (benches : first.Matches renumber extent second)
    (connections : List Connection) :
    Concur (Matches renumber) extent (first.connectAll connections)
      (second.connectAll connections) := by
  induction connections generalizing first second extent with
  | nil => exact Concur.intro benches
  | cons connection rest ih =>
      obtain ⟨result, one, two, wider, made, made', grows, after⟩ := benches.connect connection
      rw [Bench.connectAll, Bench.connectAll, made, made']
      cases result with
      | error failure => exact (Concur.intro after).widen grows
      | ok id => exact (ih after).widen grows

theorem recompile (benches : first.Matches renumber extent second) :
    Concur (Matches renumber) extent first.recompile second.recompile := by
  obtain ⟨graph, board⟩ := first
  obtain ⟨_, other⟩ := second
  obtain ⟨rfl, within, boards⟩ := benches
  rw [Bench.recompile, Bench.recompile, Graph.recompile_graph]
  exact .intro ⟨rfl, within.recompile, boards⟩

/-! ## Tokens and values -/

theorem seed (benches : first.Matches renumber extent second) :
    first.seed.Matches renumber extent second.seed := by
  obtain ⟨graph, board⟩ := first
  obtain ⟨_, other⟩ := second
  obtain ⟨rfl, within, boards⟩ := benches
  have marked : (renumber.circuit graph.net).seedAll graph.net.seedPlaces =
      renumber.circuit (graph.net.seedAll graph.net.seedPlaces) :=
    List.foldl_hom (Net.mapActions renumber.action) fun _ _ => rfl
  refine ⟨congrArg (fun net => { renumber.graph graph with net := net }) marked,
    within.of_transitions fun id action found => .inl ?_,
    boards.foldl graph.net.seedPlaces fun boards id =>
      boards.applyDefault graph.net id⟩
  exact Net.transitions_of_bare (Net.bare_seedAll graph.net graph.net.seedPlaces) ▸ found

theorem reset (benches : first.Matches renumber extent second) :
    first.reset.Matches renumber extent second.reset := by
  obtain ⟨graph, board⟩ := first
  obtain ⟨_, other⟩ := second
  obtain ⟨rfl, within, boards⟩ := benches
  exact ⟨rfl, ⟨within.channel, within.net, within.plans, within.subscriptions⟩,
    boards.foldl graph.net.contents fun boards content => boards.reset content⟩

theorem release (benches : first.Matches renumber extent second) :
    (first.graph.release first.board).Matches renumber extent
      (second.graph.release second.board) := by
  obtain ⟨graph, board⟩ := first
  obtain ⟨_, other⟩ := second
  obtain ⟨rfl, within, boards⟩ := benches
  have held : (renumber.graph graph).subscriptions.values =
      graph.subscriptions.values.map renumber.subscription := Registry.values_map ..
  rw [Graph.release, Graph.release, held, List.foldl_map]
  exact boards.foldl _ fun boards held => boards.unsubscribe held.anchor held.number

/-! ## Building and editing -/

theorem construct (benches : first.Matches renumber extent second)
    (connections : List Connection) :
    Concur (Matches renumber) extent (first.construct connections)
      (second.construct connections) := by
  obtain ⟨result, one, two, wider, made, made', grows, after⟩ := benches.connectAll connections
  rw [Bench.construct, Bench.construct, made, made']
  cases result with
  | error failure => exact (Concur.intro after).widen grows
  | ok =>
      have cards : two.graph.cards = one.graph.cards := by rw [after.graph]; rfl
      have channel : two.graph.channel = renumber.channel one.graph.channel := by
        rw [after.graph]
        rfl
      have fit : ∀ edit ∈ one.graph.cards.flatMap fun card => card.blueprint one.graph.channel,
          edit.Within wider := by
        intro edit member
        obtain ⟨card, -, own⟩ := List.mem_flatMap.mp member
        exact Card.within_blueprint after.within.channel edit own
      have drafts : one.graph.cards.flatMap (fun card => card.blueprint two.graph.channel) =
          (one.graph.cards.flatMap fun card => card.blueprint one.graph.channel).map
            renumber.edit := by
        simp only [channel, Card.blueprint_edit, List.map_flatMap]
      obtain ⟨laidResult, left, right, wider, laid, laid', further, done⟩ := after.applyAll fit
      dsimp only
      rw [cards, drafts, laid, laid']
      cases laidResult with
      | error failure => exact ((Concur.intro done).widen further).widen grows
      | ok => exact (done.seed.recompile.widen further).widen grows

theorem addConnection (benches : first.Matches renumber extent second)
    (connection : Connection) :
    Concur (Matches renumber) extent (first.addConnection connection)
      (second.addConnection connection) := by
  obtain ⟨result, one, two, wider, made, made', grows, after⟩ := benches.connect connection
  rw [Bench.addConnection, Bench.addConnection, made, made']
  cases result with
  | error failure => exact (Concur.intro after).widen grows
  | ok id =>
      obtain ⟨planned, left, right, widest, made, made', further, last⟩ := after.recompile
      dsimp only
      rw [made, made']
      exact ((Concur.intro last).widen further).widen grows

theorem unlisten (benches : first.Matches renumber extent second) (place : String) :
    (first.unlisten place).Matches renumber extent (second.unlisten place) := by
  obtain ⟨graph, board⟩ := first
  obtain ⟨_, other⟩ := second
  obtain ⟨rfl, within, boards⟩ := benches
  have found : (renumber.graph graph).subscriptions.get? place =
      (graph.subscriptions.get? place).map renumber.subscription := Registry.get?_map ..
  rw [Bench.unlisten, Bench.unlisten, found]
  cases graph.subscriptions.get? place with
  | none => exact ⟨rfl, within, boards⟩
  | some held =>
      refine ⟨?_, ⟨within.channel, within.net, within.plans, fun other member => ?_⟩,
        boards.unsubscribe held.anchor held.number⟩
      · exact congrArg (fun subscriptions => { renumber.graph graph with subscriptions })
          (Registry.erase_map renumber.subscription graph.subscriptions place)
      · obtain ⟨name, there⟩ := Registry.mem_values_iff.mp member
        rw [Registry.get?_erase] at there
        split at there
        · cases there
        · exact within.subscriptions other (Registry.mem_values_iff.mpr ⟨name, there⟩)

theorem uproot (benches : first.Matches renumber extent second) (connection : Connection) :
    (first.uproot connection).Matches renumber extent (second.uproot connection) := by
  have netted : ∀ {net : Circuit}, (∀ id action, net.transitions.get? id = some action →
      first.graph.net.transitions.get? id = some action) →
      Matches renumber extent { first with graph.net := net }
        { second with graph.net := renumber.circuit net } := by
    intro net kept
    have same := benches.withGraph (benches.within.of_transitions fun id action found =>
      .inl (kept id action found))
    rwa [show second.graph = renumber.graph first.graph from benches.graph]
  have erased : ∀ (net : Circuit) (name id : String) (action : Action),
      (net.removeTransition name).2.transitions.get? id = some action →
        net.transitions.get? id = some action := by
    intro net name id action found
    rw [Net.transitions_removeTransition, Registry.get?_erase] at found
    split at found
    · cases found
    · exact found
  have kept : ∀ id action,
      (first.graph.net.bared connection).transitions.get? id = some action →
        first.graph.net.transitions.get? id = some action := by
    intro id action found
    rw [Circuit.bared, Net.transitions_removePlace] at found
    exact erased _ _ id action found
  have bared : second.graph.net.bared connection =
      renumber.circuit (first.graph.net.bared connection) := by
    rw [benches.graph]
    simp only [Circuit.bared, Renumbering.graph, Renumbering.circuit,
      Net.removeTransition_mapActions, Net.removePlace_mapActions]
  have arcs : (renumber.circuit (first.graph.net.bared connection)).arcsFrom =
      (first.graph.net.bared connection).arcsFrom := rfl
  have leading : (renumber.circuit (first.graph.net.bared connection)).leading connection =
      (first.graph.net.bared connection).leading connection := rfl
  have hands : (renumber.circuit (first.graph.net.bared connection)).handsEvents connection =
      (first.graph.net.bared connection).handsEvents connection := rfl
  have removed : ∀ id, ((renumber.circuit (first.graph.net.bared connection)).removeTransition
      id).2 = renumber.circuit ((first.graph.net.bared connection).removeTransition id).2 :=
    Net.removeTransition_mapActions _ _
  simp only [uproot_eq, bared, arcs, leading, hands, removed]
  split
  · have left := netted fun id action found => kept id action
      (erased _ ((first.graph.net.bared connection).leading connection) id action found)
    split
    · exact left.unlisten _
    · exact left
  · exact netted kept

theorem removeConnection (benches : first.Matches renumber extent second) (id : String) :
    Concur (Matches renumber) extent (first.removeConnection id) (second.removeConnection id) := by
  have known : second.graph.connections = first.graph.connections := by
    rw [benches.graph]
    rfl
  rw [Bench.removeConnection, Bench.removeConnection, known]
  split
  · exact Concur.intro benches
  · next connection found =>
      have rest : Matches renumber extent
          { first with graph.connections := first.graph.connections.erase id }
          { second with graph.connections := first.graph.connections.erase id } := by
        have within : Graph.Within { first.graph with
            connections := first.graph.connections.erase id } extent :=
          ⟨benches.within.channel, benches.within.net, benches.within.plans,
            benches.within.subscriptions⟩
        have same := benches.withGraph within
        rwa [show second.graph = renumber.graph first.graph from benches.graph]
      obtain ⟨planned, one, two, wider, made, made', grows, after⟩ :=
        (rest.uproot connection).recompile
      dsimp only
      rw [made, made']
      exact (Concur.intro after).widen grows

end Matches

end Bench

/-- A graph is built on both boards, or on neither for the same reason. -/
theorem Graph.build_matches {renumber : Renumbering} {extent : Extent} {first second : Board}
    (boards : first.Matches renumber extent second) (mode : Mode) (config : GraphConfig)
    (cards : List Card) (globals : Option Values) :
    ∃ wider, extent ≤ wider ∧
      (Graph.build mode config cards globals second).1 =
        (Graph.build mode config cards globals first).1.map renumber.graph ∧
      (∀ graph, (Graph.build mode config cards globals first).1 = .ok graph →
        graph.Within wider) ∧
      (Graph.build mode config cards globals first).2.Matches renumber wider
        (Graph.build mode config cards globals second).2 := by
  have own : renumber.channel first.nextSlot = second.nextSlot := boards.slots 0
  have start : (Graph.vacant mode config cards globals first).Matches renumber
      { extent with slots := extent.slots + 1 } (Graph.vacant mode config cards globals second) :=
    { graph := by rw [Graph.vacant, ← own]; rfl
      within := ⟨boards.slots_eq ▸ Nat.lt_succ_self _, nofun, nofun, nofun⟩
      board := boards.groundwork globals }
  obtain ⟨result, one, two, wider, made, made', grows, after⟩ := start.construct config.connections
  have opened : extent ≤ { extent with slots := extent.slots + 1 } :=
    ⟨Nat.le_succ _, fun _ => Nat.le_refl _⟩
  have further := Extent.le_trans opened grows
  rw [Graph.build_eq_construct, Graph.build_eq_construct, made, made']
  cases result with
  | error failure =>
      refine ⟨wider, further, rfl, ?_, after.release⟩
      rintro graph ⟨⟩
  | ok =>
      refine ⟨wider, further, congrArg Except.ok after.graph, ?_, after.board⟩
      rintro _ ⟨⟩
      exact after.within

end CardNet
