import CardNet.Proofs.Graph.Blueprints
import CardNet.Proofs.Graph.Opening

/-!
# What stands where in a circuit

A site of a circuit is the name of a place, of a transition or of an arc, and what stands there
is its fixture (`Circuit.fixture?`). An edit brings one fixture to one site, and what stands
there already stays (`Bench.Drafts`). So after a list of edits each site holds what the first
edit for it has brought, whatever the names are, and this says all there is to say about the
circuit of a graph that was built (`Graph.built_of_build`).
-/

namespace CardNet

/-! ## Sites and fixtures -/

/-- Where something can stand in a circuit. -/
inductive Site where
  | place (id : String)
  | transition (id : String)
  | arc (name : String)
deriving DecidableEq

/-- What can stand at a site. The tokens of a place do not count. -/
inductive Fixture where
  | place (kind : PlaceKind) (content : Option Content)
  | transition (action : Action)
  | arc (arc : Arc)

namespace Circuit

/-- What stands at a site. -/
def fixture? (net : Circuit) : Site → Option Fixture
  | .place id => (net.place? id).map fun place => .place place.kind place.content
  | .transition id => (net.transitions.get? id).map .transition
  | .arc name => (net.arcs.get? name).map .arc

/-- The anchor that a place is bound to. -/
def boundTo? (net : Circuit) (id : String) : Option Endpoint :=
  (net.content? id).bind Content.endpoint?

variable {net other : Circuit}

theorem fixture?_blank (name : String) (site : Site) :
    fixture? ⟨name, .empty, .empty, .empty, .empty, .empty⟩ site = none := by
  cases site <;> rfl

/-- Tokens do not matter for what stands where. -/
theorem fixture?_of_bare (same : net.bare = other.bare) : net.fixture? = other.fixture? := by
  have bared : ∀ circuit : Circuit, ∀ id, (circuit.bare.place? id).map
      (fun place => Fixture.place place.kind place.content) =
        (circuit.place? id).map fun place => .place place.kind place.content := by
    intro circuit id
    rw [Net.place?, Net.bare, Registry.get?_map, Option.map_map]
    rfl
  funext site
  cases site with
  | place id => exact (bared net id).symm.trans (same ▸ bared other id)
  | transition id => rw [fixture?, fixture?, Net.transitions_of_bare same]
  | arc name => rw [fixture?, fixture?, Net.arcs_of_bare same]

theorem fixture?_transition_eq_some {id : String} {action : Action} :
    net.fixture? (.transition id) = some (.transition action) ↔
      net.transitions.get? id = some action := by
  simp [fixture?]

theorem content?_of_fixture? {id : String} {kind : PlaceKind} {content : Option Content}
    (found : net.fixture? (.place id) = some (.place kind content)) :
    net.content? id = content := by
  obtain ⟨place, held, same⟩ := Option.map_eq_some_iff.mp found
  cases same
  rw [Net.content?, held]
  rfl

theorem fixture?_place_eq_none {id : String} :
    net.fixture? (.place id) = none ↔ id ∉ net.places.names := by
  rw [fixture?, Option.map_eq_none_iff]
  exact Registry.get?_eq_none_iff

theorem fixture?_transition_eq_none {id : String} :
    net.fixture? (.transition id) = none ↔ id ∉ net.transitions.names := by
  rw [fixture?, Option.map_eq_none_iff]
  exact Registry.get?_eq_none_iff

theorem fixture?_arc_eq_none {name : String} :
    net.fixture? (.arc name) = none ↔ name ∉ net.arcs.names := by
  rw [fixture?, Option.map_eq_none_iff]
  exact Registry.get?_eq_none_iff

/-- What stands at a site is listed. -/
theorem mem_places_of_held {id : String} {fixture : Fixture}
    (held : net.fixture? (.place id) = some fixture) : id ∈ net.places.names := by
  by_contra absent
  cases held.symm.trans (fixture?_place_eq_none.mpr absent)

theorem mem_transitions_of_held {id : String} {fixture : Fixture}
    (held : net.fixture? (.transition id) = some fixture) : id ∈ net.transitions.names := by
  by_contra absent
  cases held.symm.trans (fixture?_transition_eq_none.mpr absent)

theorem mem_arcs_of_held {name : String} {fixture : Fixture}
    (held : net.fixture? (.arc name) = some fixture) : name ∈ net.arcs.names := by
  by_contra absent
  cases held.symm.trans (fixture?_arc_eq_none.mpr absent)

theorem hasNode_iff {id : String} : net.hasNode id = true ↔
    net.fixture? (.place id) ≠ none ∨ net.fixture? (.transition id) ≠ none := by
  rw [ne_eq, ne_eq, fixture?_place_eq_none, fixture?_transition_eq_none, not_not, not_not,
    Net.hasNode, Bool.or_eq_true, Registry.contains_eq_true, Registry.contains_eq_true]

end Circuit

namespace Edit

/-- What an edit brings, and to which site. -/
def brings? : Edit → Option (Site × Fixture)
  | anchorPlace card anchor =>
      some (.place (Endpoint.place ⟨card, anchor.id⟩),
        .place .process (some (.anchor card anchor)))
  | eventPlace card anchor =>
      some (.place (Endpoint.eventPlace ⟨card, anchor.id⟩),
        .place .process (some (.event card anchor)))
  | listen _ _ => none
  | place id held => some (.place id, .place held.kind held.content)
  | transition id action => some (.transition id, .transition action)
  | arc source target => some (.arc (arcName source target), .arc ⟨source, target, 1⟩)

/-- The place that an edit binds, and the anchor that it binds it to. -/
def wants? : Edit → Option (String × Endpoint)
  | anchorPlace card anchor => some (Endpoint.place ⟨card, anchor.id⟩, ⟨card, anchor.id⟩)
  | eventPlace card anchor => some (Endpoint.eventPlace ⟨card, anchor.id⟩, ⟨card, anchor.id⟩)
  | _ => none

/-- What an edit brings to a site. -/
def fixture? (edit : Edit) (site : Site) : Option Fixture :=
  match edit.brings? with
  | some (other, fixture) => if other = site then some fixture else none
  | none => none

theorem fixture?_eq_some {edit : Edit} {site : Site} {fixture : Fixture} :
    edit.fixture? site = some fixture ↔ edit.brings? = some (site, fixture) := by
  unfold fixture?
  split
  · next other held brought =>
      rw [brought, Option.some.injEq, Prod.mk.injEq]
      constructor
      · intro found
        split at found
        · next same => exact ⟨same, Option.some.inj found⟩
        · cases found
      · rintro ⟨rfl, rfl⟩
        rw [if_pos rfl]
  · next nothing => simp [nothing]

end Edit

/-! ## One edit -/

section

variable {net after : Circuit}

private theorem Circuit.fixture?_insertPlace {id : String} (held : Place Content)
    (absent : id ∉ net.places.names) (site : Site) :
    Circuit.fixture? { net with places := net.places.insert id held } site =
      (net.fixture? site).or
        (if Site.place id = site then some (.place held.kind held.content) else none) := by
  cases site with
  | place other =>
      rw [fixture?, Net.place?, Registry.get?_insert]
      by_cases same : other = id
      · subst same
        rw [if_pos rfl, if_pos rfl, fixture?_place_eq_none.mpr absent]
        rfl
      · rw [if_neg same, if_neg fun other => same (Site.place.inj other).symm, Option.or_none]
        rfl
  | transition other => simp only [reduceCtorEq, if_false, Option.or_none]; rfl
  | arc other => simp only [reduceCtorEq, if_false, Option.or_none]; rfl

private theorem Circuit.fixture?_insertTransition {id : String} (action : Action)
    (absent : id ∉ net.transitions.names) (site : Site) :
    Circuit.fixture? { net with transitions := net.transitions.insert id action } site =
      (net.fixture? site).or
        (if Site.transition id = site then some (.transition action) else none) := by
  cases site with
  | transition other =>
      rw [fixture?, Registry.get?_insert]
      by_cases same : other = id
      · subst same
        rw [if_pos rfl, if_pos rfl, fixture?_transition_eq_none.mpr absent]
        rfl
      · rw [if_neg same, if_neg fun other => same (Site.transition.inj other).symm,
          Option.or_none]
        rfl
  | place other => simp only [reduceCtorEq, if_false, Option.or_none]; rfl
  | arc other => simp only [reduceCtorEq, if_false, Option.or_none]; rfl

private theorem Circuit.fixture?_pushArc {arc : Arc} (absent : arc.name ∉ net.arcs.names)
    (site : Site) :
    Circuit.fixture? (net.pushArc arc) site =
      (net.fixture? site).or (if Site.arc arc.name = site then some (.arc arc) else none) := by
  cases site with
  | arc other =>
      rw [fixture?, Net.pushArc, Registry.get?_insert]
      by_cases same : other = arc.name
      · subst same
        rw [if_pos rfl, if_pos rfl, fixture?_arc_eq_none.mpr absent]
        rfl
      · rw [if_neg same, if_neg fun other => same (Site.arc.inj other).symm, Option.or_none]
        rfl
  | place other => simp only [reduceCtorEq, if_false, Option.or_none]; rfl
  | transition other => simp only [reduceCtorEq, if_false, Option.or_none]; rfl

end

/-- A circuit after some edits: what stood somewhere stays, a site that was free holds what the
first edit for it has brought, and the places that were to be bound are bound. -/
structure Circuit.Grows (net : Circuit) (edits : List Edit) (after : Circuit) : Prop where
  plain : net.Plain → after.Plain
  fixture : ∀ site, after.fixture? site =
    (net.fixture? site).or (edits.findSome? fun edit => edit.fixture? site)
  bound : ∀ edit ∈ edits, ∀ id wanted, edit.wants? = some (id, wanted) →
    after.boundTo? id = some wanted

namespace Circuit.Grows

variable {net middle after : Circuit} {edits more : List Edit} {edit : Edit}

/-- What stands somewhere stays. -/
theorem keeps (grows : net.Grows edits after) {site : Site} {fixture : Fixture}
    (held : net.fixture? site = some fixture) : after.fixture? site = some fixture := by
  rw [grows.fixture, held, Option.some_or]

/-- A place that is bound stays so. -/
theorem keeps_bound (grows : net.Grows edits after) {id : String} {endpoint : Endpoint}
    (bound : net.boundTo? id = some endpoint) : after.boundTo? id = some endpoint := by
  obtain ⟨content, held, same⟩ := Option.bind_eq_some_iff.mp bound
  obtain ⟨place, found, holds⟩ := Option.bind_eq_some_iff.mp held
  have here : net.fixture? (.place id) = some (.place place.kind place.content) := by
    rw [fixture?, found]
    rfl
  rw [boundTo?, content?_of_fixture? (grows.keeps here), holds]
  exact same

theorem refl (net : Circuit) : net.Grows [] net :=
  ⟨id, fun _ => Option.or_none.symm, fun _ member => absurd member List.not_mem_nil⟩

theorem trans (first : net.Grows edits middle) (second : middle.Grows more after) :
    net.Grows (edits ++ more) after where
  plain := second.plain ∘ first.plain
  fixture := fun site => by
    rw [second.fixture, first.fixture, Option.or_assoc, List.findSome?_append]
  bound := fun edit member id wanted wants => (List.mem_append.mp member).elim
    (fun early => second.keeps_bound (first.bound edit early id wanted wants))
    (fun late => second.bound edit late id wanted wants)

/-- An edit for a site that is taken changes nothing. -/
theorem of_taken (taken : ∀ site fixture, edit.brings? = some (site, fixture) →
      net.fixture? site ≠ none)
    (bound : ∀ id wanted, edit.wants? = some (id, wanted) → net.boundTo? id = some wanted) :
    net.Grows [edit] net where
  plain := id
  fixture := fun site => by
    rw [List.findSome?_singleton]
    cases brought : edit.fixture? site with
    | none => rw [Option.or_none]
    | some fixture =>
        obtain ⟨held, found⟩ := Option.ne_none_iff_exists'.mp
          (taken site fixture (Edit.fixture?_eq_some.mp brought))
        rw [found, Option.some_or]
  bound := fun other single => List.mem_singleton.mp single ▸ bound

theorem of_fixture (plain : net.Plain → after.Plain)
    (law : ∀ site, after.fixture? site = (net.fixture? site).or (edit.fixture? site))
    (bound : ∀ id wanted, edit.wants? = some (id, wanted) → after.boundTo? id = some wanted) :
    net.Grows [edit] after where
  plain := plain
  fixture := fun site => by rw [List.findSome?_singleton]; exact law site
  bound := fun other single => List.mem_singleton.mp single ▸ bound

theorem keeps_taken (grows : net.Grows edits after) {site : Site}
    (taken : net.fixture? site ≠ none) : after.fixture? site ≠ none := by
  obtain ⟨fixture, held⟩ := Option.ne_none_iff_exists'.mp taken
  rw [grows.keeps held]
  exact Option.some_ne_none fixture

/-- What stands somewhere stood there before, or an edit has brought it. -/
theorem of_held (grows : net.Grows edits after) {site : Site} {fixture : Fixture}
    (held : after.fixture? site = some fixture) :
    net.fixture? site = some fixture ∨ ∃ edit ∈ edits, edit.brings? = some (site, fixture) := by
  rw [grows.fixture, Option.or_eq_some_iff] at held
  rcases held with old | ⟨-, brought⟩
  · exact .inl old
  · obtain ⟨edit, member, found⟩ := List.exists_of_findSome?_eq_some brought
    exact .inr ⟨edit, member, Edit.fixture?_eq_some.mp found⟩

/-- A site for which there was an edit is taken. -/
theorem taken (grows : net.Grows edits after) (member : edit ∈ edits) {site : Site}
    {fixture : Fixture} (brought : edit.brings? = some (site, fixture)) :
    after.fixture? site ≠ none := by
  rw [grows.fixture, ne_eq, Option.or_eq_none_iff, List.findSome?_eq_none_iff]
  rintro ⟨-, none⟩
  cases (none edit member).symm.trans (Edit.fixture?_eq_some.mpr brought)

private theorem of_addPlace {id : String} {held : Place Content} (absent : id ∉ net.places.names)
    (brings : edit.brings? = some (.place id, .place held.kind held.content))
    (wants : ∀ name wanted, edit.wants? = some (name, wanted) →
      name = id ∧ held.content.bind Content.endpoint? = some wanted)
    (added : (net.addPlace id held).mapError Failure.net = .ok after) :
    net.Grows [edit] after := by
  unfold Net.addPlace at added
  split at added
  · cases added
  · obtain rfl := Except.ok.inj added
    refine of_fixture (fun plain => ⟨plain.indexed.congr rfl rfl rfl, plain.weight⟩)
      (fun site => ?_) fun name wanted wanting => ?_
    · rw [fixture?_insertPlace held absent, Edit.fixture?, brings]
    · obtain ⟨rfl, same⟩ := wants name wanted wanting
      rw [boundTo?, Net.content?, Net.place?, Registry.get?_insert, if_pos rfl]
      exact same

private theorem of_known_place {id : String} {fixture : Fixture} (known : id ∈ net.places.names)
    (brings : edit.brings? = some (.place id, fixture))
    (bound : ∀ name wanted, edit.wants? = some (name, wanted) →
      net.boundTo? name = some wanted) : net.Grows [edit] net := by
  refine of_taken (fun site other brought => ?_) bound
  obtain ⟨rfl, -⟩ := Prod.mk.inj (Option.some.inj (brings.symm.trans brought))
  rwa [ne_eq, fixture?_place_eq_none, not_not]

private theorem of_bindPlace {id : String} {content : Content} {wanted : Endpoint}
    (brings : edit.brings? = some (.place id, .place .process (some content)))
    (wants : edit.wants? = some (id, wanted)) (own : content.endpoint? = some wanted)
    (bound : net.bindPlace id content wanted = .ok after) : net.Grows [edit] after := by
  have only : ∀ name other, edit.wants? = some (name, other) → name = id ∧ wanted = other := by
    intro name other wanting
    obtain ⟨same, wanted⟩ := Prod.mk.inj (Option.some.inj (wants.symm.trans wanting))
    exact ⟨same.symm, wanted⟩
  unfold bindPlace at bound
  split at bound
  · next free =>
      refine of_addPlace (Registry.get?_eq_none_iff.mp free) brings (fun name other wanting => ?_)
        bound
      obtain ⟨same, rfl⟩ := only name other wanting
      exact ⟨same, own⟩
  · next place found =>
      dsimp only at bound
      split at bound
      · next held =>
          obtain rfl := Except.ok.inj bound
          refine of_known_place (Registry.mem_names_of_get? found) brings fun name other wanting => ?_
          obtain ⟨rfl, rfl⟩ := only name other wanting
          rw [boundTo?, Net.content?, found]
          exact held
      · cases bound

private theorem of_ensurePlace {id : String} {held : Place Content}
    (ensured : net.ensurePlace id held = .ok after) : net.Grows [.place id held] after := by
  unfold ensurePlace at ensured
  split at ensured
  · next known =>
      obtain rfl := Except.ok.inj ensured
      exact of_known_place (Registry.contains_eq_true.mp known) rfl nofun
  · next free => exact of_addPlace (mt Registry.contains_eq_true.mpr free) rfl nofun ensured

private theorem of_ensureTransition {id : String} {action : Action}
    (ensured : net.ensureTransition id action = .ok after) :
    net.Grows [.transition id action] after := by
  unfold ensureTransition at ensured
  split at ensured
  · next known =>
      obtain rfl := Except.ok.inj ensured
      refine of_taken (fun site fixture brought => ?_) nofun
      obtain ⟨rfl, -⟩ := Prod.mk.inj (Option.some.inj brought)
      rw [ne_eq, fixture?_transition_eq_none, not_not]
      exact Registry.contains_eq_true.mp known
  · next free =>
      unfold Net.addTransition at ensured
      split at ensured
      · cases ensured
      · obtain rfl := Except.ok.inj ensured
        exact of_fixture (fun plain => ⟨plain.indexed.congr rfl rfl rfl, plain.weight⟩)
          (fixture?_insertTransition action (mt Registry.contains_eq_true.mpr free)) nofun

private theorem of_ensureArc {source target : String}
    (ensured : net.ensureArc source target = .ok after) : net.Grows [.arc source target] after := by
  unfold ensureArc at ensured
  split at ensured
  · next known =>
      obtain rfl := Except.ok.inj ensured
      refine of_taken (fun site fixture brought => ?_) nofun
      obtain ⟨rfl, -⟩ := Prod.mk.inj (Option.some.inj brought)
      rw [ne_eq, fixture?_arc_eq_none, not_not]
      exact Registry.contains_eq_true.mp known
  · next free =>
      have absent : Arc.name ⟨source, target, 1⟩ ∉ net.arcs.names :=
        mt Registry.contains_eq_true.mpr free
      obtain rfl : net.pushArc ⟨source, target, 1⟩ = after := by
        unfold Net.addArc at ensured
        split at ensured
        · cases ensured
        · split at ensured
          · cases ensured
          · simp only [free, Nat.one_ne_zero, if_false] at ensured
            split at ensured
            · cases ensured
            · exact Except.ok.inj ensured
      refine of_fixture (fun plain => ⟨plain.indexed.pushArc absent, fun arc member => ?_⟩)
        (fixture?_pushArc absent) nofun
      change arc ∈ (net.arcs.insert _ _).values at member
      rw [Registry.values_insert_of_not_mem _ absent, List.mem_append, List.mem_singleton] at member
      rcases member with old | rfl
      · exact plain.weight arc old
      · rfl

/-- What an edit that succeeds makes of a circuit. -/
theorem of_change (changed : edit.change net = .ok after) : net.Grows [edit] after := by
  cases edit with
  | anchorPlace card anchor => exact of_bindPlace rfl rfl rfl changed
  | eventPlace card anchor => exact of_bindPlace rfl rfl rfl changed
  | listen card anchor =>
      obtain rfl := Except.ok.inj changed
      exact of_taken (fun _ _ brought => nomatch brought) fun _ _ wants => nomatch wants
  | place id held => exact of_ensurePlace changed
  | transition id action => exact of_ensureTransition changed
  | arc source target => exact of_ensureArc changed

end Circuit.Grows

/-! ## Lists of edits -/

/-- A graph after some edits: nothing but its circuit and its subscriptions has changed, and it
listens to what it has listened to and to the anchors that take listeners among those it was to
listen to. -/
structure Bench.Grows (bench : Bench) (edits : List Edit) (after : Bench) : Prop where
  net : bench.graph.net.Grows edits after.graph.net
  graph : after.graph = { bench.graph with
    net := after.graph.net, subscriptions := after.graph.subscriptions }
  listens : ∀ place, place ∈ after.graph.subscriptions.names ↔
    place ∈ bench.graph.subscriptions.names ∨ ∃ card anchor, .listen card anchor ∈ edits ∧
      anchor.listens = true ∧ Endpoint.eventPlace ⟨card, anchor.id⟩ = place

namespace Bench

variable {bench middle after : Bench} {edits more : List Edit} {edit : Edit}

theorem Grows.refl (bench : Bench) : bench.Grows [] bench where
  net := .refl _
  graph := rfl
  listens := by simp

theorem Grows.trans (first : bench.Grows edits middle) (second : middle.Grows more after) :
    bench.Grows (edits ++ more) after where
  net := first.net.trans second.net
  graph := by rw [second.graph, first.graph]
  listens := fun place => by
    rw [second.listens, first.listens, or_assoc]
    refine or_congr_right ⟨?_, ?_⟩
    · rintro (⟨card, anchor, member, told⟩ | ⟨card, anchor, member, told⟩)
      · exact ⟨card, anchor, List.mem_append_left _ member, told⟩
      · exact ⟨card, anchor, List.mem_append_right _ member, told⟩
    · rintro ⟨card, anchor, member, told⟩
      exact (List.mem_append.mp member).imp (⟨card, anchor, ·, told⟩) (⟨card, anchor, ·, told⟩)

/-- Listening concerns the subscriptions alone. -/
theorem graph_listen (bench : Bench) (place : String) (anchor : Anchor) :
    (bench.listen place anchor).graph =
      { bench.graph with subscriptions := (bench.listen place anchor).graph.subscriptions } := by
  unfold listen
  split
  · rfl
  · split <;> rfl

theorem mem_names_listen {place other : String} {anchor : Anchor} :
    other ∈ (bench.listen place anchor).graph.subscriptions.names ↔
      other ∈ bench.graph.subscriptions.names ∨ anchor.listens = true ∧ place = other := by
  unfold listen
  split
  · next known =>
      have member := Registry.contains_eq_true.mp known
      exact ⟨.inl, fun either => either.elim id fun told => told.2 ▸ member⟩
  · unfold Board.subscribe
    by_cases takes : anchor.listens = true
    · simp only [takes, if_true, true_and]
      rw [Registry.mem_names_insert, or_comm, eq_comm]
    · simp [takes]

/-- An edit that is no subscription concerns the circuit alone. -/
theorem grows_of_withNet {net : Except Failure Circuit}
    (grown : ∀ circuit, net = .ok circuit → bench.graph.net.Grows [edit] circuit)
    (silent : ∀ card anchor, edit ≠ .listen card anchor) (applied : bench.withNet net = .ok after) :
    bench.Grows [edit] after := by
  cases net with
  | error failure => cases applied
  | ok circuit =>
      obtain rfl := Except.ok.inj applied
      refine ⟨grown circuit rfl, rfl, fun place => ⟨.inl, ?_⟩⟩
      rintro (old | ⟨card, anchor, member, -⟩)
      · exact old
      · exact absurd (List.mem_singleton.mp member).symm (silent card anchor)

theorem grows_of_apply (applied : edit.apply bench = .ok after) : bench.Grows [edit] after := by
  cases edit with
  | listen card anchor =>
      obtain rfl := Except.ok.inj applied
      have same := bench.graph_listen (Endpoint.eventPlace ⟨card, anchor.id⟩) anchor
      refine ⟨?_, by rw [same], fun place => ?_⟩
      · rw [same]
        exact .of_change rfl
      · rw [mem_names_listen]
        simp [and_assoc]
  | anchorPlace _ _ => exact grows_of_withNet (fun _ => .of_change) nofun applied
  | eventPlace _ _ => exact grows_of_withNet (fun _ => .of_change) nofun applied
  | place _ _ => exact grows_of_withNet (fun _ => .of_change) nofun applied
  | transition _ _ => exact grows_of_withNet (fun _ => .of_change) nofun applied
  | arc _ _ => exact grows_of_withNet (fun _ => .of_change) nofun applied

/-- What edits that all succeed make of a graph. -/
theorem grows_of_applyAll (applied : bench.applyAll edits = (.ok (), after)) :
    bench.Grows edits after := by
  induction edits generalizing bench with
  | nil =>
      obtain ⟨-, rfl⟩ := Prod.mk.inj applied
      exact .refl bench
  | cons edit rest ih =>
      rw [applyAll] at applied
      split at applied
      · next middle first => exact (grows_of_apply first).trans (ih applied)
      · cases applied

end Bench

/-! ## Whole graphs -/

/-- The edits that lay out a connection and the cards that it joins; none when it is left out. -/
def Connection.draft (connection : Connection) (cards : List Card) (channel : Nat) : List Edit :=
  match connection.parties cards with
  | .ok parties => connection.layout parties channel
  | .error _ => []

/-- Count connections among those of a graph, in order. -/
def Registry.enroll (registry : Registry Connection) (connections : List Connection) :
    Registry Connection :=
  connections.foldl (fun registry connection => registry.insert connection.id connection) registry

/-- Under an id stands the last connection that has it. -/
theorem Registry.get?_enroll (registry : Registry Connection) (connections : List Connection)
    (id : String) : (registry.enroll connections).get? id =
      (connections.reverse.find? fun connection => connection.id == id).or (registry.get? id) := by
  induction connections generalizing registry with
  | nil => rfl
  | cons connection rest ih =>
      rw [enroll, List.foldl_cons, ← enroll, ih, List.reverse_cons, List.find?_append,
        Option.or_assoc, Registry.get?_insert, List.find?_singleton]
      congr 1
      by_cases same : connection.id = id
      · simp [same]
      · simp [same, Ne.symm same]

namespace Bench

variable {bench after : Bench} {connection : Connection} {connections : List Connection}

/-- The connections and warnings of a graph do not matter for edits. -/
theorem Grows.relabel {edits : List Edit} (grows : bench.Grows edits after)
    (registry : Registry Connection) (warnings : List Warning) :
    Grows { bench with graph :=
        { bench.graph with connections := registry, warnings := warnings } } edits
      { after with graph :=
        { after.graph with connections := registry, warnings := warnings } } where
  net := grows.net
  graph := by rw [grows.graph]
  listens := grows.listens

/-- What a connection that is added makes of a graph. -/
theorem grows_of_connect {id : String} (connected : bench.connect connection = (.ok id, after)) :
    id = connection.id ∧ ∃ grown warnings,
      bench.Grows (connection.draft bench.graph.cards bench.graph.channel) grown ∧
      after = { grown with graph := { grown.graph with
        connections := bench.graph.connections.insert connection.id connection,
        warnings := warnings } } := by
  unfold connect at connected
  unfold Connection.draft
  dsimp only at connected
  split at connected
  · next reason left =>
      obtain ⟨same, rfl⟩ := Prod.mk.inj connected
      rw [left]
      exact ⟨(Except.ok.inj same).symm, bench, _, .refl bench, rfl⟩
  · next parties found =>
      rw [found]
      split at connected
      · cases connected
      · next grown applied =>
          obtain ⟨same, rfl⟩ := Prod.mk.inj connected
          have grows := grows_of_applyAll applied
          refine ⟨(Except.ok.inj same).symm, grown, grown.graph.warnings, grows, ?_⟩
          rw [register, grows.graph]

theorem grows_of_connectAll (connected : bench.connectAll connections = (.ok (), after)) :
    ∃ grown warnings,
      bench.Grows (connections.flatMap fun connection =>
        connection.draft bench.graph.cards bench.graph.channel) grown ∧
      after = { grown with graph := { grown.graph with
        connections := bench.graph.connections.enroll connections, warnings := warnings } } := by
  induction connections generalizing bench with
  | nil =>
      obtain ⟨-, rfl⟩ := Prod.mk.inj connected
      exact ⟨bench, bench.graph.warnings, .refl bench, rfl⟩
  | cons connection rest ih =>
      rw [connectAll] at connected
      split at connected
      · next id middle first =>
          obtain ⟨-, grown, warnings, grows, rfl⟩ := grows_of_connect first
          obtain ⟨last, others, more, rfl⟩ := ih connected
          have further : grown.Grows (rest.flatMap fun connection =>
              connection.draft grown.graph.cards grown.graph.channel) _ :=
            more.relabel grown.graph.connections grown.graph.warnings
          have cards : grown.graph.cards = bench.graph.cards := by rw [grows.graph]
          have channel : grown.graph.channel = bench.graph.channel := by rw [grows.graph]
          rw [cards, channel] at further
          exact ⟨_, others, grows.trans further, rfl⟩
      · cases connected

end Bench

/-- The edits that lay out connections and cards. -/
def drafts (cards : List Card) (connections : List Connection) (channel : Nat) : List Edit :=
  connections.flatMap (fun connection => connection.draft cards channel) ++
    cards.flatMap fun card => card.blueprint channel

/-- The edits for a graph are those for its cards and those for its connections alone. -/
theorem mem_drafts {cards : List Card} {connections : List Connection} {channel : Nat}
    {edit : Edit} : edit ∈ drafts cards connections channel ↔
      (∃ card ∈ cards, card.Brings channel edit) ∨
        ∃ connection ∈ connections, ∃ parties, connection.parties cards = .ok parties ∧
          connection.Brings parties.source parties.target edit := by
  simp only [← Card.mem_blueprint, ← Connection.mem_blueprint]
  rw [drafts, List.mem_append, List.mem_flatMap, List.mem_flatMap, or_comm]
  constructor
  · rintro (ofCard | ⟨connection, known, member⟩)
    · exact .inl ofCard
    · unfold Connection.draft at member
      split at member
      · next parties found =>
          have ends := Connection.resolved_of_parties found
          simp only [Connection.layout, List.mem_append] at member
          rcases member with (own | ofSource) | ofTarget
          · exact .inr ⟨connection, known, parties, found, own⟩
          · exact .inl ⟨parties.sourceCard, ends.sourceCard, ofSource⟩
          · exact .inl ⟨parties.targetCard, ends.targetCard, ofTarget⟩
      · cases member
  · rintro (ofCard | ⟨connection, known, parties, found, own⟩)
    · exact .inl ofCard
    · refine .inr ⟨connection, known, ?_⟩
      rw [Connection.draft, found]
      exact List.mem_append_left _ (List.mem_append_left _ own)

/-- A graph that was built: what stands where in its circuit, and what it listens to. -/
structure Graph.Built (graph : Graph) (cards : List Card) (connections : List Connection)
    (channel : Nat) : Prop where
  plain : graph.net.Plain
  fixture : ∀ site, graph.net.fixture? site =
    (drafts cards connections channel).findSome? fun edit => edit.fixture? site
  bound : ∀ edit ∈ drafts cards connections channel, ∀ id wanted,
    edit.wants? = some (id, wanted) → graph.net.boundTo? id = some wanted
  listens : ∀ place, place ∈ graph.subscriptions.names ↔
    ∃ card anchor, .listen card anchor ∈ drafts cards connections channel ∧
      anchor.listens = true ∧ Endpoint.eventPlace ⟨card, anchor.id⟩ = place
  registry : graph.connections = Registry.empty.enroll connections
  cards_eq : graph.cards = cards
  channel_eq : graph.channel = channel

namespace Graph

variable {graph : Graph} {mode : Mode} {cards : List Card} {config : GraphConfig}
  {globals : Option Values} {board after : Board}

/-- The circuit of a graph that was built has grown from nothing. -/
theorem Built.grows {connections : List Connection} {channel : Nat}
    (built : graph.Built cards connections channel) :
    Circuit.Grows ⟨"", .empty, .empty, .empty, .empty, .empty⟩ (drafts cards connections channel)
      graph.net where
  plain := fun _ => built.plain
  fixture := fun site => by rw [built.fixture, Circuit.fixture?_blank, Option.none_or]
  bound := built.bound

/-- What laying out connections and then cards on an empty graph makes. -/
theorem built_of_laid {bench middle laid : Bench} {connections : List Connection}
    {supplies : Bool} {name : String} {channel : Nat}
    (start : bench.graph = blank mode ⟨name, .empty, .empty, .empty, .empty, .empty⟩ cards channel
      supplies)
    (connected : bench.connectAll connections = (.ok (), middle))
    (applied : middle.applyAll (middle.graph.cards.flatMap fun card =>
      card.blueprint middle.graph.channel) = (.ok (), laid)) :
    laid.seed.graph.Built cards connections channel ∧ laid.seed.graph.mode = mode := by
  obtain ⟨graph, board⟩ := bench
  obtain rfl := start
  obtain ⟨grown, warnings, grows, rfl⟩ := Bench.grows_of_connectAll connected
  have cardsLaid := Bench.grows_of_applyAll applied
  have cards_eq : grown.graph.cards = cards := by rw [grows.graph]; rfl
  have channel_eq : grown.graph.channel = channel := by rw [grows.graph]; rfl
  have further : grown.Grows (grown.graph.cards.flatMap fun card =>
      card.blueprint grown.graph.channel) _ :=
    cardsLaid.relabel grown.graph.connections grown.graph.warnings
  rw [cards_eq, channel_eq] at further
  have whole : Bench.Grows _ (drafts cards connections channel) _ := grows.trans further
  have frame := cardsLaid.graph
  have bared : laid.graph.net.bare = laid.seed.graph.net.bare :=
    (Net.bare_seedAll laid.graph.net laid.graph.net.seedPlaces).symm
  refine ⟨⟨(whole.net.plain ⟨.blank _, by simp [blank]⟩).of_bare bared, fun site => ?_,
    fun edit member id wanted wants => ?_, fun place => ?_, ?_, ?_, ?_⟩, ?_⟩
  · rw [← Circuit.fixture?_of_bare bared]
    refine (whole.net.fixture site).trans ?_
    rw [blank, Circuit.fixture?_blank, Option.none_or]
  · rw [Circuit.boundTo?, ← Net.content?_of_bare bared]
    exact whole.net.bound edit member id wanted wants
  · refine (whole.listens place).trans ?_
    simp [blank]
  all_goals rw [Bench.seed, frame]
  · rfl
  · exact cards_eq
  · exact channel_eq
  · rw [grows.graph]
    rfl

/-- The plans of a built graph do not matter. -/
theorem Built.replan {connections : List Connection} {channel : Nat}
    (built : graph.Built cards connections channel) (paths : Registry Plan) (plan : Option Plan) :
    Built { graph with paths := paths, plan := plan } cards connections channel :=
  ⟨built.plain, built.fixture, built.bound, built.listens, built.registry, built.cards_eq,
    built.channel_eq⟩

/-- What laying out a whole graph and making its plans makes. -/
theorem built_of_construct {bench done : Bench} {connections : List Connection}
    {supplies : Bool} {name : String} {channel : Nat}
    (start : bench.graph = blank mode ⟨name, .empty, .empty, .empty, .empty, .empty⟩ cards channel
      supplies)
    (constructed : bench.construct connections = (.ok (), done)) :
    done.graph.Built cards connections channel ∧ done.graph.mode = mode := by
  unfold Bench.construct at constructed
  split at constructed
  · cases constructed
  · next middle connected =>
      dsimp only at constructed
      split at constructed
      · cases constructed
      · next laid applied =>
          obtain ⟨built, modes⟩ := built_of_laid start connected applied
          obtain ⟨paths, plan, compiled⟩ := recompile_frame
            (rfl : laid.seed.graph.recompile = _)
          have same : done.graph = { laid.seed.graph with paths := paths, plan := plan } := by
            rw [← compiled]
            exact (congrArg (·.2.graph) constructed).symm
          rw [same]
          exact ⟨built.replan paths plan, modes⟩

/-- What a successful build makes, whatever the names are. -/
theorem built_of_build (built : build mode config cards globals board = (.ok graph, after)) :
    graph.Built cards config.connections board.nextSlot ∧ graph.mode = mode := by
  unfold build at built
  split at built
  · cases built
  · next net created =>
      unfold Net.create at created
      split at created
      · cases created
      · obtain rfl := Except.ok.inj created
        dsimp only at built
        split at built
        · next bench constructed =>
            obtain ⟨same, -⟩ := Prod.mk.inj built
            obtain rfl := Except.ok.inj same
            exact built_of_construct rfl constructed
        · cases built

end Graph

end CardNet
