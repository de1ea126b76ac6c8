import CardNet.Proofs.Graph.Accounting
import CardNet.Proofs.Graph.Rebuilding
import CardNet.Proofs.Net.Restoration

/-!
# Taking a connection back

A connection that is added and removed again leaves the graph as it was, down to the order of its
nodes and arcs (`Bench.add_undone`). Both edits keep the order of what they leave alone, so the two
graphs before and after are what is left of the one in between, and it is enough that they have
the same nodes and arcs (`Circuit.eq_of_within`); this they have as both can account for them. The
ids have to be told apart, as in `SetApart`: where an anchor goes by the ids of an event, the
removal leaves something behind (`Bench.added_connection_lingers`).
-/

namespace CardNet

/-! ## What is left of a list -/

section

variable {α β : Type} [DecidableEq β] {key : α → β} {whole first second : List α}

/-- What is left of a list is found in it by the keys. -/
private theorem filter_of_sublist (distinct : (whole.map key).Nodup)
    (left : first.Sublist whole) :
    whole.filter (fun entry => key entry ∈ first.map key) = first := by
  induction left with
  | slnil => rfl
  | @cons first whole entry sublist ih =>
      obtain ⟨fresh, rest⟩ := List.nodup_cons.mp distinct
      have gone : key entry ∉ first.map key := fun member => fresh ((sublist.map key).subset member)
      rw [List.filter_cons_of_neg (by simpa using gone), ih rest]
  | @cons_cons first whole entry sublist ih =>
      obtain ⟨fresh, rest⟩ := List.nodup_cons.mp distinct
      rw [List.filter_cons_of_pos (by simp)]
      refine congrArg _ ((List.filter_congr fun other member => ?_).trans (ih rest))
      have differ : key other ≠ key entry := fun same => fresh (same ▸ List.mem_map_of_mem member)
      simp [differ]

/-- Two lists that are left of one are equal when they have the same keys. -/
private theorem eq_of_sublists (distinct : (whole.map key).Nodup) (left : first.Sublist whole)
    (right : second.Sublist whole)
    (same : ∀ name, name ∈ first.map key ↔ name ∈ second.map key) : first = second := by
  rw [← filter_of_sublist distinct left, ← filter_of_sublist distinct right]
  simp only [same]

end

namespace Registry

variable {α : Type} {first second whole : Registry α}

theorem eq_of_sublists (left : first.entries.Sublist whole.entries)
    (right : second.entries.Sublist whole.entries)
    (same : ∀ name, name ∈ first.names ↔ name ∈ second.names) : first = second :=
  ext (CardNet.eq_of_sublists whole.distinct left right same)

theorem sublist_insert {registry : Registry α} {name : String} (entry : α)
    (fresh : name ∉ registry.names) :
    registry.entries.Sublist (registry.insert name entry).entries := by
  simp only [insert, fresh, not_false_eq_true, ↓reduceDIte, append]
  exact List.sublist_append_left ..

theorem erase_sublist (registry : Registry α) (name : String) :
    (registry.erase name).entries.Sublist registry.entries :=
  List.filter_sublist

end Registry

/-! ## What is left of a circuit -/

/-- The places of anchors are those of places. -/
private theorem namesPlace_of_anchor {id : String} (anchor : Family.read id = .anchor) :
    namesPlace id = true := by
  unfold Family.read at anchor
  unfold namesPlace
  split at anchor
  · next first => simp only [first]
  · cases anchor
  · cases anchor
  · split at anchor <;> cases anchor
  · split at anchor <;> cases anchor

/-- A circuit is what is left of another one: in the same order, with the same tokens, contents and
actions. -/
structure Circuit.Within (net whole : Circuit) : Prop where
  name : net.name = whole.name
  places : net.places.entries.Sublist whole.places.entries
  transitions : net.transitions.entries.Sublist whole.transitions.entries
  arcs : net.arcs.values.Sublist whole.arcs.values

namespace Circuit

variable {net middle whole other : Circuit}

theorem Within.refl (net : Circuit) : net.Within net :=
  ⟨rfl, .refl _, .refl _, .refl _⟩

theorem Within.trans (left : net.Within middle) (right : middle.Within whole) : net.Within whole :=
  ⟨left.name.trans right.name, left.places.trans right.places,
    left.transitions.trans right.transitions, left.arcs.trans right.arcs⟩

/-- Two circuits that are left of one are equal when they have the same nodes and arcs. -/
theorem eq_of_within (left : net.Within whole) (right : other.Within whole)
    (first : net.Operated) (second : other.Operated) (operated : whole.Operated)
    (places : ∀ id, id ∈ net.places.names ↔ id ∈ other.places.names)
    (transitions : ∀ id, id ∈ net.transitions.names ↔ id ∈ other.transitions.names)
    (arcs : ∀ arc, arc ∈ net.arcs.values ↔ arc ∈ other.arcs.values) : net = other := by
  apply first.ext second
  · exact left.name.trans right.name.symm
  · exact Registry.eq_of_sublists left.places right.places places
  · exact Registry.eq_of_sublists left.transitions right.transitions transitions
  · have distinct : (whole.arcs.values.map id).Nodup := by
      rw [List.map_id]
      exact operated.shape.1.nodup_values
    exact eq_of_sublists distinct left.arcs right.arcs (by simpa using arcs)

private theorem within_addPlace {id : String} {place : Place Content}
    (added : (net.addPlace id place).mapError Failure.net = .ok whole) : net.Within whole := by
  unfold Net.addPlace at added
  split at added
  · cases added
  · next free =>
      cases added
      have fresh : id ∉ net.places.names := fun known =>
        free ((Net.hasNode_iff net).mpr (.inl known))
      exact ⟨rfl, Registry.sublist_insert _ fresh, .refl _, .refl _⟩

/-- An edit takes nothing away. -/
theorem within_of_change {edit : Edit} (changed : edit.change net = .ok whole) :
    net.Within whole := by
  have bound : ∀ {id content wanted}, net.bindPlace id content wanted = .ok whole →
      net.Within whole := by
    intro id content wanted changed
    unfold bindPlace at changed
    split at changed
    · exact within_addPlace changed
    · dsimp only at changed
      split at changed <;> cases changed
      exact .refl net
  cases edit with
  | anchorPlace card anchor => exact bound changed
  | eventPlace card anchor => exact bound changed
  | listen card anchor =>
      cases changed
      exact .refl net
  | place id held =>
      simp only [Edit.change, ensurePlace] at changed
      split at changed
      · cases changed
        exact .refl net
      · exact within_addPlace changed
  | transition id action =>
      simp only [Edit.change, ensureTransition] at changed
      split at changed
      · cases changed
        exact .refl net
      · next absent =>
          unfold Net.addTransition at changed
          split at changed
          · cases changed
          · cases changed
            have fresh := mt Registry.contains_eq_true.mpr absent
            exact ⟨rfl, .refl _, Registry.sublist_insert _ fresh, .refl _⟩
  | arc source target =>
      simp only [Edit.change, ensureArc] at changed
      split at changed
      · cases changed
        exact .refl net
      · next absent =>
          have fresh : Arc.name ⟨source, target, 1⟩ ∉ net.arcs.names :=
            mt Registry.contains_eq_true.mpr absent
          have tried := net.operate_addArc source target 1
          rw [Net.operate] at tried
          cases added : net.addArc source target 1 with
          | error error =>
              rw [added] at changed
              cases changed
          | ok made =>
              rw [added] at changed tried
              cases changed
              rcases tried with same | ⟨-, same⟩
              · exact same ▸ .refl whole
              · obtain rfl : whole = net.pushArc ⟨source, target, 1⟩ := same
                refine ⟨rfl, .refl _, .refl _, ?_⟩
                rw [show (net.pushArc ⟨source, target, 1⟩).arcs.values =
                  net.arcs.values ++ [⟨source, target, 1⟩] from
                  Registry.values_insert_of_not_mem _ fresh]
                exact List.sublist_append_left ..

theorem Within.of_without {id : String} (without : net.Without whole id) : net.Within whole where
  name := without.name
  places := without.places ▸ whole.places.erase_sublist id
  transitions := without.transitions ▸ whole.transitions.erase_sublist id
  arcs := without.arcs ▸ List.filter_sublist

/-- Without a connection a circuit is what is left of it. -/
theorem within_uprooted (operated : net.Operated) (connection : Connection) :
    (net.uprooted connection).Within net :=
  uprooted_of_steps (fun net after => after.Within net) .refl
    (fun first second => second.trans first) .of_without operated connection

/-- Two circuits that are left of one and serve the same cards and connections are equal when they
have the same places of anchors. -/
theorem eq_of_serves {cards : List Card} {connections : List Connection}
    (left : net.Within whole) (right : other.Within whole)
    (first : net.Operated) (second : other.Operated) (operated : whole.Operated)
    (served : net.Serves cards connections) (serves : other.Serves cards connections)
    (anchors : ∀ id, Family.read id = .anchor →
      (id ∈ net.places.names ↔ id ∈ other.places.names)) : net = other := by
  have nodes : ∀ id, Family.read id ≠ .anchor →
      (net.hasNode id = true ↔ other.hasNode id = true) :=
    fun id plain => (served.nodes id plain).trans (serves.nodes id plain).symm
  have places : ∀ {net other : Circuit}, net.Tidy → other.Tidy → ∀ {id},
      (net.hasNode id = true → other.hasNode id = true) → id ∈ net.places.names →
      id ∈ other.places.names := by
    intro net other tidy later id kept known
    exact later.mem_places (kept ((Net.hasNode_iff net).mpr (.inl known))) (tidy.place id known)
  have transitions : ∀ {net other : Circuit}, net.Tidy → other.Tidy →
      (∀ id, Family.read id ≠ .anchor → net.hasNode id = true → other.hasNode id = true) →
      ∀ id ∈ net.transitions.names, id ∈ other.transitions.names := by
    intro net other tidy later kept id known
    have named := tidy.transition id known
    have plain : Family.read id ≠ .anchor := fun anchor =>
      Bool.noConfusion ((namesPlace_of_anchor anchor).symm.trans named)
    exact later.mem_transitions (kept id plain ((Net.hasNode_iff net).mpr (.inr known))) named
  refine eq_of_within left right first second operated (fun id => ?_) (fun id => ?_) (fun arc => ?_)
  · by_cases anchor : Family.read id = .anchor
    · exact anchors id anchor
    · exact ⟨places served.tidy serves.tidy (nodes id anchor).mp,
        places serves.tidy served.tidy (nodes id anchor).mpr⟩
  · exact ⟨transitions served.tidy serves.tidy (fun id plain => (nodes id plain).mp) id,
      transitions serves.tidy served.tidy (fun id plain => (nodes id plain).mpr) id⟩
  · have same : ∀ {net other : Circuit}, net.Serves cards connections →
        other.Serves cards connections → arc ∈ net.arcs.values → arc ∈ other.arcs.values := by
      intro net other served serves listed
      have single := served.tidy.plain.weight arc listed
      have joined : net.Joins arc.source arc.target := by rwa [Net.Joins, ← single]
      have kept := (serves.joins _ _).mpr ((served.joins _ _).mp joined)
      rwa [Net.Joins, ← single] at kept
    exact ⟨same served serves, same serves served⟩

end Circuit

/-! ## What is left of a graph -/

/-- A graph on its board is what is left of another one, as far as circuit and subscriptions go, and
the board is the same but for the bells. -/
structure Bench.Within (bench whole : Bench) : Prop where
  net : bench.graph.net.Within whole.graph.net
  subscriptions : bench.graph.subscriptions.entries.Sublist whole.graph.subscriptions.entries
  board : { bench.board with bells := ∅ } = { whole.board with bells := ∅ }

namespace Bench

variable {bench middle after : Bench}

theorem Within.trans (left : bench.Within middle) (right : middle.Within after) :
    bench.Within after :=
  ⟨left.net.trans right.net, left.subscriptions.trans right.subscriptions,
    left.board.trans right.board⟩

theorem within_listen (bench : Bench) (place : String) (anchor : Anchor) :
    bench.Within (bench.listen place anchor) := by
  unfold listen
  split
  · exact ⟨.refl _, .refl _, rfl⟩
  · next silent =>
      unfold Board.subscribe
      split
      · next number board taken =>
          split at taken
          · cases taken
            have fresh := mt Registry.contains_eq_true.mpr silent
            exact ⟨.refl _, Registry.sublist_insert _ fresh, rfl⟩
          · cases taken
      · next board refused =>
          split at refused
          · cases refused
          · cases refused
            exact ⟨.refl _, .refl _, rfl⟩

theorem within_of_apply {edit : Edit} (applied : edit.apply bench = .ok after) :
    bench.Within after := by
  have netted : bench.withNet (edit.change bench.graph.net) = .ok after → bench.Within after := by
    intro same
    cases made : edit.change bench.graph.net with
    | error failure =>
        rw [made] at same
        cases same
    | ok net =>
        rw [made] at same
        cases same
        exact ⟨Circuit.within_of_change made, .refl _, rfl⟩
  cases edit with
  | listen card anchor =>
      cases applied
      exact bench.within_listen _ anchor
  | anchorPlace | eventPlace | place | transition | arc => exact netted applied

/-- Edits take nothing away. -/
theorem within_of_applyAll {edits : List Edit} (applied : bench.applyAll edits = (.ok (), after)) :
    bench.Within after := by
  induction edits generalizing bench with
  | nil =>
      obtain ⟨-, rfl⟩ := Prod.mk.inj applied
      exact ⟨.refl _, .refl _, rfl⟩
  | cons edit rest ih =>
      rw [applyAll] at applied
      split at applied
      · next first => exact (within_of_apply first).trans (ih applied)
      · cases applied

/-- What is left when a connection is taken out is what it says. -/
theorem within_uproot (operated : bench.graph.net.Operated) (connection : Connection) :
    (bench.uproot connection).Within bench := by
  refine ⟨?_, ?_, ?_⟩
  · rw [graph_uproot]
    exact Circuit.within_uprooted operated connection
  · rw [graph_uproot]
    dsimp only
    split
    · exact bench.graph.subscriptions.erase_sublist _
    · exact .refl _
  · rw [uproot_eq]
    dsimp only
    split
    · split
      · unfold unlisten
        split <;> rfl
      · rfl
    · rfl

/-! ## Edits that all succeed -/

/-- A graph for given cards that lists known connections only and can account for its nodes. -/
structure Tracked (bench : Bench) (cards : List Card) (known : List Connection) : Prop where
  reached : bench.Reached
  accounted : bench.graph.Accounted
  cards_eq : bench.graph.cards = cards
  mode_eq : bench.graph.mode = .visual
  within : ∀ connection ∈ bench.graph.connections.values, connection ∈ known

theorem recompile_visual (visual : bench.graph.mode = .visual) :
    bench.recompile = (.ok (), bench) := by
  rw [recompile, Graph.recompile, visual]

variable {cards : List Card} {known : List Connection} {connection : Connection} {id : String}

/-- A connection that is listed is taken out. -/
theorem removeConnection_visual (visual : bench.graph.mode = .visual)
    (held : bench.graph.connections.get? id = some connection) :
    bench.removeConnection id = (.ok true, Bench.uproot { bench with
      graph.connections := bench.graph.connections.erase id } connection) := by
  have modes : Graph.mode (Bench.graph (Bench.uproot { bench with
      graph.connections := bench.graph.connections.erase id } connection)) = .visual := by
    rw [graph_uproot]
    exact visual
  rw [removeConnection, held]
  dsimp only
  rw [recompile_visual modes]
  rfl

theorem Tracked.add (tracked : bench.Tracked cards known) (apart : SetApart cards known)
    (member : connection ∈ known) (added : bench.addConnection connection = (.ok id, after)) :
    after.Tracked cards known := by
  have reached : after.Reached := by
    have later := tracked.reached.add connection
    rwa [added] at later
  obtain ⟨-, accounted, rfl, visual, within⟩ := tracked
  unfold addConnection at added
  split at added
  · cases added
  · next made middle connected =>
      obtain ⟨later, members⟩ := accounted_connect accounted apart within member connected
      obtain ⟨-, grown, warnings, grows, same⟩ := grows_of_connect connected
      have kept : middle.graph.mode = bench.graph.mode ∧
          middle.graph.cards = bench.graph.cards := by
        rw [same]
        dsimp only
        rw [grows.graph]
        exact ⟨rfl, rfl⟩
      rw [recompile_visual (kept.1.trans visual)] at added
      cases added
      refine ⟨reached, later, kept.2, kept.1.trans visual, fun other listed => ?_⟩
      rcases (members other).mp listed with rfl | old
      · exact member
      · exact within other old

theorem Tracked.remove {answer : Bool} (tracked : bench.Tracked cards known)
    (apart : SetApart cards known) (removed : bench.removeConnection id = (.ok answer, after)) :
    after.Tracked cards known := by
  have reached : after.Reached := by
    have later := tracked.reached.remove id
    rwa [removed] at later
  have start := tracked
  obtain ⟨-, accounted, rfl, visual, within⟩ := tracked
  cases held : bench.graph.connections.get? id with
  | none =>
      rw [removeConnection, held] at removed
      cases removed
      exact start
  | some connection =>
      have listed := Registry.mem_values_iff.mpr ⟨id, held⟩
      obtain rfl := accounted.named id connection held
      obtain ⟨later, members⟩ := accounted_uproot accounted apart within listed rfl
      rw [removeConnection_visual visual held] at removed
      cases removed
      refine ⟨reached, later, ?_, ?_,
        fun other listed => within other ((members other).mp listed).1⟩
      · rw [graph_uproot]
      · rw [graph_uproot]
        exact visual

/-- A graph that was built, and edited since by changes that all succeeded. -/
theorem tracked_rewireAll {changes : List Rewiring} (tracked : bench.Tracked cards known)
    (apart : SetApart cards known)
    (added : ∀ connection, .add connection ∈ changes → connection ∈ known)
    (rewired : bench.rewireAll changes = (.ok (), after)) : after.Tracked cards known := by
  induction changes generalizing bench with
  | nil =>
      obtain ⟨-, rfl⟩ := Prod.mk.inj rewired
      exact tracked
  | cons change rest ih =>
      have later : ∀ connection, .add connection ∈ rest → connection ∈ known :=
        fun connection member => added connection (List.mem_cons_of_mem _ member)
      cases change with
      | add connection =>
          rw [rewireAll] at rewired
          split at rewired
          · next first =>
              have member := added connection (List.mem_cons_self ..)
              exact ih (tracked.add apart member first) later rewired
          · cases rewired
      | remove id =>
          rw [rewireAll] at rewired
          split at rewired
          · next first => exact ih (tracked.remove apart first) later rewired
          · cases rewired

/-! ## Adding and removing -/

/-- The only edits that lay out the place of an anchor are those that want it for an anchor. -/
private theorem exists_wants_of_anchor {cards : List Card} {connections : List Connection}
    {channel : Nat} {edit : Edit} (drafted : edit ∈ drafts cards connections channel)
    {id : String} (named : edit.node? = some id) (anchor : Family.read id = .anchor) :
    ∃ wanted, edit.wants? = some (id, wanted) := by
  rcases mem_drafts.mp drafted with ⟨card, -, brings⟩ | ⟨connection, -, parties, -, brings⟩
  · cases brings with
    | anchor | event => cases named; exact ⟨_, rfl⟩
    | start =>
        cases named
        exact nomatch anchor.symm.trans (Family.read_name (.start card))
    | call =>
        cases named
        exact nomatch anchor.symm.trans (Family.read_name (.internal card))
    | begin | input | output => cases named
  · cases brings with
    | source | event | target => cases named; exact ⟨_, rfl⟩
    | handOver =>
        cases named
        have place := namesPlace_of_anchor anchor
        simp at place
    | relay =>
        cases named
        exact nomatch anchor.symm.trans (Family.read_splitPlace connection)
    | transfer =>
        cases named
        exact nomatch anchor.symm.trans (Family.read_name (.transfer connection))
    | listen | hand | spread | take | bring => cases named

/-- What a connection to an anchor that is no event wants is bound so already. -/
private theorem bound_of_draft (seated : bench.graph.Seated)
    (lands : connection.Lands bench.graph.cards) {edit : Edit}
    (drafted : edit ∈ connection.draft bench.graph.cards bench.graph.channel) {id : String}
    {wanted : Endpoint} (wants : edit.wants? = some (id, wanted)) :
    bench.graph.net.boundTo? id = some wanted := by
  rcases mem_drafts.mp (mem_drafts_of_draft (List.mem_singleton.mpr rfl) drafted) with
    ⟨card, member, brings⟩ | ⟨other, same, parties, found, brings⟩
  · obtain ⟨anchor, slot, rfl, rfl⟩ := brings.wants wants
    exact seated.bound card member anchor slot
  · obtain rfl := List.mem_singleton.mp same
    obtain ⟨ends, resolves, kind⟩ := lands
    obtain rfl := Except.ok.inj (found.symm.trans resolves)
    have joined := Connection.resolved_of_parties found
    have source := seated.bound _ joined.sourceCard _ joined.source
    have target := seated.bound _ joined.targetCard _ joined.target
    unfold Card.anchorPlace at source target
    cases brings with
    | source value =>
        cases wants
        rw [if_neg value] at source
        rwa [joined.sourceEnd]
    | event event =>
        cases wants
        rw [if_pos event] at source
        rwa [joined.sourceEnd]
    | target =>
        cases wants
        rw [if_neg kind] at target
        rwa [joined.targetEnd]
    | _ => cases wants

/-- Nothing is in the way of a connection to an anchor that is no event. -/
private theorem connect_of_lands (seated : bench.graph.Seated)
    (lands : connection.Lands bench.graph.cards) : ∃ grown,
      bench.applyAll (connection.draft bench.graph.cards bench.graph.channel) = (.ok (), grown) ∧
      bench.connect connection = (.ok connection.id, grown.register connection) := by
  obtain ⟨parties, found, -⟩ := id lands
  have drafted : connection.draft bench.graph.cards bench.graph.channel =
      connection.layout parties bench.graph.channel := by
    rw [Connection.draft, found]
  obtain ⟨grown, applied⟩ := exists_applyAll bench seated.tidy
    (drafted ▸ Connection.follow_layout found bench.graph.channel _)
    fun edit member id wanted wants => bound_of_draft seated lands member wants
  refine ⟨grown, applied, ?_⟩
  rw [drafted] at applied
  simp only [connect, found, applied]

/-- A connection that is added and taken out again leaves the places of anchors as they were. -/
private theorem anchors_of_undone {grown : Bench} (seated : bench.graph.Seated)
    (lands : connection.Lands bench.graph.cards)
    (applied : bench.applyAll (connection.draft bench.graph.cards bench.graph.channel) =
      (.ok (), grown)) {id : String} (anchor : Family.read id = .anchor) :
    id ∈ (grown.uproot connection).graph.net.places.names ↔ id ∈ bench.graph.net.places.names := by
  have other : id ≠ connection.splitPlace := by
    rintro rfl
    exact nomatch anchor.symm.trans (Family.read_splitPlace connection)
  rw [graph_uproot]
  dsimp only
  rw [Circuit.places_uprooted, Registry.names_erase, List.mem_filter, decide_eq_true_eq,
    and_iff_left other]
  constructor
  · intro known
    have grows := (grows_of_applyAll applied).net
    rcases grows.hasNode_iff.mp ((Net.hasNode_iff _).mpr (.inl known)) with
      old | ⟨edit, drafted, named⟩
    · exact seated.tidy.mem_places old (namesPlace_of_anchor anchor)
    · obtain ⟨wanted, wants⟩ := exists_wants_of_anchor
        (mem_drafts_of_draft (List.mem_singleton.mpr rfl) drafted) named anchor
      have bound := bound_of_draft seated lands drafted wants
      obtain ⟨held, found, -⟩ := Option.bind_eq_some_iff.mp bound
      obtain ⟨place, here, -⟩ := Option.bind_eq_some_iff.mp found
      exact Registry.mem_names_of_get? here
  · exact fun known => ((within_of_applyAll applied).net.places.map Prod.fst).subset known

/-- A connection under a new id is taken out again. -/
private theorem removeConnection_register (visual : bench.graph.mode = .visual)
    (fresh : connection.id ∉ bench.graph.connections.names) :
    (bench.register connection).removeConnection connection.id =
      (.ok true, bench.uproot connection) := by
  have held : (bench.register connection).graph.connections.get? connection.id =
      some connection := by
    rw [register]
    dsimp only
    rw [Registry.get?_insert, if_pos rfl]
  rw [removeConnection_visual (by exact visual) held]
  unfold register
  dsimp only
  rw [Registry.erase_insert connection fresh]

/-- What is left when a connection is taken out that has been laid out is the graph before, if both
can account for their nodes. -/
private theorem graph_undone {grown : Bench} (tracked : bench.Tracked cards known)
    (lands : connection.Lands cards)
    (applied : bench.applyAll (connection.draft bench.graph.cards bench.graph.channel) =
      (.ok (), grown)) (operated : grown.graph.net.Operated)
    (rest : (grown.uproot connection).Tracked cards known) :
    (grown.uproot connection).graph = bench.graph := by
  have before := within_of_applyAll applied
  have after := within_uproot operated connection
  have frame := graph_uproot grown connection
  rw [(grows_of_applyAll applied).graph] at frame
  have listed : (grown.uproot connection).graph.connections = bench.graph.connections := by
    rw [frame]
  have net : (grown.uproot connection).graph.net = bench.graph.net := by
    have served := rest.accounted.net
    rw [rest.cards_eq, listed, ← tracked.cards_eq] at served
    rw [← tracked.cards_eq] at lands
    exact Circuit.eq_of_serves after.net before.net rest.reached.operated
      tracked.reached.operated operated served tracked.accounted.net
      fun id anchor => anchors_of_undone tracked.reached.seated lands applied anchor
  have subscriptions : (grown.uproot connection).graph.subscriptions =
      bench.graph.subscriptions := by
    refine Registry.eq_of_sublists after.subscriptions before.subscriptions fun place => ?_
    rw [rest.accounted.heard, tracked.accounted.heard, rest.cards_eq, tracked.cards_eq, listed]
  rw [frame] at net subscriptions ⊢
  dsimp only at net subscriptions ⊢
  rw [net, subscriptions]

/-- A connection that is not listed can be added to a graph that can account for its nodes, and
taking it out again undoes that. -/
theorem undone_of_tracked (apart : SetApart cards known) (tracked : bench.Tracked cards known)
    (member : connection ∈ known) (lands : connection.Lands cards)
    (fresh : connection ∉ bench.graph.connections.values) : ∃ middle after,
      bench.addConnection connection = (.ok connection.id, middle) ∧
      middle.removeConnection connection.id = (.ok true, after) ∧
      after.graph = bench.graph ∧
      { after.board with bells := ∅ } = { bench.board with bells := ∅ } := by
  obtain ⟨grown, applied, connected⟩ := connect_of_lands tracked.reached.seated
    (tracked.cards_eq ▸ lands)
  have frame := (grows_of_applyAll applied).graph
  have visual : grown.graph.mode = .visual := by
    rw [frame]
    exact tracked.mode_eq
  have added : bench.addConnection connection = (.ok connection.id, grown.register connection) := by
    rw [addConnection, connected]
    dsimp only
    rw [recompile_visual (by exact visual)]
    rfl
  -- No other connection goes by the id, so the removal takes out just the one that was added.
  have absent : connection.id ∉ grown.graph.connections.names := by
    rw [frame]
    intro taken
    obtain ⟨other, held⟩ := Registry.exists_get?_of_mem_names taken
    have listed := Registry.mem_values_iff.mpr ⟨_, held⟩
    have same := apart.connection other (tracked.within other listed) connection member
      (tracked.accounted.named _ other held)
    exact fresh (same ▸ listed)
  have removed := removeConnection_register visual absent
  have middle := tracked.add apart member added
  have operated : grown.graph.net.Operated := middle.reached.operated
  refine ⟨_, _, added, removed, graph_undone tracked lands applied operated
    (middle.remove apart removed), ?_⟩
  exact (within_uproot operated connection).board.trans (within_of_applyAll applied).board.symm

/-- However a graph was built and edited since, by changes that all succeeded: a connection between
known anchors, to one that is no event, can be added unless it is listed, and when it is taken out
again the graph is what it was, with all nodes and arcs in their orders, their tokens and contents,
the connections and the subscriptions. The board is what it was but for the numbers that are given
to listeners. The ids that are generated for cards, anchors, connections and arcs are distinct, and
no connection from an anchor that is no event goes by the ids of an event. -/
theorem add_undone {config : GraphConfig} {globals : Option Values} {board start : Board}
    {graph : Graph} {changes : List Rewiring} (apart : SetApart cards known)
    (laid : ∀ other ∈ config.connections, other ∈ known)
    (added : ∀ other, .add other ∈ changes → other ∈ known)
    (built : Graph.build .visual config cards globals board = (.ok graph, start))
    (rewired : Bench.rewireAll ⟨graph, start⟩ changes = (.ok (), bench))
    (member : connection ∈ known) (lands : connection.Lands cards)
    (fresh : connection ∉ bench.graph.connections.values) : ∃ middle after,
      bench.addConnection connection = (.ok connection.id, middle) ∧
      middle.removeConnection connection.id = (.ok true, after) ∧
      after.graph = bench.graph ∧
      { after.board with bells := ∅ } = { bench.board with bells := ∅ } := by
  obtain ⟨whole, mode_eq⟩ := Graph.built_of_build built
  obtain ⟨accounted, members⟩ := whole.accounted apart laid
  have tracked : Bench.Tracked ⟨graph, start⟩ cards known :=
    ⟨.build built, accounted, whole.cards_eq, mode_eq,
      fun other listed => laid other ((members other).mp listed)⟩
  exact undone_of_tracked apart (tracked_rewireAll tracked apart added rewired) member lands fresh

/-- The first connection of the bell was removed; it is added behind the others, whose split it
shares, and removed again. -/
theorem add_undone_bell : ∃ graph start bench middle after,
    Rewired.built = (.ok graph, start) ∧
    rewireAll ⟨graph, start⟩ Rewired.changes = (.ok (), bench) ∧
    bench.addConnection ⟨⟨"bell", "out"⟩, ⟨"lamp", "on"⟩⟩ = (.ok "bell-out-lamp-on", middle) ∧
    middle.removeConnection "bell-out-lamp-on" = (.ok true, after) ∧
    after.graph = bench.graph := by
  have succeeds : Rewired.built.1.toOption.any (fun graph =>
      (rewireAll ⟨graph, Rewired.built.2⟩ Rewired.changes).1.toOption.isSome &&
        !(rewireAll ⟨graph, Rewired.built.2⟩ Rewired.changes).2.graph.connections.values.contains
          ⟨⟨"bell", "out"⟩, ⟨"lamp", "on"⟩⟩) = true := by
    decide +kernel
  have usable := Rewired.usable
  have apart : SetApart Rewired.seated.1 Rewired.known :=
    { toClearNames := usable.clear, relays := by decide +kernel, transfers := by decide +kernel,
      apart := usable.apart }
  rcases held : Rewired.built with ⟨failure | graph, start⟩
  · rw [held] at succeeds
    cases succeeds
  · rw [held] at succeeds
    change ((rewireAll ⟨graph, start⟩ Rewired.changes).1.toOption.isSome &&
      !(rewireAll ⟨graph, start⟩ Rewired.changes).2.graph.connections.values.contains
        ⟨⟨"bell", "out"⟩, ⟨"lamp", "on"⟩⟩) = true at succeeds
    rcases rewired : rewireAll ⟨graph, start⟩ Rewired.changes with ⟨failure | done, bench⟩
    · rw [rewired] at succeeds
      cases succeeds
    · rw [rewired, Bool.and_eq_true] at succeeds
      have fresh : ⟨⟨"bell", "out"⟩, ⟨"lamp", "on"⟩⟩ ∉ bench.graph.connections.values := by
        simpa using succeeds.2
      have added : ∀ other, .add other ∈ Rewired.changes → other ∈ Rewired.known := by
        intro other member
        simp only [Rewired.changes, List.mem_cons, Rewiring.add.injEq, reduceCtorEq, false_or,
          or_false, List.not_mem_nil] at member
        rcases member with rfl | rfl | rfl <;> decide
      obtain ⟨middle, after, adds, removes, same, -⟩ := add_undone apart (by decide) added held
        rewired (List.mem_cons_self ..) (usable.lands _ (List.mem_cons_self ..)) fresh
      exact ⟨graph, start, bench, middle, after, rfl, rewired, adds, removes, same⟩

end Bench

/-! ## What stays behind -/

namespace Lingering

/-- The graph with the connection from the event alone. -/
def silent : Except Failure Graph × Board :=
  Graph.build .visual ⟨"lingering", known.drop 1⟩ seated.1 none seated.2

/-- The names of its transitions before and after the connection from the output is added and
removed again. -/
def undone : Option (List String × List String) :=
  silent.1.toOption.bind fun graph =>
    match Bench.rewireAll ⟨graph, silent.2⟩
        [.add ⟨⟨"a_b", "c"⟩, ⟨"t", "x"⟩⟩, .remove "a_b-c-t-x"] with
    | (.ok (), after) => some (graph.net.transitions.names, after.graph.net.transitions.names)
    | _ => none

end Lingering

/-- Cards, anchors, connections and arcs have distinct ids, and both connections lead from an output
or an event to an input. The connection of the output is added and removed again, and what hands on
from the output stays behind. -/
theorem Bench.added_connection_lingers :
    ClearNames Lingering.seated.1 Lingering.known ∧
    (∀ connection ∈ Lingering.known, ∃ parties,
      connection.parties Lingering.seated.1 = .ok parties ∧
        parties.source.kind ≠ .input ∧ parties.target.kind = .input) ∧
    Lingering.undone = some
      (["event_transition_a_b_c", "transfer_a-b_c_to_t-y", "internal_transition_a_card",
        "internal_transition_t_card", "internal_transition_a_b_card"],
      ["event_transition_a_b_c", "transfer_a-b_c_to_t-y", "internal_transition_a_card",
        "internal_transition_t_card", "internal_transition_a_b_card",
        "split_transition_place_a_b_c"]) := by
  have checked : ∀ connection ∈ Lingering.known,
      (connection.parties Lingering.seated.1).toOption.any
        (fun parties => parties.source.kind != .input && parties.target.kind == .input) = true := by
    decide +kernel
  have wired : ∀ connection ∈ Lingering.known, ∃ parties,
      connection.parties Lingering.seated.1 = .ok parties ∧
        parties.source.kind ≠ .input ∧ parties.target.kind = .input := by
    intro connection member
    obtain ⟨parties, found, kinds⟩ := Connection.of_any (checked connection member)
    exact ⟨parties, found, by simpa using kinds⟩
  have lands : ∀ connection ∈ Lingering.known, connection.Lands Lingering.seated.1 := by
    intro connection member
    obtain ⟨parties, found, -, kind⟩ := wired connection member
    exact ⟨parties, found, by rw [kind]; decide⟩
  refine ⟨.of_lists (.of_lands lands) ?_ ?_ ?_ ?_ ?_ ?_, wired, ?_⟩ <;> decide +kernel

end CardNet
