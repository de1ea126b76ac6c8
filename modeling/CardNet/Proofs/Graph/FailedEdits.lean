import CardNet.Engine.Basic
import CardNet.Proofs.Graph.Uprooting

/-!
# Edits that fail

A graph that was built binds the place of every anchor of its cards, and so it does however it is
edited and run afterwards (`Bench.Reached.seated`). So only the place of a target that is an event
can be in the way of a connection, and a connection that fails for that reason leaves nothing
behind but a subscription (`Bench.connect_error`). A graph whose plans cannot be made after an
edit keeps the edit and loses its plan (`Graph.recompile_error`).
-/

namespace CardNet

/-! ## Graphs that bind their cards -/

/-- A graph whose circuit binds the place of every anchor of its cards. -/
structure Graph.Seated (graph : Graph) : Prop where
  tidy : graph.net.Tidy
  bound : ∀ card ∈ graph.cards, ∀ anchor ∈ card.anchors,
    graph.net.boundTo? (card.anchorPlace anchor) = some ⟨card.id, anchor.id⟩

namespace Card

variable {card : Card} {channel : Nat}

/-- What an edit for a card wants is the place of an anchor of the card. -/
theorem Brings.wants {edit : Edit} (brings : card.Brings channel edit) {id : String}
    {wanted : Endpoint} (wants : edit.wants? = some (id, wanted)) :
    ∃ anchor ∈ card.anchors, id = card.anchorPlace anchor ∧ wanted = ⟨card.id, anchor.id⟩ := by
  cases brings with
  | anchor member kind => cases wants; exact ⟨_, member, (if_neg kind).symm, rfl⟩
  | event member kind => cases wants; exact ⟨_, member, (if_pos kind).symm, rfl⟩
  | _ => cases wants

/-- The place of every anchor of a card is wanted by an edit for the card. -/
theorem exists_wants (channel : Nat) {anchor : Anchor} (member : anchor ∈ card.anchors) :
    ∃ edit, card.Brings channel edit ∧
      edit.wants? = some (card.anchorPlace anchor, ⟨card.id, anchor.id⟩) := by
  unfold anchorPlace
  by_cases kind : anchor.kind = .event
  · exact ⟨_, .event member kind, by rw [if_pos kind]; rfl⟩
  · exact ⟨_, .anchor member kind, by rw [if_neg kind]; rfl⟩

end Card

namespace Graph

variable {graph : Graph} {cards : List Card} {connections : List Connection} {channel : Nat}

theorem Built.seated (built : graph.Built cards connections channel) : graph.Seated where
  tidy := built.tidy
  bound := by
    rw [built.cards_eq]
    intro card member anchor slot
    obtain ⟨edit, brings, wants⟩ := card.exists_wants channel slot
    exact built.bound edit (mem_drafts.mpr (.inl ⟨card, member, brings⟩)) _ _ wants

/-- A graph with the same places, transitions and arcs and the same cards binds them too. -/
theorem Seated.of_bare (seated : graph.Seated) {other : Graph}
    (same : other.net.bare = graph.net.bare) (cards : other.cards = graph.cards) :
    other.Seated where
  tidy := seated.tidy.of_bare same.symm
  bound := by
    simp only [Circuit.boundTo?, Net.content?_of_bare same, cards]
    exact seated.bound

/-- A circuit in which the places of anchors are bound as before binds the cards too. -/
theorem Seated.withNet (seated : graph.Seated) {net : Circuit} (tidy : net.Tidy)
    (same : ∀ card ∈ graph.cards, ∀ anchor ∈ card.anchors,
      net.boundTo? (card.anchorPlace anchor) = graph.net.boundTo? (card.anchorPlace anchor)) :
    Graph.Seated { graph with net := net } where
  tidy := tidy
  bound := fun card member anchor slot =>
    (same card member anchor slot).trans (seated.bound card member anchor slot)

end Graph

namespace Bench

variable {bench after : Bench} {connection : Connection} {failure : Failure}

theorem Grows.seated {edits : List Edit} (grows : bench.Grows edits after)
    (seated : bench.graph.Seated) (tidy : after.graph.net.Tidy) : after.graph.Seated where
  tidy := tidy
  bound := by
    rw [grows.graph]
    exact fun card member anchor slot =>
      grows.net.keeps_bound (seated.bound card member anchor slot)

/-- Adding a connection, with or without success, leaves the cards bound. -/
theorem seated_connect (seated : bench.graph.Seated) (connection : Connection) :
    (bench.connect connection).2.graph.Seated := by
  unfold connect
  dsimp only
  split
  · exact seated.of_bare rfl rfl
  · next parties found =>
      obtain ⟨done, rest, -, last, grows, tidy, ends⟩ := applyAll_cases seated.tidy
        (Connection.follow_layout found bench.graph.channel _)
      have kept := grows.seated seated tidy
      rcases ends with ⟨-, succeeded⟩ | ⟨edit, left, failure, -, -, stopped⟩
      · rw [succeeded]
        exact kept.of_bare rfl rfl
      · rw [stopped]
        exact kept

theorem seated_recompile (seated : bench.graph.Seated) : bench.recompile.2.graph.Seated := by
  obtain ⟨paths, plan, same⟩ := Graph.recompile_frame (rfl : bench.graph.recompile = _)
  have frame : bench.recompile.2.graph = { bench.graph with paths := paths, plan := plan } := same
  rw [frame]
  exact seated.of_bare rfl rfl

theorem seated_addConnection (seated : bench.graph.Seated) (connection : Connection) :
    (bench.addConnection connection).2.graph.Seated := by
  have connected := seated_connect seated connection
  unfold addConnection
  split
  · next same => rwa [same] at connected
  · next same => exact seated_recompile (by rwa [same] at connected)

/-- Taking a connection out leaves the cards bound. -/
theorem seated_uproot (seated : bench.graph.Seated) (connection : Connection) :
    (bench.uproot connection).graph.Seated := by
  have bound := seated.withNet (seated.tidy.uprooted connection) fun card _ anchor _ =>
    bench.graph.net.boundTo?_uprooted connection (card.anchorPlace_ne_splitPlace anchor connection)
  rw [graph_uproot]
  exact bound.of_bare rfl rfl

theorem seated_removeConnection (seated : bench.graph.Seated) (id : String) :
    (bench.removeConnection id).2.graph.Seated := by
  unfold removeConnection
  split
  · exact seated
  · refine seated_recompile (seated_uproot ?_ _)
    exact seated.of_bare rfl rfl

/-- A graph that was built, and has been edited and run since, with or without success. A run
changes tokens and the board. -/
inductive Reached : Bench → Prop where
  | build {mode : Mode} {config : GraphConfig} {cards : List Card} {globals : Option Values}
      {board after : Board} {graph : Graph} :
      Graph.build mode config cards globals board = (.ok graph, after) → Reached ⟨graph, after⟩
  | add {bench : Bench} (connection : Connection) :
      Reached bench → Reached (bench.addConnection connection).2
  | remove {bench : Bench} (id : String) : Reached bench → Reached (bench.removeConnection id).2
  | run {bench : Bench} {net : Circuit} (board : Board) : net.bare = bench.graph.net.bare →
      Reached bench → Reached ⟨{ bench.graph with net := net }, board⟩

/-- The cards of a graph that can be reached are bound. -/
theorem Reached.seated (reached : bench.Reached) : bench.graph.Seated := by
  induction reached with
  | build built => exact (Graph.built_of_build built).1.seated
  | add connection _ ih => exact seated_addConnection ih connection
  | remove id _ ih => exact seated_removeConnection ih id
  | run board same _ ih => exact ih.of_bare same rfl

/-! ## Connections that cannot be added -/

theorem applyAll_append (bench : Bench) (first second : List Edit) :
    bench.applyAll (first ++ second) =
      match bench.applyAll first with
      | (.ok (), middle) => middle.applyAll second
      | (.error failure, middle) => (.error failure, middle) := by
  induction first generalizing bench with
  | nil => rfl
  | cons edit rest ih =>
      rw [List.cons_append, applyAll, applyAll]
      split
      · exact ih _
      · rfl

/-- Edits that want only what is bound already succeed. -/
theorem exists_applyAll (bench : Bench) {edits : List Edit} (tidy : bench.graph.net.Tidy)
    (follow : Edit.Follow (fun id => bench.graph.net.hasNode id = true) edits)
    (bound : ∀ edit ∈ edits, ∀ id wanted, edit.wants? = some (id, wanted) →
      bench.graph.net.boundTo? id = some wanted) :
    ∃ after, bench.applyAll edits = (.ok (), after) := by
  obtain ⟨done, rest, same, last, grows, -, ends⟩ := applyAll_cases tidy follow
  rcases ends with ⟨-, succeeded⟩ | ⟨edit, left, failure, rfl, collides, -⟩
  · exact ⟨last, succeeded⟩
  · obtain ⟨id, wanted, wants, -, other, -⟩ := collides
    have member : edit ∈ edits := same ▸ List.mem_append_right _ (List.mem_cons_self ..)
    exact absurd (grows.net.keeps_bound (bound edit member id wanted wants)) other

/-- The graph after it has begun to listen to the source of a connection, if that is an event. -/
def alerted (bench : Bench) (connection : Connection) : Bench :=
  match connection.parties bench.graph.cards with
  | .ok parties =>
      if parties.source.kind = .event then
        bench.listen connection.source.eventPlace parties.source
      else bench
  | .error _ => bench

private theorem bindPlace_of_bound {net : Circuit} {id : String} {content : Content}
    {wanted : Endpoint} (bound : net.boundTo? id = some wanted) :
    net.bindPlace id content wanted = .ok net := by
  obtain ⟨held, found, same⟩ := Option.bind_eq_some_iff.mp bound
  obtain ⟨place, here, holds⟩ := Option.bind_eq_some_iff.mp found
  have kept : place.content.bind Content.endpoint? = some wanted := by rw [holds]; exact same
  rw [Circuit.bindPlace, here]
  exact if_pos kept

/-- An edit that wants a place that is bound so already changes nothing. -/
private theorem apply_of_bound {edit : Edit} {id : String} {wanted : Endpoint}
    (wants : edit.wants? = some (id, wanted))
    (bound : bench.graph.net.boundTo? id = some wanted) : edit.apply bench = .ok bench := by
  cases edit with
  | anchorPlace card anchor =>
      cases wants
      rw [Edit.apply, bindPlace_of_bound bound]
      rfl
  | eventPlace card anchor =>
      cases wants
      rw [Edit.apply, bindPlace_of_bound bound]
      rfl
  | _ => cases wants

/-- The edits for the source of a connection do nothing but listen to it. -/
private theorem applyAll_sourceEdits (seated : bench.graph.Seated) {parties : Connection.Parties}
    (found : connection.parties bench.graph.cards = .ok parties) :
    bench.applyAll (connection.sourceEdits parties.source) = (.ok (), bench.alerted connection) := by
  have ends := Connection.resolved_of_parties found
  have card : connection.source.card = parties.sourceCard.id := by rw [ends.sourceEnd]
  have bound := seated.bound _ ends.sourceCard _ ends.source
  unfold Connection.sourceEdits alerted
  rw [found]
  dsimp only
  unfold Card.anchorPlace at bound
  split
  · next event =>
      rw [if_pos event] at bound
      rw [applyAll, apply_of_bound rfl (card ▸ bound), ends.sourceEnd]
      rfl
  · next value =>
      rw [if_neg value] at bound
      rw [applyAll, apply_of_bound rfl (card ▸ bound)]
      rfl

/-- After its source and its target a connection wants only places of the cards that it joins. -/
private theorem exists_layout (connection : Connection) (parties : Connection.Parties)
    (channel : Nat) : ∃ rest, connection.layout parties channel =
        connection.sourceEdits parties.source ++
          .anchorPlace connection.target.card parties.target :: rest ∧
      ∀ edit ∈ rest, ∀ id wanted, edit.wants? = some (id, wanted) →
        parties.sourceCard.Brings channel edit ∨ parties.targetCard.Brings channel edit := by
  refine ⟨_, (List.append_assoc ..).trans (List.append_assoc ..), ?_⟩
  intro edit member id wanted wants
  simp only [List.append_eq, List.nil_append, List.cons_append, List.mem_cons, List.mem_append,
    Card.mem_blueprint] at member
  rcases member with rfl | rfl | rfl | rfl | rfl | rfl | rfl | brought
  all_goals first | exact brought | cases wants

/-- A connection that cannot be added is in the way of another anchor's place, and nothing is left
of it but that the graph listens to its source. -/
theorem connect_error (seated : bench.graph.Seated)
    (failed : bench.connect connection = (.error failure, after)) :
    failure.IsCollision ∧ after = bench.alerted connection := by
  unfold connect at failed
  dsimp only at failed
  split at failed
  · cases failed
  · next parties found =>
      have ends := Connection.resolved_of_parties found
      have sources := applyAll_sourceEdits seated found
      have alerts := grows_of_applyAll sources
      have follow := Connection.follow_layout found bench.graph.channel
        fun id => bench.graph.net.hasNode id = true
      obtain ⟨rest, layout, wanting⟩ := exists_layout connection parties bench.graph.channel
      rw [layout] at follow failed
      have right := follow.right.mono fun id => hasNode_grown alerts
      have tidy := (tidy_of_applyAll seated.tidy follow.left sources).1
      rw [applyAll_append, sources] at failed
      dsimp only [applyAll] at failed
      cases target : (Edit.anchorPlace connection.target.card parties.target).apply
          (bench.alerted connection) with
      | error other =>
          rw [target] at failed
          obtain ⟨same, rfl⟩ := Prod.mk.inj failed
          obtain rfl := Except.error.inj same
          obtain ⟨id, wanted, -, -, -, collision⟩ :=
            tidy.collides right.1 (change_of_apply_error target)
          exact ⟨⟨_, _, _, collision⟩, rfl⟩
      | ok middle =>
          have grows := alerts.trans (grows_of_apply target)
          obtain ⟨done, succeeded⟩ := middle.exists_applyAll
            (tidy.grown (grows_of_apply target).net right.1)
            (right.2.mono fun id known => hasNode_grown (grows_of_apply target)
              (by simpa using known))
            fun edit member id wanted wants => by
              rcases wanting edit member id wanted wants with brings | brings
              · obtain ⟨anchor, slot, rfl, rfl⟩ := brings.wants wants
                exact grows.net.keeps_bound (seated.bound _ ends.sourceCard _ slot)
              · obtain ⟨anchor, slot, rfl, rfl⟩ := brings.wants wants
                exact grows.net.keeps_bound (seated.bound _ ends.targetCard _ slot)
          rw [target] at failed
          dsimp only at failed
          rw [succeeded] at failed
          cases failed

/-- The graph listens to the source of a connection, or has no reason to. -/
def Hears (bench : Bench) (connection : Connection) : Prop :=
  ∀ parties, connection.parties bench.graph.cards = .ok parties → parties.source.kind = .event →
    connection.source.eventPlace ∈ bench.graph.subscriptions.names ∨
      parties.source.listens = false

theorem alerted_eq_iff : bench.alerted connection = bench ↔ bench.Hears connection := by
  unfold alerted Hears
  cases found : connection.parties bench.graph.cards with
  | error reason => simp
  | ok parties =>
      by_cases event : parties.source.kind = .event
      · simp only [event, if_true, Except.ok.injEq, forall_eq', true_implies]
        constructor
        · intro same
          by_contra unheard
          rw [not_or, Bool.not_eq_false] at unheard
          have heard : connection.source.eventPlace ∈
              (bench.listen connection.source.eventPlace
                parties.source).graph.subscriptions.names :=
            mem_names_listen.mpr (.inr ⟨unheard.2, rfl⟩)
          rw [same] at heard
          exact unheard.1 heard
        · rintro (known | deaf)
          · rw [listen, if_pos (Registry.contains_eq_true.mpr known)]
          · rw [listen, Board.subscribe, deaf]
            split <;> rfl
      · simp [event]

/-- A graph keeps an edit and loses its plan when the plans cannot be made. -/
theorem recompile_error (failed : bench.recompile = (.error failure, after)) :
    (∃ reason, failure = .region reason) ∧ bench.graph.recompile.1 = .error failure ∧
      ∃ paths, after = { bench with graph := { bench.graph with paths := paths, plan := none } } := by
  have split : bench.graph.recompile = (.error failure, after.graph) :=
    congrArg (fun done : Except Failure Unit × Bench => (done.1, done.2.graph)) failed
  have board : bench.board = after.board :=
    congrArg (fun done : Except Failure Unit × Bench => done.2.board) failed
  obtain ⟨-, reason, paths, same⟩ := Graph.recompile_error split
  exact ⟨reason, congrArg Prod.fst split, paths, by rw [← same, board]⟩

private theorem error_of_map {α : Type} {done : Except Failure Unit × Bench} {answer : α}
    (failed : (done.1.map fun () => answer, done.2) = (.error failure, after)) :
    done = (.error failure, after) := by
  obtain ⟨result, left⟩ := done
  cases result with
  | ok => cases failed
  | error other => cases failed; rfl

/-- What a failed attempt to add a connection leaves behind. -/
theorem addConnection_error (seated : bench.graph.Seated)
    (failed : bench.addConnection connection = (.error failure, after)) :
    failure.IsCollision ∧ after = bench.alerted connection ∨
      ∃ id middle paths, bench.connect connection = (.ok id, middle) ∧
        (∃ reason, failure = .region reason) ∧ middle.graph.recompile.1 = .error failure ∧
        after = { middle with graph := { middle.graph with paths := paths, plan := none } } := by
  unfold addConnection at failed
  split at failed
  · next connected =>
      cases failed
      exact .inl (connect_error seated connected)
  · next id middle connected =>
      obtain ⟨region, stopped, paths, left⟩ := recompile_error (error_of_map failed)
      exact .inr ⟨id, middle, paths, connected, region, stopped, left⟩

/-- Taking a connection out does not concern the list of connections. -/
theorem connections_uproot (bench : Bench) (connection : Connection) :
    (bench.uproot connection).graph.connections = bench.graph.connections := by
  rw [graph_uproot]

/-- What a failed attempt to remove a connection leaves behind. -/
theorem removeConnection_error {id : String}
    (failed : bench.removeConnection id = (.error failure, after)) :
    (∃ reason, failure = .region reason) ∧ id ∈ bench.graph.connections.names ∧
      after.graph.connections = bench.graph.connections.erase id ∧ after.graph.plan = none := by
  unfold removeConnection at failed
  split at failed
  · cases failed
  · next connection held =>
      dsimp only at failed
      obtain ⟨region, -, paths, rfl⟩ := recompile_error (error_of_map failed)
      exact ⟨region, Registry.mem_names_of_get? held, connections_uproot _ connection, rfl⟩

end Bench

/-- The plan of a graph was made when it was last needed. -/
def Graph.Planned (graph : Graph) : Prop :=
  graph.mode = .function → graph.plan.isSome = true ∨ graph.net.entryPlaces = []

/-- Without entry places there are no plans to be made. -/
theorem Graph.recompile_ok {graph : Graph} (none : graph.net.entryPlaces = []) :
    graph.recompile.1 = .ok () := by
  unfold recompile
  split
  · rfl
  · simp [compile, none, pathsOf]

namespace Engine

theorem withBench_eq_iff {engine : Engine} {bench other : Bench}
    (held : engine.bench? = some bench) : engine.withBench other = engine ↔ other = bench := by
  obtain ⟨graph, found, rfl⟩ := Option.map_eq_some_iff.mp held
  obtain ⟨config, _, board, records⟩ := engine
  cases found
  constructor
  · intro same
    cases other
    cases same
    rfl
  · rintro rfl
    rfl

/-- A graph that was planned is another one once its plans could not be made. -/
private theorem ne_of_unplanned {bench middle : Bench} {failure : Failure} {paths : Registry Plan}
    (planned : bench.graph.Planned) (stopped : middle.graph.recompile.1 = .error failure) :
    { middle with graph := { middle.graph with paths := paths, plan := none } } ≠ bench := by
  rintro rfl
  have recompiled : middle.graph.recompile = (.error failure, middle.graph.recompile.2) :=
    Prod.ext stopped rfl
  have function := (Graph.recompile_error recompiled).1
  rcases planned function with plan | none
  · cases plan
  · have entryless : middle.graph.net.entryPlaces = [] := none
    rw [Graph.recompile_ok entryless] at stopped
    cases stopped

/-- A failed edit leaves the engine as it was unless the plans of the graph could not be made
after it, and unless the graph has begun to listen to an event. When the plans could not be made,
the graph keeps the edit and has no plan, and the engine keeps its records. -/
theorem failed_edit_unchanged_iff (engine : Engine)
    (reached : ∀ bench, engine.bench? = some bench → bench.Reached)
    (planned : ∀ bench, engine.bench? = some bench → bench.graph.Planned) :
    (∀ connection failure after, engine.addConnection connection = (.error failure, after) →
      (after = engine ↔ (¬∃ reason, failure = .region reason) ∧
        ∀ bench, engine.bench? = some bench → bench.Hears connection) ∧
      ((∃ reason, failure = .region reason) → after.records = engine.records ∧
        ∃ graph, after.graph = some graph ∧ graph.plan = none ∧
          graph.connections.get? connection.id = some connection)) ∧
    ∀ id failure after, engine.removeConnection id = (.error failure, after) →
      (after = engine ↔ ¬∃ reason, failure = .region reason) ∧
      ((∃ reason, failure = .region reason) → after.records = engine.records ∧
        ∃ graph, after.graph = some graph ∧ graph.plan = none ∧
          id ∉ graph.connections.names) := by
  cases held : engine.bench? with
  | none =>
      have missing : engine.bench = .error .notBuilt := by rw [bench, held]
      constructor
      · intro connection failure after failed
        rw [addConnection, missing] at failed
        obtain ⟨same, rfl⟩ := Prod.mk.inj failed
        obtain rfl := Except.error.inj same
        simp
      · intro id failure after failed
        rw [removeConnection, missing] at failed
        obtain ⟨same, rfl⟩ := Prod.mk.inj failed
        obtain rfl := Except.error.inj same
        simp
  | some bench =>
      have present : engine.bench = .ok bench := by rw [Engine.bench, held]
      have planned := planned bench held
      have seated := (reached bench held).seated
      constructor
      · intro connection failure after failed
        rw [addConnection, present] at failed
        dsimp only at failed
        split at failed
        · next other left stopped =>
            obtain ⟨same, rfl⟩ := Prod.mk.inj failed
            obtain rfl := Except.error.inj same
            rw [withBench_eq_iff held]
            rcases Bench.addConnection_error seated stopped with
              ⟨⟨place, bound, wanted, rfl⟩, rfl⟩ |
              ⟨id, middle, paths, connected, region, unplanned, rfl⟩
            · simp [Bench.alerted_eq_iff]
            · obtain ⟨-, grown, warnings, -, rfl⟩ := Bench.grows_of_connect connected
              refine ⟨iff_of_false (ne_of_unplanned planned unplanned) fun fine => fine.1 region,
                fun _ => ⟨rfl, _, rfl, rfl, ?_⟩⟩
              exact (Registry.get?_insert ..).trans (if_pos rfl)
        · cases failed
      · intro id failure after failed
        rw [removeConnection, present] at failed
        dsimp only at failed
        split at failed
        · next other left stopped =>
            obtain ⟨same, rfl⟩ := Prod.mk.inj failed
            obtain rfl := Except.error.inj same
            obtain ⟨region, member, connections, plan⟩ := Bench.removeConnection_error stopped
            have gone : id ∉ left.graph.connections.names := by
              rw [connections, Registry.names_erase, List.mem_filter]
              simp
            rw [withBench_eq_iff held]
            refine ⟨iff_of_false ?_ fun fine => fine region, fun _ => ⟨rfl, _, rfl, plan, gone⟩⟩
            rintro rfl
            exact gone member
        · cases failed
        · cases failed

end Engine

/-! ## An edit that leaves something behind -/

namespace Overheard

def anchor (id : String) (kind : AnchorKind) : AnchorDesign := ⟨id, kind, none, none, false⟩

/-- A card with one anchor beside its output. -/
def design (id : String) (first : AnchorDesign) : CardDesign where
  id := id
  title := "card"
  anchors := [first, anchor "out" .output]
  delay := 0
  work := .function fun arguments => .ok arguments
  runtime := none

/-- Of the last two cards the ids of card and anchor are joined to one text. -/
def seated : List Card × Board :=
  Board.empty.seatAll [design "s" (anchor "ring" .event), design "t" (anchor "a_b" .event),
    design "t_a" (anchor "b" .input)]

/-- It leads from an event to the place of another anchor. -/
def astray : Connection := ⟨⟨"s", "ring"⟩, ⟨"t", "a_b"⟩⟩

/-- The graph of the cards without connections, and the board. -/
def built : Except Failure Graph × Board :=
  Graph.build .visual ⟨"overheard", []⟩ seated.1 none seated.2

/-- The engine with this graph. -/
def engine : Engine := ⟨.standard, built.1.toOption, built.2, .blank⟩

/-- The event places that the graph of an engine listens to. -/
def heard (engine : Engine) : Option (List String) :=
  engine.graph.map fun graph => graph.subscriptions.names

end Overheard

namespace Engine

/-- A connection to a place that is taken is refused, and the graph listens to its source from
then on. -/
theorem refused_connection_listens :
    (Overheard.engine.addConnection Overheard.astray).1 =
      .error (.collision "place_t_a_b" (some ⟨"t_a", "b"⟩) ⟨"t", "a_b"⟩) ∧
    Overheard.heard Overheard.engine = some [] ∧
    Overheard.heard (Overheard.engine.addConnection Overheard.astray).2 =
      some ["event_place_s_ring"] := by
  refine ⟨?_, ?_, ?_⟩ <;> decide +kernel

/-- The engine that refuses a connection and listens to its source is another one afterwards. -/
theorem failed_edit_unchanged_iff_overheard :
    ∃ bench : Bench, Overheard.engine.bench? = some bench ∧ bench.Reached ∧ bench.graph.Planned ∧
      ¬bench.Hears Overheard.astray ∧
      (Overheard.engine.addConnection Overheard.astray).2 ≠ Overheard.engine := by
  have refused : (Overheard.engine.addConnection Overheard.astray).1 =
      .error (.collision "place_t_a_b" (some ⟨"t_a", "b"⟩) ⟨"t", "a_b"⟩) := by decide +kernel
  have heard : Overheard.heard (Overheard.engine.addConnection Overheard.astray).2 ≠
      Overheard.heard Overheard.engine := by decide +kernel
  have changed : (Overheard.engine.addConnection Overheard.astray).2 ≠ Overheard.engine :=
    fun same => heard (congrArg Overheard.heard same)
  have succeeds : Overheard.built.1.toOption.isSome = true := by decide +kernel
  rcases result : Overheard.built with ⟨failure | graph, board⟩
  · rw [result] at succeeds
    cases succeeds
  · have held : Overheard.engine.bench? = some ⟨graph, board⟩ := by
      rw [Overheard.engine, result]
      rfl
    have reached : ∀ bench, Overheard.engine.bench? = some bench → bench.Reached := by
      rintro bench same
      obtain rfl := Option.some.inj (held.symm.trans same)
      exact .build result
    have planned : ∀ bench, Overheard.engine.bench? = some bench → bench.graph.Planned := by
      rintro bench same function
      obtain rfl := Option.some.inj (held.symm.trans same)
      cases (Graph.built_of_build result).2.symm.trans function
    refine ⟨_, held, reached _ held, planned _ held, fun hears => changed ?_, changed⟩
    have spec := (failed_edit_unchanged_iff Overheard.engine reached planned).1 Overheard.astray _ _
      (Prod.ext refused rfl)
    exact spec.1.mpr ⟨nofun, fun bench same => Option.some.inj (held.symm.trans same) ▸ hears⟩

end Engine

end CardNet
