import CardNet.Engine.Machine
import CardNet.Proofs.Graph.Replanning
import CardNet.Proofs.Graph.Upkeep

/-!
# Editing and building anew

After any number of successful edits a graph looks like one that is built from the connections it
lists by then (`Bench.rewired_like_rebuilt`), and adding a connection that it lists changes
nothing at all (`Bench.connect_again`). This needs ids that do not clash: an anchor that goes by
the ids of an event keeps what hands on from it after its last connection
(`Bench.removed_connection_lingers`).
-/

namespace CardNet

/-! ## The channel of a graph -/

/-- An action with another channel. -/
def Action.onChannel (channel : Nat) : Action → Action
  | start card _ => start card channel
  | action => action

/-- What stands in a circuit, for another channel. -/
def Fixture.onChannel (channel : Nat) : Fixture → Fixture
  | transition action => transition (action.onChannel channel)
  | fixture => fixture

theorem Card.onChannel_action (card : Card) (channel other : Nat) :
    (card.action channel).onChannel other = card.action other := by
  unfold action
  split <;> rfl

section

variable {cards : List Card} {connections : List Connection} {channel : Nat} {site : Site}
  {fixture : Fixture}

theorem Stands.onChannel (stands : Stands cards connections channel site fixture) (other : Nat) :
    Stands cards connections other site (fixture.onChannel other) := by
  cases stands with
  | anchor member own kind => exact .anchor member own kind
  | event member own kind => exact .event member own kind
  | start member none => exact .start member none
  | relay member found => exact .relay member found
  | handOver member found => exact .handOver member found
  | transfer member found => exact .transfer member found
  | arc leads => exact .arc leads
  | @call card member =>
      have called := card.onChannel_action channel other
      simp only [Fixture.onChannel, called]
      exact .call member

theorem Stands.onChannel_eq (stands : Stands cards connections channel site fixture)
    (other : Nat) : (fixture.onChannel other).onChannel channel = fixture := by
  cases stands with
  | @call card => simp only [Fixture.onChannel, Card.onChannel_action]
  | _ => rfl

end

/-! ## Graphs that look alike -/

/-- Two graphs look alike: the same places with the same kinds and contents, the same transitions
with the same actions but for the channel, and the same arcs with the same weights; they listen to
the same events and list the same connections. -/
structure Graph.LooksLike (first second : Graph) : Prop where
  fixture : ∀ site, second.net.fixture? site =
    (first.net.fixture? site).map (Fixture.onChannel second.channel)
  into : ∀ id, (second.net.arcsInto id).Perm (first.net.arcsInto id)
  out : ∀ id, (second.net.arcsFrom id).Perm (first.net.arcsFrom id)
  listens : ∀ place, place ∈ second.subscriptions.names ↔ place ∈ first.subscriptions.names
  connections : ∀ connection,
    connection ∈ second.connections.values ↔ connection ∈ first.connections.values

theorem Leads.differ {cards : List Card} {connections : List Connection} {source target : String}
    (leads : Leads cards connections source target) : namesPlace source ≠ namesPlace target := by
  cases leads <;> simp

namespace Graph

variable {first second : Graph}

/-- The arcs of a faithful graph. -/
theorem Faithful.joins_iff (faithful : first.Faithful) {source target : String} :
    first.net.Joins source target ↔
      Leads first.cards first.connections.values source target := by
  rw [Net.Joins, Circuit.mem_arcs_iff faithful.tidy.plain, faithful.stands]
  constructor
  · intro stands
    generalize Arc.name _ = text at stands
    cases stands with
    | arc leads => exact leads
  · exact .arc

/-- The arcs of a faithful graph lead from nodes to other nodes. -/
theorem Faithful.straight (faithful : first.Faithful)
    (lands : ∀ connection ∈ first.connections.values, connection.Lands first.cards) :
    first.net.Straight := by
  intro source target joined
  have leads := faithful.joins_iff.mp joined
  refine ⟨fun same => leads.differ (congrArg namesPlace same), ?_⟩
  obtain ⟨channel, fixture, place | transition⟩ := (leads.stood (.of_lands lands)).2
  · have held := (faithful.stands _ _).mpr (place.onChannel first.channel)
    exact List.mem_append_left _ (Circuit.mem_places_of_held held)
  · have held := (faithful.stands _ _).mpr (transition.onChannel first.channel)
    exact List.mem_append_right _ (Circuit.mem_transitions_of_held held)

/-- Faithful graphs of the same cards and connections look alike. -/
theorem Faithful.looksLike (faithful : first.Faithful) (other : second.Faithful)
    (cards : second.cards = first.cards)
    (connections : ∀ connection,
      connection ∈ second.connections.values ↔ connection ∈ first.connections.values) :
    first.LooksLike second := by
  have fixture : ∀ site, second.net.fixture? site =
      (first.net.fixture? site).map (Fixture.onChannel second.channel) := by
    intro site
    ext held
    rw [other.stands, cards, Option.map_eq_some_iff]
    constructor
    · intro stands
      refine ⟨held.onChannel first.channel, ?_, stands.onChannel_eq first.channel⟩
      exact (faithful.stands _ _).mpr
        ((stands.onChannel first.channel).mono fun connection => (connections connection).mp)
    · rintro ⟨before, found, rfl⟩
      exact (((faithful.stands _ _).mp found).onChannel second.channel).mono
        fun connection => (connections connection).mpr
  have arcs : second.net.arcs.values.Perm first.net.arcs.values := by
    refine (List.perm_ext_iff_of_nodup other.tidy.plain.indexed.nodup_values
      faithful.tidy.plain.indexed.nodup_values).mpr fun arc => ?_
    rw [Circuit.mem_arcs_iff other.tidy.plain, Circuit.mem_arcs_iff faithful.tidy.plain, fixture,
      Option.map_eq_some_iff]
    constructor
    · rintro ⟨held, found, same⟩
      cases held with
      | arc => exact found.trans (congrArg some same)
      | _ => cases same
    · exact fun found => ⟨_, found, rfl⟩
  refine ⟨fixture, fun id => ?_, fun id => ?_, fun place => ?_, connections⟩
  · rw [other.tidy.plain.indexed.incoming, faithful.tidy.plain.indexed.incoming]
    exact arcs.filter _
  · rw [other.tidy.plain.indexed.outgoing, faithful.tidy.plain.indexed.outgoing]
    exact arcs.filter _
  · rw [other.heard, faithful.heard, cards]
    exact ⟨.mono fun connection => (connections connection).mp,
      .mono fun connection => (connections connection).mpr⟩

/-- Graphs that look alike have the same nodes and arcs. -/
theorem LooksLike.congruent (like : first.LooksLike second) (plain : first.net.Plain)
    (other : second.net.Plain) : first.net.Congruent second.net where
  places := fun id => by
    have held := like.fixture (.place id)
    rw [← not_iff_not, ← Circuit.fixture?_place_eq_none, ← Circuit.fixture?_place_eq_none, held,
      Option.map_eq_none_iff]
  transitions := fun id => by
    have held := like.fixture (.transition id)
    rw [← not_iff_not, ← Circuit.fixture?_transition_eq_none,
      ← Circuit.fixture?_transition_eq_none, held, Option.map_eq_none_iff]
  joins := fun source target => by
    have into := (like.into target).mem_iff (a := ⟨source, target, 1⟩)
    rw [plain.mem_arcsInto, other.mem_arcsInto] at into
    simpa using into.symm

end Graph

/-! ## Adding a connection again -/

namespace Bench

variable {bench after : Bench} {cards : List Card} {known : List Connection}
  {connection : Connection}

/-- What stands already is not brought again. -/
private theorem apply_again {edit : Edit} {site : Site} {fixture : Fixture}
    (brought : edit.brings? = some (site, fixture))
    (held : bench.graph.net.fixture? site = some fixture) : edit.apply bench = .ok bench := by
  have bound : ∀ {id content}, bench.graph.net.fixture? (.place id) =
      some (.place .process (some content)) → ∀ wanted, content.endpoint? = some wanted →
      bench.graph.net.bindPlace id content wanted = .ok bench.graph.net := by
    intro id content found wanted own
    obtain ⟨place, here, same⟩ := Option.map_eq_some_iff.mp found
    have bound : place.content.bind Content.endpoint? = some wanted := by
      rw [(Fixture.place.inj same).2]
      exact own
    rw [Circuit.bindPlace, here]
    exact if_pos bound
  cases edit with
  | anchorPlace card anchor =>
      cases brought
      rw [Edit.apply, bound held _ rfl]
      rfl
  | eventPlace card anchor =>
      cases brought
      rw [Edit.apply, bound held _ rfl]
      rfl
  | listen card anchor => cases brought
  | place id place =>
      cases brought
      have here := Circuit.mem_places_of_held held
      rw [Edit.apply, Circuit.ensurePlace, if_pos (Registry.contains_eq_true.mpr here)]
      rfl
  | transition id action =>
      cases brought
      have here := Circuit.mem_transitions_of_held held
      rw [Edit.apply, Circuit.ensureTransition, if_pos (Registry.contains_eq_true.mpr here)]
      rfl
  | arc source target =>
      cases brought
      have here := Circuit.mem_arcs_of_held held
      rw [Edit.apply, Circuit.ensureArc, Net.isConnected,
        if_pos (Registry.contains_eq_true.mpr here)]
      rfl

/-- A graph that listens to an anchor, as far as that takes listeners, does not do so again. -/
private theorem listen_again {place : String} {anchor : Anchor}
    (heard : anchor.listens = true → place ∈ bench.graph.subscriptions.names) :
    bench.listen place anchor = bench := by
  unfold listen
  split
  · rfl
  · next silent =>
      rw [Registry.contains_eq_true] at silent
      rw [Board.subscribe, if_neg fun takes => silent (heard takes)]

/-- Edits for what a faithful graph holds change nothing. -/
theorem applyAll_again (faithful : bench.graph.Faithful)
    (lands : ∀ other ∈ bench.graph.connections.values, other.Lands bench.graph.cards)
    {edits : List Edit} (drafted : ∀ edit ∈ edits,
      edit ∈ drafts bench.graph.cards bench.graph.connections.values bench.graph.channel) :
    bench.applyAll edits = (.ok (), bench) := by
  induction edits with
  | nil => rfl
  | cons edit rest ih =>
      have member := drafted edit (List.mem_cons_self ..)
      have first : edit.apply bench = .ok bench := by
        cases brought : edit.brings? with
        | some entry =>
            obtain ⟨site, fixture⟩ := entry
            exact apply_again brought
              ((faithful.stands _ _).mpr ((stands_iff (.of_lands lands)).mpr ⟨edit, member, brought⟩))
        | none =>
            cases edit with
            | listen card anchor =>
                refine congrArg Except.ok (listen_again fun takes => ?_)
                exact (faithful.heard _).mpr (heard_iff.mpr ⟨card, anchor, member, takes, rfl⟩)
            | _ => cases brought
      rw [applyAll, first]
      exact ih fun other later => drafted other (List.mem_cons_of_mem _ later)

/-- Adding a connection that a faithful graph lists changes nothing. -/
theorem connect_again (faithful : bench.graph.Faithful)
    (lands : ∀ other ∈ bench.graph.connections.values, other.Lands bench.graph.cards)
    (member : connection ∈ bench.graph.connections.values) :
    bench.connect connection = (.ok connection.id, bench) := by
  obtain ⟨parties, found⟩ := (lands connection member).parties
  have layout : connection.draft bench.graph.cards bench.graph.channel =
      connection.layout parties bench.graph.channel := by
    rw [Connection.draft, found]
  have applied : bench.applyAll (connection.layout parties bench.graph.channel) = _ :=
    applyAll_again faithful lands fun edit drafted => mem_drafts_of_draft member (layout ▸ drafted)
  obtain ⟨id, held⟩ := Registry.mem_values_iff.mp member
  have same := faithful.named id connection held
  have registered : bench.register connection = bench := by
    rw [register, Registry.insert_eq_self (same ▸ held)]
  simp only [connect, found, applied, registered]

end Bench

/-! ## Sequences of changes -/

/-- Make changes to the connections in order, up to the first that fails. -/
def Bench.rewireAll (bench : Bench) : List Rewiring → Except Failure Unit × Bench
  | [] => (.ok (), bench)
  | .add connection :: rest =>
      match bench.addConnection connection with
      | (.ok _, bench) => bench.rewireAll rest
      | (.error failure, bench) => (.error failure, bench)
  | .remove id :: rest =>
      match bench.removeConnection id with
      | (.ok _, bench) => bench.rewireAll rest
      | (.error failure, bench) => (.error failure, bench)

/-- A graph on certain cards that is faithful, lists known connections only, and has the plans that
it needs. -/
structure Graph.Kept (graph : Graph) (mode : Mode) (cards : List Card) (known : List Connection) :
    Prop where
  faithful : graph.Faithful
  cards_eq : graph.cards = cards
  mode_eq : graph.mode = mode
  within : ∀ connection ∈ graph.connections.values, connection ∈ known
  planned : graph.recompile = (.ok (), graph)

namespace Graph

variable {graph : Graph} {mode : Mode} {cards : List Card} {known : List Connection}
  {config : GraphConfig} {globals : Option Values} {board after : Board}

theorem Kept.lands (kept : graph.Kept mode cards known) (usable : Usable cards known) :
    ∀ connection ∈ graph.connections.values, connection.Lands graph.cards :=
  fun connection member => kept.cards_eq ▸ usable.lands connection (kept.within connection member)

private theorem kept_of_recompile {done : Graph} (faithful : graph.Faithful)
    (cards_eq : graph.cards = cards) (mode_eq : graph.mode = mode)
    (within : ∀ connection ∈ graph.connections.values, connection ∈ known)
    (recompiled : graph.recompile = (.ok (), done)) : done.Kept mode cards known := by
  have planned := recompile_again recompiled
  obtain ⟨paths, plan, rfl⟩ := recompile_frame recompiled
  exact ⟨⟨faithful.tidy, faithful.stands, faithful.heard, faithful.named⟩, cards_eq, mode_eq, within,
    planned⟩

/-- A graph that was built has the plans that it needs. -/
theorem planned_of_build (built : build mode config cards globals board = (.ok graph, after)) :
    graph.recompile = (.ok (), graph) := by
  rw [build, create_eq] at built
  dsimp only at built
  split at built
  · next bench constructed =>
      cases built
      unfold Bench.construct at constructed
      split at constructed
      · cases constructed
      · dsimp only at constructed
        split at constructed
        · cases constructed
        · next laid applied =>
            have recompiled : laid.seed.graph.recompile = (.ok (), bench.graph) :=
              congrArg (fun done : Except Failure Unit × Bench => (done.1, done.2.graph)) constructed
            exact recompile_again recompiled
  · cases built

theorem kept_of_build (usable : Usable cards known)
    (within : ∀ connection ∈ config.connections, connection ∈ known)
    (built : build mode config cards globals board = (.ok graph, after)) :
    graph.Kept mode cards known := by
  obtain ⟨whole, mode_eq⟩ := built_of_build built
  refine ⟨whole.faithful usable within, whole.cards_eq, mode_eq, fun connection member => ?_,
    planned_of_build built⟩
  exact within connection (((whole.mem_values usable within).1 connection).mp member)

end Graph

namespace Bench

variable {bench after : Bench} {mode : Mode} {cards : List Card} {known : List Connection}
  {connection : Connection} {id : String}

private theorem recompile_of_map {α : Type} {answer result : α}
    (done : (bench.recompile.1.map fun () => answer, bench.recompile.2) = (.ok result, after)) :
    bench.graph.recompile = (.ok (), after.graph) := by
  obtain ⟨mapped, rfl⟩ := Prod.mk.inj done
  cases made : bench.recompile.1 with
  | ok => exact Prod.ext made rfl
  | error failure => rw [made] at mapped; cases mapped

theorem kept_addConnection (usable : Usable cards known) (kept : bench.graph.Kept mode cards known)
    (member : connection ∈ known) (added : bench.addConnection connection = (.ok id, after)) :
    after.graph.Kept mode cards known := by
  obtain ⟨faithful, rfl, rfl, within, -⟩ := kept
  unfold addConnection at added
  split at added
  · cases added
  · next first middle connected =>
      obtain ⟨after_faithful, members⟩ := faithful_connect faithful usable within member connected
      obtain ⟨-, grown, warnings, grows, rfl⟩ := grows_of_connect connected
      refine Graph.kept_of_recompile after_faithful ?_ ?_ ?_ (recompile_of_map added)
      · dsimp only
        rw [grows.graph]
      · dsimp only
        rw [grows.graph]
      · intro other listed
        rcases (members other).mp listed with rfl | old
        · exact member
        · exact within other old

theorem kept_removeConnection {found : Bool} (usable : Usable cards known)
    (kept : bench.graph.Kept mode cards known)
    (removed : bench.removeConnection id = (.ok found, after)) :
    after.graph.Kept mode cards known := by
  have start := kept
  obtain ⟨faithful, rfl, rfl, within, -⟩ := kept
  unfold removeConnection at removed
  split at removed
  · obtain ⟨-, rfl⟩ := Prod.mk.inj removed
    exact start
  · next connection held =>
      have listed := Registry.mem_values_iff.mpr ⟨id, held⟩
      obtain rfl := faithful.named id connection held
      obtain ⟨after_faithful, members⟩ := faithful_uproot faithful usable within listed rfl
      refine Graph.kept_of_recompile after_faithful ?_ ?_ ?_ (recompile_of_map removed)
      · rw [graph_uproot]
      · rw [graph_uproot]
      · exact fun other member => within other ((members other).mp member).1

theorem kept_rewireAll {changes : List Rewiring} (usable : Usable cards known)
    (kept : bench.graph.Kept mode cards known)
    (added : ∀ connection, .add connection ∈ changes → connection ∈ known)
    (rewired : bench.rewireAll changes = (.ok (), after)) : after.graph.Kept mode cards known := by
  induction changes generalizing bench with
  | nil =>
      obtain ⟨-, rfl⟩ := Prod.mk.inj rewired
      exact kept
  | cons change rest ih =>
      have later : ∀ connection, .add connection ∈ rest → connection ∈ known :=
        fun connection member => added connection (List.mem_cons_of_mem _ member)
      cases change with
      | add connection =>
          rw [rewireAll] at rewired
          split at rewired
          · next first =>
              exact ih (kept_addConnection usable kept (added connection (List.mem_cons_self ..)) first)
                later rewired
          · cases rewired
      | remove id =>
          rw [rewireAll] at rewired
          split at rewired
          · next first => exact ih (kept_removeConnection usable kept first) later rewired
          · cases rewired

/-- However a graph was built and edited since, by changes that all succeeded: it can be built
anew from the cards and from the connections that it lists by now, and then the new graph looks
like it. Adding a connection that is listed changes nothing. The connections that are ever used go
from anchors to anchors that are no events, the ids that are generated for cards, anchors,
connections and arcs are distinct, and no connection from an anchor that is no event goes by the
ids of an event. -/
theorem rewired_like_rebuilt {config : GraphConfig} {globals : Option Values}
    {board start : Board} {graph : Graph} {changes : List Rewiring}
    (usable : Usable cards known)
    (laid : ∀ connection ∈ config.connections, connection ∈ known)
    (added : ∀ connection, .add connection ∈ changes → connection ∈ known)
    (built : Graph.build mode config cards globals board = (.ok graph, start))
    (rewired : Bench.rewireAll ⟨graph, start⟩ changes = (.ok (), after)) :
    (∀ (name : String) (supplied : Option Values) (other : Board), ∃ fresh rest,
      Graph.build mode ⟨name, after.graph.connections.values⟩ cards supplied other =
        (.ok fresh, rest) ∧ after.graph.LooksLike fresh) ∧
    ∀ connection ∈ after.graph.connections.values,
      after.addConnection connection = (.ok connection.id, after) := by
  have kept : after.graph.Kept mode cards known :=
    kept_rewireAll usable (Graph.kept_of_build usable laid built) added rewired
  have lands := kept.lands usable
  constructor
  · intro name supplied other
    have like : ∀ fresh : Graph, fresh.Built cards after.graph.connections.values other.nextSlot →
        fresh.Faithful ∧ after.graph.LooksLike fresh := by
      intro fresh whole
      have faithful := whole.faithful usable kept.within
      exact ⟨faithful, kept.faithful.looksLike faithful (whole.cards_eq.trans kept.cards_eq.symm)
        (whole.mem_values usable kept.within).1⟩
    have planned : ∀ fresh : Graph,
        fresh.Built cards after.graph.connections.values other.nextSlot → fresh.mode = mode →
        fresh.recompile.1 = .ok () := by
      intro fresh whole modes
      obtain ⟨faithful, looks⟩ := like fresh whole
      exact Graph.recompile_of_congruent (looks.congruent kept.faithful.tidy.plain faithful.tidy.plain)
        kept.faithful.tidy (kept.faithful.straight lands) faithful.tidy
        (modes.trans kept.mode_eq.symm) (congrArg Prod.fst kept.planned)
    let config : GraphConfig := ⟨name, after.graph.connections.values⟩
    have within : ∀ connection ∈ config.connections, connection ∈ known := kept.within
    obtain ⟨fresh, rest, anew⟩ := Graph.exists_build usable.inward usable.clear within supplied
      other planned
    exact ⟨fresh, rest, anew, (like fresh (Graph.built_of_build anew).1).2⟩
  · intro connection member
    rw [addConnection, connect_again kept.faithful lands member]
    dsimp only
    rw [recompile, kept.planned]
    rfl

end Bench

/-! ## Examples -/

namespace Rewired

def anchor (id : String) (kind : AnchorKind) : AnchorDesign := ⟨id, kind, none, none, false⟩

/-- A function card with some anchors. -/
def design (id : String) (anchors : List AnchorDesign) : CardDesign where
  id := id
  title := "card"
  anchors := anchors
  delay := 0
  work := .function fun arguments => .ok arguments
  runtime := none

/-- A bell that rings and also puts out a value, and a lamp. -/
def seated : List Card × Board :=
  Board.empty.seatAll [design "bell" [anchor "ring" .event, anchor "out" .output],
    design "lamp" [anchor "on" .input, anchor "off" .input, anchor "out" .output]]

/-- Two connections from the output of the bell, and one from its event. -/
def known : List Connection :=
  [⟨⟨"bell", "out"⟩, ⟨"lamp", "on"⟩⟩, ⟨⟨"bell", "out"⟩, ⟨"lamp", "off"⟩⟩,
    ⟨⟨"bell", "ring"⟩, ⟨"lamp", "on"⟩⟩]

def built : Except Failure Graph × Board :=
  Graph.build .visual ⟨"bell", known.take 1⟩ seated.1 none seated.2

/-- The output gets a second connection and loses the first, and the event gets one and loses it
and gets it again. -/
def changes : List Rewiring :=
  [.add ⟨⟨"bell", "ring"⟩, ⟨"lamp", "on"⟩⟩, .add ⟨⟨"bell", "out"⟩, ⟨"lamp", "off"⟩⟩,
    .remove "bell-out-lamp-on", .remove "bell-ring-lamp-on",
    .add ⟨⟨"bell", "ring"⟩, ⟨"lamp", "on"⟩⟩]

theorem usable : Usable seated.1 known := by
  have lands : ∀ connection ∈ known, connection.Lands seated.1 := by
    have checked : ∀ connection ∈ known, (connection.parties seated.1).toOption.any
        (fun parties => parties.target.kind != .event) = true := by decide +kernel
    intro connection member
    obtain ⟨parties, found, kind⟩ := Connection.of_any (checked connection member)
    exact ⟨parties, found, by simpa using kind⟩
  refine ⟨lands, .of_lists (.of_lands lands) ?_ ?_ ?_ ?_ ?_ ?_, ?_⟩
  · decide +kernel
  · decide +kernel
  · decide +kernel
  · decide +kernel
  · decide +kernel
  · decide +kernel
  · have checked : ∀ connection ∈ known, (connection.parties seated.1).toOption.all
        (fun parties => parties.source.kind == .event || seated.1.all fun card =>
          card.anchors.all fun anchor => anchor.kind != .event ||
            connection.source.eventPlace != Endpoint.eventPlace ⟨card.id, anchor.id⟩) = true := by
      decide +kernel
    intro connection member parties found kind card known anchor own event
    have apart := Connection.of_all (checked connection member) found
    simp only [Bool.or_eq_true, beq_iff_eq, kind, false_or, List.all_eq_true, bne_iff_ne] at apart
    exact (apart card known anchor own).resolve_left fun differ => differ event

end Rewired

namespace Bench

/-- The graph of the bell and the lamp after the changes looks like one that is built anew. -/
theorem rewired_like_rebuilt_bell : ∃ graph start after fresh rest,
    Rewired.built = (.ok graph, start) ∧
    rewireAll ⟨graph, start⟩ Rewired.changes = (.ok (), after) ∧
    Graph.build .visual ⟨"anew", after.graph.connections.values⟩ Rewired.seated.1 none
      Rewired.seated.2 = (.ok fresh, rest) ∧ after.graph.LooksLike fresh := by
  have succeeds : Rewired.built.1.toOption.any (fun graph =>
      (rewireAll ⟨graph, Rewired.built.2⟩ Rewired.changes).1.toOption.isSome) = true := by
    decide +kernel
  rcases held : Rewired.built with ⟨failure | graph, start⟩
  · rw [held] at succeeds
    cases succeeds
  · rw [held] at succeeds
    rcases rewired : rewireAll ⟨graph, start⟩ Rewired.changes with ⟨failure | done, after⟩
    · change (rewireAll ⟨graph, start⟩ Rewired.changes).1.toOption.isSome = true at succeeds
      rw [rewired] at succeeds
      cases succeeds
    · have added : ∀ connection, .add connection ∈ Rewired.changes → connection ∈ Rewired.known := by
        intro connection member
        simp only [Rewired.changes, List.mem_cons, Rewiring.add.injEq, reduceCtorEq, false_or,
          or_false, List.not_mem_nil] at member
        rcases member with rfl | rfl | rfl <;> decide
      obtain ⟨fresh, rest, anew, like⟩ := (rewired_like_rebuilt Rewired.usable
        (by decide) added held rewired).1 "anew" none Rewired.seated.2
      exact ⟨graph, start, after, fresh, rest, rfl, rewired, anew, like⟩

end Bench

/-! ## A clash that no id shows -/

namespace Lingering

/-- The output of the first card and the event of the second go by the same ids, joined. -/
def seated : List Card × Board :=
  Board.empty.seatAll [Rewired.design "a_b" [Rewired.anchor "c" .output],
    Rewired.design "a" [Rewired.anchor "b_c" .event, Rewired.anchor "out" .output],
    Rewired.design "t" [Rewired.anchor "x" .input, Rewired.anchor "y" .input]]

def known : List Connection := [⟨⟨"a_b", "c"⟩, ⟨"t", "x"⟩⟩, ⟨⟨"a", "b_c"⟩, ⟨"t", "y"⟩⟩]

def built : Except Failure Graph × Board :=
  Graph.build .visual ⟨"lingering", known⟩ seated.1 none seated.2

/-- The names of the transitions of a graph. -/
def transitions (built : Except Failure Graph × Board) : Option (List String) :=
  built.1.toOption.map fun graph => graph.net.transitions.names

/-- The names of the transitions after the first connection was removed, and those of a graph that
is built from what is left. -/
def compared : Option (List String × Option (List String)) :=
  built.1.toOption.bind fun graph =>
    match Bench.rewireAll ⟨graph, built.2⟩ [.remove "a_b-c-t-x"] with
    | (.ok (), after) => some (after.graph.net.transitions.names,
        transitions (Graph.build .visual ⟨"anew", after.graph.connections.values⟩ seated.1 none
          seated.2))
    | _ => none

end Lingering

/-- Cards, anchors, connections and arcs have distinct ids, and all connections lead from an output
or an event to an input. The only connection of an output is removed, and what hands on from the
output is still there. -/
theorem Bench.removed_connection_lingers :
    ClearNames Lingering.seated.1 Lingering.known ∧
    (∀ connection ∈ Lingering.known, ∃ parties, connection.parties Lingering.seated.1 = .ok parties ∧
      parties.source.kind ≠ .input ∧ parties.target.kind = .input) ∧
    Lingering.compared = some
      (["split_transition_place_a_b_c", "internal_transition_a_b_card",
        "internal_transition_t_card", "event_transition_a_b_c", "transfer_a-b_c_to_t-y",
        "internal_transition_a_card"],
      some ["event_transition_a_b_c", "transfer_a-b_c_to_t-y", "internal_transition_a_card",
        "internal_transition_t_card", "internal_transition_a_b_card"]) := by
  have checked : ∀ connection ∈ Lingering.known,
      (connection.parties Lingering.seated.1).toOption.any
        (fun parties => parties.source.kind != .input && parties.target.kind == .input) = true := by
    decide +kernel
  have wired : ∀ connection ∈ Lingering.known, ∃ parties,
      connection.parties Lingering.seated.1 = .ok parties ∧
        parties.source.kind ≠ .input ∧ parties.target.kind = .input := by
    intro connection member
    obtain ⟨parties, found, kinds⟩ := Connection.of_any (checked connection member)
    exact ⟨parties, found, by simpa using kinds⟩
  have lands : ∀ connection ∈ Lingering.known, connection.Lands Lingering.seated.1 := by
    intro connection member
    obtain ⟨parties, found, -, kind⟩ := wired connection member
    exact ⟨parties, found, by rw [kind]; decide⟩
  refine ⟨.of_lists (.of_lands lands) ?_ ?_ ?_ ?_ ?_ ?_, wired, ?_⟩ <;> decide +kernel

end CardNet
