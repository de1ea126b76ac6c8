import CardNet.Proofs.Graph.Upkeep

/-!
# Graphs that attend to their events

A graph listens just to the events that its connections start from, also when some of its
connections are left out and when it was edited before (`Graph.Attends`). It need not be faithful
for that: what is taken out with a connection may be too little, but never where events are handed
on. So it is when a graph was built (`Graph.Built.attends`), when a connection is added
(`Bench.attends_connect`), and when one is taken out (`Bench.attends_uproot`), as long as all ids
are distinct (`Discerned`).
-/

namespace CardNet

/-- Cards and connections that can be told apart by all ids that are generated for them, also when
a connection is left out. No connection leads to an event, and no event anchor that takes listeners
is there twice. -/
structure Discerned (cards : List Card) (known : List Connection) : Prop where
  inward : Inward cards known
  clear : ClearNames cards known
  relay : ∀ first ∈ known, ∀ second ∈ known, first.splitPlace = second.splitPlace → first = second
  transfer : ∀ first ∈ known, ∀ second ∈ known, first.transfer = second.transfer → first = second
  own : ∀ first ∈ cards, ∀ one ∈ first.anchors, ∀ second ∈ cards, ∀ two ∈ second.anchors,
    one.listens = true → two.listens = true → one.slot = two.slot → first = second ∧ one = two

section

variable {cards : List Card} {known connections rest : List Connection} {connection : Connection}
  {channel : Nat}

theorem Inward.restrict (inward : Inward cards known)
    (within : ∀ connection ∈ connections, connection ∈ known) : Inward cards connections :=
  fun connection member => inward connection (within connection member)

/-- An arc that stands somewhere is one that cards and connections put into a circuit. -/
theorem Stands.leads {site : Site} {arc : Arc}
    (stands : Stands cards connections channel site (.arc arc)) :
    Leads cards connections arc.source arc.target ∧ site = .arc (arcName arc.source arc.target) := by
  cases stands with
  | arc leads => exact ⟨leads, rfl⟩

/-- The arcs that touch what hands on an event: one leads there from the place of the event, and one
to each connection. -/
theorem Leads.of_eventTransition {source target : String} {endpoint : Endpoint}
    (leads : Leads cards connections source target)
    (touches : source = endpoint.eventTransition ∨ target = endpoint.eventTransition) :
    ∃ connection ∈ connections, ∃ parties, connection.parties cards = .ok parties ∧
      parties.source.kind = .event ∧ connection.source.eventTransition = endpoint.eventTransition ∧
      (source = connection.source.eventPlace ∧ target = connection.source.eventTransition ∨
        source = connection.source.eventTransition ∧ target = connection.splitPlace) := by
  have place : ∀ {id : String}, namesPlace id = true → id ≠ endpoint.eventTransition := by
    rintro id named rfl
    simp at named
  have family : ∀ {id : String}, Family.read id ≠ .event → id ≠ endpoint.eventTransition := by
    rintro id read rfl
    exact read (Family.read_eventTransition endpoint)
  have call : ∀ card : Card, card.internalTransition ≠ endpoint.eventTransition := fun card =>
    family fun read => nomatch (Family.read_name (.internal card)).symm.trans read
  have carry : ∀ connection : Connection, connection.transfer ≠ endpoint.eventTransition :=
    fun connection =>
      family fun read => nomatch (Family.read_name (.transfer connection)).symm.trans read
  have split : ∀ connection : Connection, connection.splitTransition ≠ endpoint.eventTransition :=
    fun connection =>
      family fun read => nomatch (Family.read_name (.split connection.source)).symm.trans read
  cases leads with
  | begin => exact (touches.elim (place (by simp)) (call _)).elim
  | input => exact (touches.elim (place (by simp)) (call _)).elim
  | output => exact (touches.elim (call _) (place (by simp))).elim
  | take => exact (touches.elim (place (by simp)) (carry _)).elim
  | bring => exact (touches.elim (carry _) (place (by simp))).elim
  | @hand connection parties member found =>
      have hands := touches.resolve_left (place (by simp))
      by_cases kind : parties.source.kind = .event
      · rw [Connection.handOver, if_pos kind] at hands
        refine ⟨connection, member, parties, found, kind, hands, .inl ⟨?_, ?_⟩⟩
        · rw [Connection.sourcePlace, if_pos kind]
        · rw [Connection.handOver, if_pos kind]
      · rw [Connection.handOver, if_neg kind] at hands
        exact (split _ hands).elim
  | @spread connection parties member found =>
      have hands := touches.resolve_right (place (by simp))
      by_cases kind : parties.source.kind = .event
      · rw [Connection.handOver, if_pos kind] at hands
        refine ⟨connection, member, parties, found, kind, hands, .inr ⟨?_, rfl⟩⟩
        rw [Connection.handOver, if_pos kind]
      · rw [Connection.handOver, if_neg kind] at hands
        exact (split _ hands).elim

/-- The nodes of other connections are none that belong to one connection alone. -/
theorem Discerned.avoids (discerned : Discerned cards known) (member : connection ∈ known)
    (others : ∀ other ∈ rest, other ∈ known ∧ other ≠ connection) {id : String}
    (stood : Stood cards rest id) : id ≠ connection.transfer ∧ id ≠ connection.splitPlace := by
  obtain ⟨channel, fixture, place | transition⟩ := stood
  · have named : namesPlace id = true := by cases place <;> simp
    constructor
    · rintro rfl
      simp at named
    · intro same
      have read := congrArg Family.read same
      cases place with
      | relay inside =>
          obtain ⟨before, differ⟩ := others _ inside
          exact differ (discerned.relay _ before _ member same)
      | _ => simp at read
  · have named : namesPlace id = false := by cases transition <;> simp
    constructor
    · cases transition with
      | @call card => exact card.internalTransition_ne_transfer connection
      | handOver => exact (Connection.transfer_ne_handOver _ _ connection).symm
      | transfer inside =>
          obtain ⟨before, differ⟩ := others _ inside
          exact fun same => differ (discerned.transfer _ before _ member same)
    · rintro rfl
      simp at named

end

/-- A graph that listens to the events of its connections. Everything that its connections need
stands in its circuit, and nothing stands there that is not known; and where events are handed on,
nothing stands that its connections do not need. -/
structure Graph.Attends (graph : Graph) (known : List Connection) : Prop where
  tidy : graph.net.Tidy
  within : ∀ connection ∈ graph.connections.values, connection ∈ known
  named : ∀ id connection, graph.connections.get? id = some connection → connection.id = id
  sound : ∀ site fixture, graph.net.fixture? site = some fixture →
    Stands graph.cards known graph.channel site fixture
  complete : ∀ site fixture,
    Stands graph.cards graph.connections.values graph.channel site fixture →
      graph.net.fixture? site = some fixture
  events : ∀ (endpoint : Endpoint) site arc,
    arc.source = endpoint.eventTransition ∨ arc.target = endpoint.eventTransition →
      graph.net.fixture? site = some (.arc arc) →
        Leads graph.cards graph.connections.values arc.source arc.target
  heard : ∀ place, place ∈ graph.subscriptions.names ↔
    Heard graph.cards graph.connections.values place

/-! ## Graphs that were built -/

namespace Graph

variable {graph other : Graph} {cards : List Card} {known connections : List Connection}
  {channel : Nat}

/-- A graph that was built attends to its events. -/
theorem Built.attends (built : graph.Built cards connections channel)
    (discerned : Discerned cards known) (within : ∀ connection ∈ connections, connection ∈ known) :
    graph.Attends known := by
  obtain ⟨members, names⟩ := built.mem_values_of_distinct discerned.clear.connection within
  have inward := discerned.inward.restrict within
  have held : ∀ site fixture, graph.net.fixture? site = some fixture ↔
      Stands graph.cards graph.connections.values graph.channel site fixture := by
    intro site fixture
    rw [built.cards_eq, built.channel_eq, built.stands_iff inward (discerned.clear.restrict within)]
    exact ⟨.mono fun other => (members other).mpr, .mono fun other => (members other).mp⟩
  have inside : ∀ connection ∈ graph.connections.values, connection ∈ known :=
    fun connection member => within connection ((members connection).mp member)
  refine ⟨built.tidy, inside, names, ?_, fun site fixture => (held site fixture).mpr, ?_, ?_⟩
  · exact fun site fixture found => ((held site fixture).mp found).mono inside
  · exact fun _ site arc _ found => ((held site _).mp found).leads.1
  · intro place
    rw [built.listens, ← heard_iff, built.cards_eq]
    exact ⟨.mono fun other => (members other).mpr, .mono fun other => (members other).mp⟩

/-- Tokens and plans do not matter for what a graph attends to. -/
theorem Attends.of_same (attends : graph.Attends known) (net : other.net.bare = graph.net.bare)
    (cards : other.cards = graph.cards) (connections : other.connections = graph.connections)
    (channel : other.channel = graph.channel)
    (subscriptions : other.subscriptions = graph.subscriptions) : other.Attends known := by
  obtain ⟨tidy, within, named, sound, complete, events, heard⟩ := attends
  refine ⟨tidy.of_bare net.symm, ?_, ?_, ?_, ?_, ?_, ?_⟩ <;>
    simp only [Circuit.fixture?_of_bare net, cards, connections, channel, subscriptions] <;>
    assumption

end Graph

/-! ## Adding a connection -/

namespace Bench

variable {bench after : Bench} {known : List Connection} {connection : Connection}

/-- With distinct ids nothing is in the way of a connection. -/
theorem exists_connect (attends : bench.graph.Attends known)
    (discerned : Discerned bench.graph.cards known) (member : connection ∈ known) :
    ∃ after, bench.connect connection = (.ok connection.id, after) := by
  cases found : connection.parties bench.graph.cards with
  | error reason =>
      refine ⟨(bench.warn connection reason).register connection, ?_⟩
      simp only [connect, found]
  | ok parties =>
      have layout : connection.draft bench.graph.cards bench.graph.channel =
          connection.layout parties bench.graph.channel := by
        rw [Connection.draft, found]
      obtain ⟨middle, applied, -⟩ := applyAll_ok discerned.inward discerned.clear attends.tidy
        attends.sound (fun edit drafted => mem_drafts_of_draft member (layout ▸ drafted))
        (Connection.follow_layout found bench.graph.channel _)
      refine ⟨middle.register connection, ?_⟩
      simp only [connect, found, applied]

/-- A graph goes on to attend to its events when a connection is added. -/
theorem attends_connect {id : String} (attends : bench.graph.Attends known)
    (discerned : Discerned bench.graph.cards known) (member : connection ∈ known)
    (connected : bench.connect connection = (.ok id, after)) : after.graph.Attends known := by
  have tidy := (tidy_of_connect attends.tidy connected).1
  obtain ⟨-, grown, warnings, grows, rfl⟩ := grows_of_connect connected
  have members := Registry.mem_values_insert attends.named attends.within
    discerned.clear.connection member
  have cards : grown.graph.cards = bench.graph.cards := by rw [grows.graph]
  have channel : grown.graph.channel = bench.graph.channel := by rw [grows.graph]
  have whole : ∀ other ∈ (bench.graph.connections.insert connection.id connection).values,
      other ∈ known := by
    intro other inside
    rcases (members other).mp inside with rfl | old
    · exact member
    · exact attends.within other old
  have more : ∀ {site fixture}, Stands bench.graph.cards
      (bench.graph.connections.insert connection.id connection).values bench.graph.channel site
        fixture ↔ _ := stands_more_iff (discerned.inward.restrict whole) members
  have sound : ∀ site fixture, grown.graph.net.fixture? site = some fixture →
      Stands bench.graph.cards known bench.graph.channel site fixture := by
    intro site fixture held
    rcases grows.net.of_held held with old | brought
    · exact attends.sound site fixture old
    · exact (more.mpr (.inr brought)).mono whole
  refine ⟨tidy, whole, Registry.named_insert attends.named connection, ?_, ?_, ?_, ?_⟩ <;>
    dsimp only <;> simp only [cards, channel]
  · exact sound
  · intro site fixture stands
    rcases more.mp stands with old | ⟨edit, inside, brought⟩
    · exact grows.net.keeps (attends.complete site fixture old)
    · obtain ⟨other, held⟩ := Option.ne_none_iff_exists'.mp (grows.net.taken inside brought)
      rw [held, (sound site other held).unique discerned.clear (stands.mono whole)]
  · intro endpoint site arc touches held
    rcases grows.net.of_held held with old | brought
    · have grown : ∀ other ∈ bench.graph.connections.values, other ∈ _ :=
        fun other old => (members other).mpr (.inr old)
      exact (attends.events endpoint site arc touches old).mono grown
    · exact (more.mpr (.inr brought)).leads.1
  · intro place
    rw [grows.listens, attends.heard, heard_more_iff members bench.graph.channel]

end Bench

/-! ## Taking a connection out -/

namespace Circuit

variable {net : Circuit} {id : String} {site : Site} {fixture : Fixture}

theorem keeps_removeTransition (tidy : net.Tidy) (held : net.fixture? site = some fixture)
    (spares : site.Spares id fixture) :
    Circuit.fixture? (net.removeTransition id).2 site = some fixture := by
  by_cases known : id ∈ net.transitions.names
  · exact (fixture?_removeTransition tidy known).mpr ⟨held, spares⟩
  · rw [Net.removeTransition, Registry.get?_eq_none_iff.mpr known]
    exact held

theorem held_of_removeTransition (tidy : net.Tidy)
    (held : Circuit.fixture? (net.removeTransition id).2 site = some fixture) :
    net.fixture? site = some fixture := by
  by_cases known : id ∈ net.transitions.names
  · exact ((fixture?_removeTransition tidy known).mp held).1
  · rw [Net.removeTransition, Registry.get?_eq_none_iff.mpr known] at held
    exact held

theorem keeps_removePlace (tidy : net.Tidy) (held : net.fixture? site = some fixture)
    (spares : site.Spares id fixture) :
    Circuit.fixture? (net.removePlace id).2 site = some fixture := by
  by_cases known : id ∈ net.places.names
  · exact (fixture?_removePlace tidy known).mpr ⟨held, spares⟩
  · rw [Net.removePlace, Net.place?, Registry.get?_eq_none_iff.mpr known]
    exact held

theorem held_of_removePlace (tidy : net.Tidy)
    (held : Circuit.fixture? (net.removePlace id).2 site = some fixture) :
    net.fixture? site = some fixture := by
  by_cases known : id ∈ net.places.names
  · exact ((fixture?_removePlace tidy known).mp held).1
  · rw [Net.removePlace, Net.place?, Registry.get?_eq_none_iff.mpr known] at held
    exact held

variable {connection : Connection}

theorem keeps_bared (tidy : net.Tidy) (held : net.fixture? site = some fixture)
    (transfer : site.Spares connection.transfer fixture)
    (relay : site.Spares connection.splitPlace fixture) :
    (net.bared connection).fixture? site = some fixture :=
  keeps_removePlace (tidy.removeTransition _) (keeps_removeTransition tidy held transfer) relay

theorem held_of_bared (tidy : net.Tidy)
    (held : (net.bared connection).fixture? site = some fixture) :
    net.fixture? site = some fixture :=
  held_of_removeTransition tidy (held_of_removePlace (tidy.removeTransition _) held)

/-- Without the place before its transfer nothing leads there. -/
theorem spares_of_bared (tidy : net.Tidy) (relay : connection.splitPlace ∈ net.places.names)
    (held : (net.bared connection).fixture? site = some fixture) :
    site.Spares connection.splitPlace fixture := by
  have known : connection.splitPlace ∈ (net.removeTransition connection.transfer).2.places.names := by
    rw [Net.places_removeTransition]
    exact relay
  exact ((fixture?_removePlace (tidy.removeTransition _) known).mp held).2

theorem keeps_uprooted (tidy : net.Tidy)
    (held : (net.bared connection).fixture? site = some fixture)
    (last : ((net.bared connection).arcsFrom ((net.bared connection).leading connection)).isEmpty =
      true → site.Spares ((net.bared connection).leading connection) fixture) :
    (net.uprooted connection).fixture? site = some fixture := by
  unfold uprooted
  dsimp only
  split
  · next none => exact keeps_removeTransition (tidy.bared connection) held (last none)
  · exact held

theorem held_of_uprooted (tidy : net.Tidy)
    (held : (net.uprooted connection).fixture? site = some fixture) :
    (net.bared connection).fixture? site = some fixture := by
  unfold uprooted at held
  dsimp only at held
  split at held
  · exact held_of_removeTransition (tidy.bared connection) held
  · exact held

/-- What hands on from a connection is named like what hands on from some anchor. -/
theorem exists_leading (net : Circuit) (connection : Connection) :
    ∃ source, net.leading connection = connection.handOver source := by
  unfold leading
  cases net.handsEvents connection with
  | true => exact ⟨⟨0, "", .event, none, true⟩, rfl⟩
  | false => exact ⟨⟨0, "", .output, none, false⟩, rfl⟩

end Circuit

namespace Graph.Attends

variable {graph : Graph} {known rest : List Connection} {connection : Connection}
  {parties : Connection.Parties}

/-- Events are handed on from the source of a connection just when that is an event from which some
connection starts. -/
theorem handsEvents_iff (attends : graph.Attends known) (discerned : Discerned graph.cards known) :
    (graph.net.bared connection).handsEvents connection = true ↔
    ∃ other ∈ graph.connections.values, ∃ parties, other.parties graph.cards = .ok parties ∧
      parties.source.kind = .event ∧
      other.source.eventPlace = connection.source.eventPlace := by
  rw [Circuit.handsEvents, Net.isConnected, Registry.contains_eq_true, ← not_not (a := _ ∈ _),
    ← Circuit.fixture?_arc_eq_none]
  constructor
  · intro held
    obtain ⟨fixture, held⟩ := Option.ne_none_iff_exists'.mp held
    have before := Circuit.held_of_bared attends.tidy held
    have stood := attends.sound _ _ before
    generalize named : Site.arc _ = site at stood
    cases stood with
    | @arc source target leads =>
        have text := (Site.arc.inj named).symm
        obtain ⟨first, inside, ends, found, kind, same⟩ := leads.event_of_text text
        -- The arc of this text is the one from the place of the event.
        have hand : Leads graph.cards known connection.source.eventPlace
            connection.source.eventTransition := by
          have leads : Leads graph.cards known _ _ := .hand inside found
          rw [Connection.sourcePlace, Connection.handOver, if_pos kind, if_pos kind,
            Endpoint.eventTransition_inj.mpr same, same] at leads
          exact leads
        obtain ⟨rfl, rfl⟩ := discerned.clear.arc _ _ _ _ leads hand text
        have own := attends.events connection.source _ _ (.inr rfl) before
        exact own.event_of_text rfl
    | _ => cases named
  · rintro ⟨other, inside, ends, found, kind, same⟩
    have hand : Leads graph.cards graph.connections.values connection.source.eventPlace
        connection.source.eventTransition := by
      have leads : Leads graph.cards graph.connections.values _ _ := .hand inside found
      rw [Connection.sourcePlace, Connection.handOver, if_pos kind, if_pos kind,
        Endpoint.eventTransition_inj.mpr same, same] at leads
      exact leads
    have held := attends.complete _ _ (.arc hand)
    have transfer := Connection.transfer_ne_handOver other ends.source connection
    rw [Connection.handOver, if_pos kind, Endpoint.eventTransition_inj.mpr same] at transfer
    refine Option.ne_none_iff_exists'.mpr ⟨_, Circuit.keeps_bared attends.tidy held
      ⟨fun touches => ?_, transfer.symm⟩ ⟨fun touches => ?_, fun touches => ?_⟩⟩
    · have named := congrArg namesPlace touches
      simp at named
    · have read := congrArg Family.read touches
      simp at read
    · have named := congrArg namesPlace touches
      simp at named

/-- Without the place before its transfer no arc leads there. -/
theorem ne_splitPlace (attends : graph.Attends known)
    (member : connection ∈ graph.connections.values)
    (found : connection.parties graph.cards = .ok parties) {site : Site}
    {arc : Arc} (held : (graph.net.bared connection).fixture? site = some (.arc arc)) :
    arc.target ≠ connection.splitPlace := by
  have relay := Circuit.mem_places_of_held (attends.complete _ _ (.relay member found))
  have spares := Circuit.spares_of_bared attends.tidy relay held
  obtain ⟨-, rfl⟩ := (attends.sound _ _ (Circuit.held_of_bared attends.tidy held)).leads
  exact spares.2

section

variable (attends : graph.Attends known) (discerned : Discerned graph.cards known)
  (member : connection ∈ graph.connections.values)
  (others : ∀ other, other ∈ rest ↔ other ∈ graph.connections.values ∧ other ≠ connection)

include attends discerned member others

/-- What stands for other connections stands also when what stands for a connection alone was taken
out. -/
theorem complete_bared {site : Site} {fixture : Fixture}
    (stands : Stands graph.cards rest graph.channel site fixture) :
    (graph.net.bared connection).fixture? site = some fixture := by
  have before : ∀ other ∈ rest, other ∈ known ∧ other ≠ connection := fun other inside =>
    ⟨attends.within other ((others other).mp inside).1, ((others other).mp inside).2⟩
  have inward := discerned.inward.restrict fun other inside => (before other inside).1
  have avoids := fun id (stood : Stood graph.cards rest id) =>
    discerned.avoids (attends.within connection member) before stood
  have held := attends.complete site fixture
    (stands.mono fun other inside => ((others other).mp inside).1)
  exact Circuit.keeps_bared attends.tidy held
    (stands.spares inward fun id stood => (avoids id stood).1)
    (stands.spares inward fun id stood => (avoids id stood).2)

/-- Where nothing is behind what hands on from a connection, no other connection needs it. -/
theorem leading_avoids
    (none : ((graph.net.bared connection).arcsFrom
      ((graph.net.bared connection).leading connection)).isEmpty = true) {id : String}
    (stood : Stood graph.cards rest id) : id ≠ (graph.net.bared connection).leading connection := by
  obtain ⟨source, leading⟩ := (graph.net.bared connection).exists_leading connection
  rw [leading] at none ⊢
  obtain ⟨channel, fixture, place | transition⟩ := stood
  · have named : namesPlace id = true := by cases place <;> simp
    rintro rfl
    simp at named
  · cases transition with
    | @call card => exact connection.internalTransition_ne_handOver source card
    | @transfer other => exact connection.transfer_ne_handOver source other
    | @handOver other ends inside found =>
        intro same
        have plain := (attends.tidy.bared connection).plain
        have spread := attends.complete_bared discerned member others (.arc (.spread inside found))
        have listed : (⟨other.handOver ends.source, other.splitPlace, 1⟩ : Arc) ∈
            (graph.net.bared connection).arcs.values := (Circuit.mem_arcs_iff plain).mpr spread
        have behind := plain.indexed.mem_arcsFrom.mpr ⟨listed, same⟩
        rw [List.isEmpty_iff.mp none] at behind
        cases behind

/-- A connection that starts from an event is the last one from there just when what hands the
event on goes with it. -/
theorem silences_iff : graph.net.silences connection = true ↔
    ∃ parties, connection.parties graph.cards = .ok parties ∧ parties.source.kind = .event ∧
      ∀ other ∈ rest, ∀ ends, other.parties graph.cards = .ok ends →
        other.source ≠ connection.source := by
  rw [Circuit.silences, Bool.and_eq_true, attends.handsEvents_iff discerned]
  constructor
  · rintro ⟨none, hands⟩
    have events := (attends.handsEvents_iff discerned).mpr hands
    have leading : (graph.net.bared connection).leading connection =
        connection.source.eventTransition := if_pos events
    have avoids : ∀ other ∈ rest, ∀ ends, other.parties graph.cards = .ok ends →
        other.handOver ends.source ≠ connection.source.eventTransition := by
      intro other inside ends found
      rw [← leading]
      exact attends.leading_avoids discerned member others none
        ⟨0, _, .inr (.handOver inside found)⟩
    obtain ⟨other, inside, ends, found, kind, same⟩ := hands
    have own : other = connection := by
      by_contra differ
      refine avoids other ((others other).mpr ⟨inside, differ⟩) ends found ?_
      rw [Connection.handOver, if_pos kind]
      exact Endpoint.eventTransition_inj.mpr same
    subst own
    refine ⟨ends, found, kind, fun second further others resolves start => ?_⟩
    refine avoids second further others resolves ?_
    rw [Connection.handOver_eq resolves found start, Connection.handOver, if_pos kind]
  · rintro ⟨parties, found, kind, last⟩
    have hands : ∃ other ∈ graph.connections.values, ∃ parties,
        other.parties graph.cards = .ok parties ∧ parties.source.kind = .event ∧
          other.source.eventPlace = connection.source.eventPlace :=
      ⟨connection, member, parties, found, kind, rfl⟩
    have events := (attends.handsEvents_iff discerned).mpr hands
    refine ⟨?_, hands⟩
    rw [Circuit.leading, if_pos events, List.isEmpty_iff, List.eq_nil_iff_forall_not_mem]
    intro arc behind
    have plain := (attends.tidy.bared connection).plain
    obtain ⟨listed, start⟩ := plain.indexed.mem_arcsFrom.mp behind
    have held := (Circuit.mem_arcs_iff plain).mp listed
    have leads := attends.events connection.source _ arc (.inl start)
      (Circuit.held_of_bared attends.tidy held)
    obtain ⟨other, inside, ends, resolves, otherKind, same, ⟨place, -⟩ | ⟨-, split⟩⟩ :=
      leads.of_eventTransition (.inl start)
    · have named := congrArg namesPlace (place.symm.trans start)
      simp at named
    · by_cases own : other = connection
      · subst own
        exact attends.ne_splitPlace member found held split
      · refine last other ((others other).mpr ⟨inside, own⟩) ends resolves
          (discerned.clear.source_eq resolves found ?_)
        rw [Connection.handOver, Connection.handOver, if_pos otherKind, if_pos kind, same]

/-- What is listened to without a connection. -/
theorem heard_rest_iff {place : String} : Heard graph.cards rest place ↔
    Heard graph.cards graph.connections.values place ∧
      (graph.net.silences connection = true → place ≠ connection.source.eventPlace) := by
  rw [attends.silences_iff discerned member others]
  constructor
  · rintro ⟨other, inside, ends, resolves, kind, listens, rfl⟩
    refine ⟨⟨other, ((others other).mp inside).1, ends, resolves, kind, listens, rfl⟩, ?_⟩
    rintro ⟨parties, found, event, last⟩ same
    refine last other inside ends resolves (discerned.clear.source_eq resolves found ?_)
    rw [Connection.handOver, Connection.handOver, if_pos kind, if_pos event,
      Endpoint.eventTransition_inj, same]
  · rintro ⟨⟨other, inside, ends, resolves, kind, listens, rfl⟩, kept⟩
    by_cases same : other = connection
    · subst same
      have more := mt kept (not_not.mpr rfl)
      push Not at more
      obtain ⟨second, further, joined, found, start⟩ := more ends resolves kind
      have anchors := Connection.source_of_parties found resolves start
      exact ⟨second, further, joined, found, anchors ▸ kind, anchors ▸ listens, by rw [start]⟩
    · exact ⟨other, (others other).mpr ⟨inside, same⟩, ends, resolves, kind, listens, rfl⟩

/-- Where events are handed on, nothing is left that other connections do not need. -/
theorem events_uprooted (endpoint : Endpoint) (site : Site) (arc : Arc)
    (touches : arc.source = endpoint.eventTransition ∨ arc.target = endpoint.eventTransition)
    (held : (graph.net.uprooted connection).fixture? site = some (.arc arc)) :
    Leads graph.cards rest arc.source arc.target := by
  have bared := Circuit.held_of_uprooted attends.tidy held
  have leads := attends.events endpoint site arc touches (Circuit.held_of_bared attends.tidy bared)
  obtain ⟨other, inside, ends, found, kind, -, shape⟩ := leads.of_eventTransition touches
  -- Another connection from the same source needs these arcs as well.
  have needed : ∀ second ∈ rest, ∀ joined, second.parties graph.cards = .ok joined →
      second.source = other.source →
      Leads graph.cards rest other.source.eventPlace other.source.eventTransition := by
    intro second further joined resolves start
    have hand : Leads graph.cards rest _ _ := .hand further resolves
    rw [Connection.sourcePlace_eq resolves found start, Connection.handOver_eq resolves found start,
      Connection.sourcePlace, Connection.handOver, if_pos kind, if_pos kind] at hand
    exact hand
  by_cases own : other = connection
  · subst own
    rcases shape with ⟨place, hands⟩ | ⟨-, split⟩
    · by_cases shared : ∃ second ∈ rest, ∃ joined, second.parties graph.cards = .ok joined ∧
          second.source = other.source
      · obtain ⟨second, further, joined, resolves, start⟩ := shared
        rw [place, hands]
        exact needed second further joined resolves start
      · push Not at shared
        have silent := (attends.silences_iff discerned member others).mpr
          ⟨ends, found, kind, shared⟩
        obtain ⟨none, events⟩ := (Bool.and_eq_true _ _).mp silent
        rw [Circuit.uprooted, if_pos none, Circuit.leading, if_pos events] at held
        have known : other.source.eventTransition ∈
            (graph.net.bared other).transitions.names := by
          have stood := attends.complete _ _ (.handOver member found)
          have transfer := Connection.transfer_ne_handOver other ends.source other
          rw [Connection.handOver, if_pos kind] at stood transfer
          refine Circuit.mem_transitions_of_held (Circuit.keeps_bared attends.tidy stood
            transfer.symm fun same => ?_)
          have named := congrArg namesPlace same
          simp at named
        have spares := ((Circuit.fixture?_removeTransition (attends.tidy.bared other) known).mp
          held).2
        obtain ⟨-, rfl⟩ := (attends.sound _ _ (Circuit.held_of_bared attends.tidy bared)).leads
        exact (spares.2 hands).elim
    · exact (attends.ne_splitPlace member found bared split).elim
  · have stays := (others other).mpr ⟨inside, own⟩
    rcases shape with ⟨place, hands⟩ | ⟨hands, split⟩
    · rw [place, hands]
      exact needed other stays ends found rfl
    · have spread : Leads graph.cards rest _ _ := .spread stays found
      rw [Connection.handOver, if_pos kind] at spread
      rw [hands, split]
      exact spread

end

end Graph.Attends

namespace Bench

variable {bench : Bench} {known : List Connection} {connection : Connection}

/-- A graph goes on to attend to its events when a connection is taken out. -/
theorem attends_uproot (attends : bench.graph.Attends known)
    (discerned : Discerned bench.graph.cards known)
    (member : connection ∈ bench.graph.connections.values) :
    (Bench.uproot { bench with
      graph.connections := bench.graph.connections.erase connection.id }
        connection).graph.Attends known := by
  have others := Registry.mem_values_erase attends.named attends.within
    discerned.clear.connection (attends.within connection member)
  have before : ∀ other ∈ (bench.graph.connections.erase connection.id).values, other ∈ known :=
    fun other inside => attends.within other ((others other).mp inside).1
  rw [graph_uproot]
  refine ⟨attends.tidy.uprooted connection, before,
    Registry.named_erase attends.named connection.id, ?_, ?_, ?_, ?_⟩
  · intro site fixture held
    exact attends.sound site fixture
      (Circuit.held_of_bared attends.tidy (Circuit.held_of_uprooted attends.tidy held))
  · intro site fixture stands
    refine Circuit.keeps_uprooted attends.tidy
      (attends.complete_bared discerned member others stands) fun none => ?_
    exact stands.spares (discerned.inward.restrict before) fun id stood =>
      attends.leading_avoids discerned member others none stood
  · exact attends.events_uprooted discerned member others
  · intro place
    dsimp only
    rw [attends.heard_rest_iff discerned member others, ← attends.heard]
    split
    · next silent =>
        rw [Registry.names_erase, List.mem_filter, decide_eq_true_eq, imp_iff_right silent]
    · next audible =>
        exact (and_iff_left fun silent => absurd silent audible).symm

/-- Plans do not matter for what a graph attends to. -/
theorem attends_recompile (attends : bench.graph.Attends known) :
    bench.recompile.2.graph.Attends known := by
  have made : bench.graph.recompile = (bench.graph.recompile.1, bench.graph.recompile.2) := rfl
  obtain ⟨paths, plan, same⟩ := Graph.recompile_frame made
  have planned : bench.recompile.2.graph = _ := same
  apply attends.of_same <;> rw [planned]

theorem attends_addConnection (attends : bench.graph.Attends known)
    (discerned : Discerned bench.graph.cards known) (member : connection ∈ known) :
    (bench.addConnection connection).2.graph.Attends known := by
  obtain ⟨after, connected⟩ := exists_connect attends discerned member
  rw [addConnection, connected]
  exact attends_recompile (attends_connect attends discerned member connected)

theorem attends_removeConnection (attends : bench.graph.Attends known)
    (discerned : Discerned bench.graph.cards known) (id : String) :
    (bench.removeConnection id).2.graph.Attends known := by
  unfold removeConnection
  split
  · exact attends
  · next connection found =>
      obtain rfl := attends.named id connection found
      have member := Registry.mem_values_iff.mpr ⟨_, found⟩
      exact attends_recompile (attends_uproot attends discerned member)

end Bench

end CardNet
