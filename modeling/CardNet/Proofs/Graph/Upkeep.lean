import CardNet.Proofs.Graph.Standing

/-!
# Graphs that keep up with their connections

In a faithful graph stands just what its cards and the connections it lists put there, and it
listens just to the events that these connections start from (`Graph.Faithful`). A graph that was
built is faithful, and so it stays when a connection is added or removed
(`Bench.faithful_connect`, `Bench.faithful_uproot`), as long as the ids of all connections that
are ever used are distinct (`Usable`). Nothing is then in the way of a connection
(`Bench.applyAll_ok`).
-/

namespace CardNet

/-- Connections that can be used side by side: none is left out or leads to an event, and no
generated ids clash. -/
structure Usable (cards : List Card) (known : List Connection) : Prop where
  lands : ∀ connection ∈ known, connection.Lands cards
  clear : ClearNames cards known
  apart : EventsApart cards known

/-- A graph in which stands what its cards and connections put there, and nothing else. -/
structure Graph.Faithful (graph : Graph) : Prop where
  tidy : graph.net.Tidy
  stands : ∀ site fixture, graph.net.fixture? site = some fixture ↔
    Stands graph.cards graph.connections.values graph.channel site fixture
  heard : ∀ place, place ∈ graph.subscriptions.names ↔
    Heard graph.cards graph.connections.values place
  named : ∀ id connection, graph.connections.get? id = some connection → connection.id = id

section

variable {cards : List Card} {known connections : List Connection} {channel : Nat}

theorem Connection.Lands.parties {connection : Connection} (lands : connection.Lands cards) :
    ∃ parties, connection.parties cards = .ok parties :=
  lands.imp fun _ => And.left

theorem Heard.mono {more : List Connection} {place : String}
    (grown : ∀ connection ∈ connections, connection ∈ more) (heard : Heard cards connections place) :
    Heard cards more place := by
  obtain ⟨connection, member, told⟩ := heard
  exact ⟨connection, grown connection member, told⟩

/-- Fewer connections clash no more than all of them. -/
theorem ClearNames.restrict (clear : ClearNames cards known)
    (within : ∀ connection ∈ connections, connection ∈ known) : ClearNames cards connections where
  card := clear.card
  connection := fun first left second right =>
    clear.connection first (within first left) second (within second right)
  relay := fun first left second right =>
    clear.relay first (within first left) second (within second right)
  transfer := fun first left second right =>
    clear.transfer first (within first left) second (within second right)
  anchor := clear.anchor
  arc := fun first second third fourth left right =>
    clear.arc first second third fourth (left.mono within) (right.mono within)

theorem Usable.restrict (usable : Usable cards known)
    (within : ∀ connection ∈ connections, connection ∈ known) : Usable cards connections where
  lands := fun connection member => usable.lands connection (within connection member)
  clear := usable.clear.restrict within
  apart := fun connection member => usable.apart connection (within connection member)

theorem Usable.inward (usable : Usable cards known) : Inward cards known :=
  .of_lands usable.lands

/-- The edits for a connection are among those for all connections. -/
theorem mem_drafts_of_draft {connection : Connection} (member : connection ∈ connections)
    {edit : Edit} (inside : edit ∈ connection.draft cards channel) :
    edit ∈ drafts cards connections channel :=
  List.mem_append_left _ (List.mem_flatMap.mpr ⟨connection, member, inside⟩)

/-- What is put into a circuit for one more connection. -/
theorem stands_more_iff {connection : Connection} {more : List Connection}
    (inward : Inward cards more)
    (others : ∀ other, other ∈ more ↔ other = connection ∨ other ∈ connections) {site : Site}
    {fixture : Fixture} : Stands cards more channel site fixture ↔
      Stands cards connections channel site fixture ∨
        ∃ edit ∈ connection.draft cards channel, edit.brings? = some (site, fixture) := by
  have old : ∀ other ∈ connections, other ∈ more := fun other member => (others other).mpr (.inr member)
  have fresh : connection ∈ more := (others connection).mpr (.inl rfl)
  constructor
  · rw [stands_iff inward, stands_iff fun other member => inward other (old other member)]
    rintro ⟨edit, member, brought⟩
    rcases mem_drafts.mp member with ofCard | ⟨other, inside, parties, found, own⟩
    · exact .inl ⟨edit, mem_drafts.mpr (.inl ofCard), brought⟩
    · rcases (others other).mp inside with rfl | before
      · refine .inr ⟨edit, ?_, brought⟩
        rw [Connection.draft, found]
        exact List.mem_append_left _
          (List.mem_append_left _ (Connection.mem_blueprint.mpr own))
      · exact .inl ⟨edit, mem_drafts.mpr (.inr ⟨other, before, parties, found, own⟩), brought⟩
  · rintro (stands | ⟨edit, inside, brought⟩)
    · exact stands.mono old
    · exact (stands_iff inward).mpr ⟨edit, mem_drafts_of_draft fresh inside, brought⟩

/-- The edits for a connection listen to its source, if that is an event. -/
theorem Connection.listen_mem_draft {connection : Connection} {card : String} {anchor : Anchor} :
    .listen card anchor ∈ connection.draft cards channel ↔
      ∃ parties, connection.parties cards = .ok parties ∧ parties.source.kind = .event ∧
        card = connection.source.card ∧ anchor = parties.source := by
  constructor
  · intro member
    unfold draft at member
    split at member
    · next parties found =>
        simp only [layout, List.mem_append, Card.mem_blueprint, Connection.mem_blueprint] at member
        rcases member with (own | ofSource) | ofTarget
        · cases own with
          | listen kind => exact ⟨parties, found, kind, rfl, rfl⟩
        · cases ofSource
        · cases ofTarget
    · cases member
  · rintro ⟨parties, found, kind, rfl, rfl⟩
    rw [draft, found]
    exact List.mem_append_left _
      (List.mem_append_left _ (Connection.mem_blueprint.mpr (.listen kind)))

/-- What is listened to for one more connection. -/
theorem heard_more_iff {connection : Connection} {more : List Connection}
    (others : ∀ other, other ∈ more ↔ other = connection ∨ other ∈ connections)
    (channel : Nat) {place : String} : Heard cards more place ↔
      Heard cards connections place ∨ ∃ card anchor,
        .listen card anchor ∈ connection.draft cards channel ∧ anchor.listens = true ∧
          Endpoint.eventPlace ⟨card, anchor.id⟩ = place := by
  constructor
  · rintro ⟨other, member, parties, found, kind, listens, rfl⟩
    rcases (others other).mp member with rfl | before
    · have ends := (Connection.resolved_of_parties found).sourceEnd
      exact .inr ⟨_, _, Connection.listen_mem_draft.mpr ⟨parties, found, kind, rfl, rfl⟩, listens,
        by rw [ends]⟩
    · exact .inl ⟨other, before, parties, found, kind, listens, rfl⟩
  · rintro (heard | ⟨card, anchor, inside, listens, rfl⟩)
    · exact heard.mono fun other before => (others other).mpr (.inr before)
    · obtain ⟨parties, found, kind, rfl, rfl⟩ := Connection.listen_mem_draft.mp inside
      have ends := (Connection.resolved_of_parties found).sourceEnd
      exact ⟨connection, (others connection).mpr (.inl rfl), parties, found, kind, listens,
        by rw [ends]⟩

end

/-! ## What the list of connections holds -/

namespace Registry

variable {registry : Registry Connection} {known : List Connection}

/-- A connection that is entered under its id replaces none but itself. -/
theorem mem_values_insert
    (named : ∀ id connection, registry.get? id = some connection → connection.id = id)
    (within : ∀ connection ∈ registry.values, connection ∈ known)
    (distinct : ∀ first ∈ known, ∀ second ∈ known, first.id = second.id → first = second)
    {connection : Connection} (usable : connection ∈ known) (other : Connection) :
    other ∈ (registry.insert connection.id connection).values ↔
      other = connection ∨ other ∈ registry.values := by
  rw [mem_values_iff, mem_values_iff]
  constructor
  · rintro ⟨id, found⟩
    rw [get?_insert] at found
    split at found
    · exact .inl (Option.some.inj found).symm
    · exact .inr ⟨id, found⟩
  · rintro (rfl | ⟨id, found⟩)
    · exact ⟨other.id, by rw [get?_insert, if_pos rfl]⟩
    · refine ⟨id, ?_⟩
      rw [get?_insert]
      split
      · next same =>
          have own := named id other found
          rw [distinct other (within other (mem_values_iff.mpr ⟨id, found⟩)) connection usable
            (own.trans same)]
      · exact found

/-- A connection that is erased by its id takes none but itself along. -/
theorem mem_values_erase
    (named : ∀ id connection, registry.get? id = some connection → connection.id = id)
    (within : ∀ connection ∈ registry.values, connection ∈ known)
    (distinct : ∀ first ∈ known, ∀ second ∈ known, first.id = second.id → first = second)
    {connection : Connection} (usable : connection ∈ known) (other : Connection) :
    other ∈ (registry.erase connection.id).values ↔
      other ∈ registry.values ∧ other ≠ connection := by
  rw [mem_values_iff, mem_values_iff]
  constructor
  · rintro ⟨id, found⟩
    rw [get?_erase] at found
    split at found
    · cases found
    · next differ =>
        refine ⟨⟨id, found⟩, ?_⟩
        rintro rfl
        exact differ (named id other found).symm
  · rintro ⟨⟨id, found⟩, differ⟩
    refine ⟨id, ?_⟩
    rw [get?_erase, if_neg]
    · exact found
    · rintro rfl
      exact differ (distinct other (within other (mem_values_iff.mpr ⟨_, found⟩)) connection usable
        (named _ other found))

/-- Names stay right when a connection is entered under its id. -/
theorem named_insert
    (named : ∀ id connection, registry.get? id = some connection → connection.id = id)
    (connection : Connection) (id : String) (other : Connection)
    (found : (registry.insert connection.id connection).get? id = some other) : other.id = id := by
  rw [get?_insert] at found
  split at found
  · next same => rw [same, Option.some.inj found]
  · exact named id other found

theorem named_erase
    (named : ∀ id connection, registry.get? id = some connection → connection.id = id)
    (gone id : String) (other : Connection)
    (found : (registry.erase gone).get? id = some other) : other.id = id := by
  rw [get?_erase] at found
  split at found
  · cases found
  · exact named id other found

/-- What is listed after some connections were entered in order. -/
theorem mem_values_enroll
    (distinct : ∀ first ∈ known, ∀ second ∈ known, first.id = second.id → first = second)
    {connections : List Connection} (usable : ∀ connection ∈ connections, connection ∈ known)
    (named : ∀ id connection, registry.get? id = some connection → connection.id = id)
    (within : ∀ connection ∈ registry.values, connection ∈ known) :
    (∀ other, other ∈ (registry.enroll connections).values ↔
      other ∈ connections ∨ other ∈ registry.values) ∧
    ∀ id connection, (registry.enroll connections).get? id = some connection →
      connection.id = id := by
  induction connections generalizing registry with
  | nil => exact ⟨by simp [enroll], named⟩
  | cons first rest ih =>
      have inside := usable first (List.mem_cons_self ..)
      have entered := mem_values_insert named within distinct inside
      obtain ⟨members, names⟩ := ih (fun other member => usable other (List.mem_cons_of_mem _ member))
        (named_insert named first) (by
          intro other member
          rcases (entered other).mp member with rfl | old
          · exact inside
          · exact within other old)
      refine ⟨fun other => ?_, names⟩
      rw [enroll, List.foldl_cons, ← enroll, members, entered, List.mem_cons]
      tauto

end Registry

/-! ## Built graphs -/

namespace Graph

variable {graph : Graph} {cards : List Card} {known connections : List Connection}
  {channel : Nat}

/-- The connections that a built graph lists. -/
theorem Built.mem_values_of_distinct (built : graph.Built cards connections channel)
    (distinct : ∀ first ∈ known, ∀ second ∈ known, first.id = second.id → first = second)
    (within : ∀ connection ∈ connections, connection ∈ known) :
    (∀ other, other ∈ graph.connections.values ↔ other ∈ connections) ∧
      ∀ id connection, graph.connections.get? id = some connection → connection.id = id := by
  have named : ∀ id (connection : Connection), Registry.empty.get? id = some connection →
      connection.id = id := by simp
  obtain ⟨members, names⟩ := Registry.mem_values_enroll distinct within named (by simp)
  rw [built.registry]
  exact ⟨fun other => by simp [members], names⟩

theorem Built.mem_values (built : graph.Built cards connections channel)
    (usable : Usable cards known) (within : ∀ connection ∈ connections, connection ∈ known) :
    (∀ other, other ∈ graph.connections.values ↔ other ∈ connections) ∧
      ∀ id connection, graph.connections.get? id = some connection → connection.id = id :=
  built.mem_values_of_distinct usable.clear.connection within

/-- With distinct ids a graph that was built shows what its cards and connections put into it, in
whatever order they came. -/
theorem Built.stands_iff (built : graph.Built cards connections channel)
    (inward : Inward cards connections) (clear : ClearNames cards connections) {site : Site}
    {fixture : Fixture} : graph.net.fixture? site = some fixture ↔
      Stands cards connections channel site fixture := by
  rw [CardNet.stands_iff inward, built.fixture]
  constructor
  · intro found
    obtain ⟨edit, member, brought⟩ := List.exists_of_findSome?_eq_some found
    exact ⟨edit, member, Edit.fixture?_eq_some.mp brought⟩
  · rintro ⟨edit, member, brought⟩
    cases first : (drafts cards connections channel).findSome? fun edit => edit.fixture? site with
    | none =>
        have none := List.findSome?_eq_none_iff.mp first edit member
        cases none.symm.trans (Edit.fixture?_eq_some.mpr brought)
    | some other =>
        obtain ⟨early, inside, found⟩ := List.exists_of_findSome?_eq_some first
        have one := (CardNet.stands_iff inward).mpr ⟨early, inside, Edit.fixture?_eq_some.mp found⟩
        rw [one.unique clear ((CardNet.stands_iff inward).mpr ⟨edit, member, brought⟩)]

/-- A graph that was built is faithful. -/
theorem Built.faithful (built : graph.Built cards connections channel)
    (usable : Usable cards known) (within : ∀ connection ∈ connections, connection ∈ known) :
    graph.Faithful := by
  obtain ⟨members, names⟩ := built.mem_values usable within
  have same : ∀ other, other ∈ connections ↔ other ∈ graph.connections.values :=
    fun other => (members other).symm
  have here := usable.restrict within
  refine ⟨built.tidy, fun site fixture => ?_, fun place => ?_, names⟩
  · rw [built.cards_eq, built.channel_eq, built.stands_iff here.inward here.clear]
    exact ⟨.mono fun other => (same other).mp, .mono fun other => (members other).mp⟩
  · rw [built.listens, ← heard_iff, built.cards_eq]
    exact ⟨.mono fun other => (same other).mp, .mono fun other => (members other).mp⟩

end Graph

/-! ## Adding a connection -/

namespace Bench

variable {bench after : Bench} {known : List Connection} {connection : Connection}

/-- A faithful graph stays so when a connection is added. -/
theorem faithful_connect {id : String} (faithful : bench.graph.Faithful)
    (usable : Usable bench.graph.cards known)
    (within : ∀ other ∈ bench.graph.connections.values, other ∈ known)
    (member : connection ∈ known) (connected : bench.connect connection = (.ok id, after)) :
    after.graph.Faithful ∧ ∀ other, other ∈ after.graph.connections.values ↔
      other = connection ∨ other ∈ bench.graph.connections.values := by
  have tidy := (tidy_of_connect faithful.tidy connected).1
  obtain ⟨-, grown, warnings, grows, rfl⟩ := grows_of_connect connected
  have members := Registry.mem_values_insert faithful.named within usable.clear.connection member
  have cards : grown.graph.cards = bench.graph.cards := by rw [grows.graph]
  have channel : grown.graph.channel = bench.graph.channel := by rw [grows.graph]
  have lands : ∀ other ∈ (bench.graph.connections.insert connection.id connection).values,
      other.Lands bench.graph.cards := by
    intro other inside
    rcases (members other).mp inside with rfl | old
    · exact usable.lands _ member
    · exact usable.lands other (within other old)
  have whole : ∀ other ∈ (bench.graph.connections.insert connection.id connection).values,
      other ∈ known := by
    intro other inside
    rcases (members other).mp inside with rfl | old
    · exact member
    · exact within other old
  refine ⟨⟨tidy, fun site fixture => ?_, fun place => ?_,
    Registry.named_insert faithful.named connection⟩, members⟩
  · dsimp only
    rw [cards, channel, stands_more_iff (.of_lands lands) members, ← faithful.stands]
    constructor
    · exact grows.net.of_held
    · rintro (old | ⟨edit, inside, brought⟩)
      · exact grows.net.keeps old
      · -- What stands there now has been put there for one of the connections, too.
        obtain ⟨other, held⟩ := Option.ne_none_iff_exists'.mp (grows.net.taken inside brought)
        have one := (stands_more_iff (.of_lands lands) members).mpr
          ((grows.net.of_held held).imp_left (faithful.stands _ _).mp)
        have two := (stands_more_iff (.of_lands lands) members).mpr (.inr ⟨edit, inside, brought⟩)
        rw [held, (one.mono whole).unique usable.clear (two.mono whole)]
  · dsimp only
    rw [cards, grows.listens, faithful.heard, heard_more_iff members bench.graph.channel]

end Bench

/-! ## Removing a connection -/

namespace Circuit

variable {net : Circuit} {cards : List Card} {laid rest : List Connection} {channel : Nat}
  {connection : Connection} {parties : Connection.Parties}

/-- An arc is listed when it stands under its text. -/
theorem mem_arcs_iff (plain : net.Plain) {arc : Arc} :
    arc ∈ net.arcs.values ↔ net.fixture? (.arc arc.name) = some (.arc arc) := by
  rw [fixture?, Option.map_eq_some_iff]
  constructor
  · exact fun inside => ⟨arc, plain.indexed.get?_name inside, rfl⟩
  · rintro ⟨other, found, same⟩
    cases same
    exact Registry.mem_values_iff.mpr ⟨_, found⟩

section

variable (tidy : net.Tidy)
  (stands : ∀ site fixture, net.fixture? site = some fixture ↔ Stands cards laid channel site fixture)
  (member : connection ∈ laid) (found : connection.parties cards = .ok parties)

include tidy stands member found

/-- What is left without the transfer of a connection and the place before it. -/
theorem fixture?_bared {site : Site} {fixture : Fixture} :
    (net.bared connection).fixture? site = some fixture ↔
      Stands cards laid channel site fixture ∧ site.Spares connection.transfer fixture ∧
        site.Spares connection.splitPlace fixture := by
  have transfer := mem_transitions_of_held ((stands _ _).mpr (.transfer member found))
  have relay : connection.splitPlace ∈ (net.removeTransition connection.transfer).2.places.names := by
    rw [Net.places_removeTransition]
    exact mem_places_of_held ((stands _ _).mpr (.relay member found))
  rw [bared, fixture?_removePlace (tidy.removeTransition _) relay,
    fixture?_removeTransition tidy transfer, stands, and_assoc]

/-- What hands on from the source of the connection is still there. -/
theorem handOver_bared : (net.bared connection).fixture?
    (.transition (connection.handOver parties.source)) = some (.transition .split) := by
  rw [fixture?_bared tidy stands member found]
  refine ⟨.handOver member found, (Connection.transfer_ne_handOver _ _ connection).symm, ?_⟩
  intro same
  have named := congrArg namesPlace same
  simp at named

/-- Whether events are handed on from the source of a connection tells whether the source is an
event. -/
theorem handsEvents_bared (apart : EventsApart cards laid) :
    (net.bared connection).handsEvents connection = true ↔ parties.source.kind = .event := by
  rw [handsEvents, Net.isConnected, Registry.contains_eq_true, ← not_not (a := _ ∈ _),
    ← fixture?_arc_eq_none]
  constructor
  · intro held
    obtain ⟨fixture, held⟩ := Option.ne_none_iff_exists'.mp held
    obtain ⟨stood, -⟩ := (fixture?_bared tidy stands member found).mp held
    generalize named : Site.arc _ = site at stood
    cases stood with
    | arc leads =>
        obtain ⟨other, inside, ends, resolves, kind, same⟩ :=
          leads.event_of_text (Site.arc.inj named).symm
        by_contra differ
        have joined := Connection.resolved_of_parties resolves
        refine apart connection member parties found differ _ joined.sourceCard _ joined.source kind ?_
        rw [← joined.sourceEnd, same]
    | _ => cases named
  · intro kind
    refine Option.ne_none_iff_exists'.mpr ⟨.arc ⟨connection.source.eventPlace,
      connection.source.eventTransition, 1⟩, (fixture?_bared tidy stands member found).mpr ?_⟩
    have leads : Leads cards laid _ _ := .hand member found
    rw [Connection.sourcePlace, Connection.handOver, if_pos kind, if_pos kind] at leads
    have hand := Connection.transfer_ne_handOver connection parties.source connection
    rw [Connection.handOver, if_pos kind] at hand
    refine ⟨.arc leads, ⟨fun same => ?_, hand.symm⟩, fun same => ?_, fun same => ?_⟩
    · have named := congrArg namesPlace same
      simp at named
    · have read := congrArg Family.read same
      simp at read
    · have named := congrArg namesPlace same
      simp at named

theorem leading_bared (apart : EventsApart cards laid) :
    (net.bared connection).leading connection = connection.handOver parties.source := by
  have events := handsEvents_bared tidy stands member found apart
  unfold leading Connection.handOver
  by_cases kind : parties.source.kind = .event
  · rw [if_pos (events.mpr kind), if_pos kind]
  · rw [if_neg (mt events.mp kind), if_neg kind]

/-- Nothing is behind what hands on just when no other connection starts from the same anchor. -/
theorem arcsFrom_bared (clear : ClearNames cards laid)
    (lands : ∀ other ∈ laid, other.Lands cards)
    (others : ∀ other, other ∈ rest ↔ other ∈ laid ∧ other ≠ connection) :
    ((net.bared connection).arcsFrom (connection.handOver parties.source)).isEmpty = true ↔
      ∀ other ∈ rest, other.source ≠ connection.source := by
  have plain := (tidy.bared connection).plain
  have held : ∀ arc : Arc, arc ∈ (net.bared connection).arcs.values ↔ _ :=
    fun _ => mem_arcs_iff plain
  rw [List.isEmpty_iff, List.eq_nil_iff_forall_not_mem]
  constructor
  · intro none other inside same
    obtain ⟨known, differ⟩ := (others other).mp inside
    obtain ⟨ends, resolves, -⟩ := lands other known
    have behind := Connection.handOver_eq resolves found same
    refine none ⟨connection.handOver parties.source, other.splitPlace, 1⟩
      (plain.indexed.mem_arcsFrom.mpr ⟨(held _).mpr ?_, rfl⟩)
    rw [fixture?_bared tidy stands member found, ← behind]
    refine ⟨.arc (.spread known resolves), ⟨(Connection.transfer_ne_handOver _ _ _).symm, ?_⟩, ?_, ?_⟩
    · intro touches
      have named := congrArg namesPlace touches
      simp at named
    · intro touches
      have named := congrArg namesPlace touches
      simp at named
    · exact fun touches => differ (clear.relay _ known _ member ⟨_, resolves⟩ ⟨_, found⟩ touches)
  · intro last arc inside
    obtain ⟨listed, start⟩ := plain.indexed.mem_arcsFrom.mp inside
    obtain ⟨stood, -, relay⟩ := (fixture?_bared tidy stands member found).mp ((held arc).mp listed)
    generalize arc.name = text at stood relay
    cases stood with
    | arc leads =>
        have named := congrArg namesPlace start
        cases leads with
        | spread known resolves =>
            refine last _ ((others _).mpr ⟨known, ?_⟩) (clear.source_eq resolves found start)
            rintro rfl
            exact relay.2 rfl
        | output => exact Connection.internalTransition_ne_handOver _ _ _ start
        | bring => exact Connection.transfer_ne_handOver _ _ _ start
        | _ => simp at named

/-- Without a connection the circuit is what the other connections make it. -/
theorem fixture?_uprooted (apart : EventsApart cards laid) (clear : ClearNames cards laid)
    (lands : ∀ other ∈ laid, other.Lands cards)
    (others : ∀ other, other ∈ rest ↔ other ∈ laid ∧ other ≠ connection) {site : Site}
    {fixture : Fixture} : (net.uprooted connection).fixture? site = some fixture ↔
      Stands cards rest channel site fixture := by
  have none := arcsFrom_bared tidy stands member found clear lands others
  rw [Stands.rest_iff clear lands member found others, uprooted,
    leading_bared tidy stands member found apart]
  split
  · next last =>
      have handOver := mem_transitions_of_held (handOver_bared tidy stands member found)
      rw [fixture?_removeTransition (tidy.bared connection) handOver,
        fixture?_bared tidy stands member found, and_assoc, and_assoc, imp_iff_right (none.mp last)]
  · next shared =>
      have others : ∀ kept : Prop,
          ((∀ other ∈ rest, other.source ≠ connection.source) → kept) ↔ True :=
        fun kept => iff_true_intro fun last => absurd (none.mpr last) shared
      rw [fixture?_bared tidy stands member found, others, and_true]

theorem silences_iff (apart : EventsApart cards laid) (clear : ClearNames cards laid)
    (lands : ∀ other ∈ laid, other.Lands cards)
    (others : ∀ other, other ∈ rest ↔ other ∈ laid ∧ other ≠ connection) :
    net.silences connection = true ↔ (∀ other ∈ rest, other.source ≠ connection.source) ∧
      parties.source.kind = .event := by
  rw [silences, leading_bared tidy stands member found apart, Bool.and_eq_true,
    arcsFrom_bared tidy stands member found clear lands others,
    handsEvents_bared tidy stands member found apart]

end

end Circuit

/-- Without one of its connections a graph listens to the same events, but for the source of the
connection when no other connection starts there. -/
theorem heard_rest_iff {cards : List Card} {laid rest : List Connection} {connection : Connection}
    {parties : Connection.Parties} (clear : ClearNames cards laid)
    (lands : ∀ other ∈ laid, other.Lands cards)
    (found : connection.parties cards = .ok parties)
    (others : ∀ other, other ∈ rest ↔ other ∈ laid ∧ other ≠ connection) {place : String} :
    Heard cards rest place ↔ Heard cards laid place ∧
      ((∀ other ∈ rest, other.source ≠ connection.source) → parties.source.kind = .event →
        place ≠ connection.source.eventPlace) := by
  constructor
  · rintro ⟨other, inside, ends, resolves, kind, listens, rfl⟩
    refine ⟨⟨other, ((others other).mp inside).1, ends, resolves, kind, listens, rfl⟩, ?_⟩
    intro last event same
    refine last other inside (clear.source_eq resolves found ?_)
    rw [Connection.handOver, Connection.handOver, if_pos kind, if_pos event,
      Endpoint.eventTransition_inj, same]
  · rintro ⟨⟨other, known, ends, resolves, kind, listens, rfl⟩, kept⟩
    by_cases same : other = connection
    · subst same
      obtain rfl := Except.ok.inj (found.symm.trans resolves)
      have more := mt kept fun kept => kept kind rfl
      push Not at more
      obtain ⟨second, inside, start⟩ := more
      obtain ⟨joined, further, -⟩ := lands second ((others second).mp inside).1
      have anchors := Connection.source_of_parties further found start
      exact ⟨second, inside, joined, further, anchors ▸ kind, anchors ▸ listens, by rw [start]⟩
    · exact ⟨other, (others other).mpr ⟨known, same⟩, ends, resolves, kind, listens, rfl⟩

namespace Bench

variable {bench after : Bench} {known : List Connection} {connection : Connection}

/-- A faithful graph stays so when a connection is taken out. -/
theorem faithful_uproot (faithful : bench.graph.Faithful)
    (usable : Usable bench.graph.cards known)
    (within : ∀ other ∈ bench.graph.connections.values, other ∈ known)
    (member : connection ∈ bench.graph.connections.values)
    (uprooted : Bench.uproot { bench with
      graph.connections := bench.graph.connections.erase connection.id } connection = after) :
    after.graph.Faithful ∧ ∀ other, other ∈ after.graph.connections.values ↔
      other ∈ bench.graph.connections.values ∧ other ≠ connection := by
  obtain ⟨lands, clear, apart⟩ := usable.restrict within
  obtain ⟨parties, found⟩ := (lands connection member).parties
  have others := Registry.mem_values_erase faithful.named within usable.clear.connection
    (within connection member)
  have silent := Circuit.silences_iff faithful.tidy faithful.stands member found apart clear lands
    others
  rw [← uprooted, graph_uproot]
  refine ⟨⟨faithful.tidy.uprooted connection, fun site fixture => ?_, fun place => ?_,
    Registry.named_erase faithful.named connection.id⟩, others⟩
  · exact Circuit.fixture?_uprooted faithful.tidy faithful.stands member found apart clear lands
      others
  · dsimp only
    rw [heard_rest_iff clear lands found others, ← faithful.heard]
    split
    · next last =>
        obtain ⟨alone, kind⟩ := silent.mp last
        rw [Registry.names_erase, List.mem_filter, decide_eq_true_eq, imp_iff_right alone,
          imp_iff_right kind]
    · next kept =>
        exact (and_iff_left fun alone kind => absurd (silent.mpr ⟨alone, kind⟩) kept).symm

end Bench

/-! ## Nothing is in the way -/

/-- What an edit wants a place to be bound to is what it brings there. -/
private theorem Edit.brings_of_wants {edit : Edit} {id : String} {wanted : Endpoint}
    (wants : edit.wants? = some (id, wanted)) : ∃ content,
      edit.brings? = some (.place id, .place .process (some content)) ∧
        content.endpoint? = some wanted := by
  cases edit with
  | anchorPlace card anchor => cases wants; exact ⟨_, rfl, rfl⟩
  | eventPlace card anchor => cases wants; exact ⟨_, rfl, rfl⟩
  | _ => cases wants

namespace Bench

variable {bench after : Bench} {cards : List Card} {known connections : List Connection}
  {channel : Nat} {edits : List Edit}

/-- In a circuit in which nothing stands but what is known, and never mind in which order it came
in, all edits for what is known succeed. -/
theorem applyAll_ok (inward : Inward cards known) (clear : ClearNames cards known)
    (tidy : bench.graph.net.Tidy)
    (inside : ∀ site fixture, bench.graph.net.fixture? site = some fixture →
      Stands cards known channel site fixture)
    (drafted : ∀ edit ∈ edits, edit ∈ drafts cards known channel)
    (follow : Edit.Follow (fun id => bench.graph.net.hasNode id = true) edits) :
    ∃ after, bench.applyAll edits = (.ok (), after) ∧ after.graph.net.Tidy ∧
      (∀ site fixture, after.graph.net.fixture? site = some fixture →
        Stands cards known channel site fixture) ∧
      after.graph.cards = bench.graph.cards ∧ after.graph.channel = bench.graph.channel := by
  obtain ⟨done, rest, rfl, after, grows, last, ends⟩ := applyAll_cases tidy follow
  have still : ∀ site fixture, after.graph.net.fixture? site = some fixture →
      Stands cards known channel site fixture := by
    intro site fixture held
    rcases grows.net.of_held held with old | ⟨edit, member, brought⟩
    · exact inside site fixture old
    · exact (stands_iff inward).mpr
        ⟨edit, drafted edit (List.mem_append_left _ member), brought⟩
  rcases ends with ⟨rfl, applied⟩ | ⟨edit, left, failure, rfl, collides, -⟩
  · exact ⟨after, applied, last, still, by rw [grows.graph], by rw [grows.graph]⟩
  · obtain ⟨id, wanted, wants, taken, differ, -⟩ := collides
    refine absurd ?_ differ
    obtain ⟨content, brought, bound⟩ := Edit.brings_of_wants wants
    have here := mt Circuit.fixture?_place_eq_none.mp (not_not.mpr taken)
    obtain ⟨fixture, held⟩ := Option.ne_none_iff_exists'.mp here
    have own : Stands cards known channel _ _ :=
      (stands_iff inward).mpr ⟨edit, drafted edit (by simp), brought⟩
    rw [(still _ _ held).unique clear own] at held
    rw [Circuit.boundTo?, Circuit.content?_of_fixture? held]
    exact bound

/-- Connections that are known can be laid out, or are left out. -/
theorem connectAll_ok (inward : Inward cards known) (clear : ClearNames cards known)
    (tidy : bench.graph.net.Tidy)
    (inside : ∀ site fixture, bench.graph.net.fixture? site = some fixture →
      Stands cards known bench.graph.channel site fixture)
    (same : bench.graph.cards = cards) (within : ∀ connection ∈ connections, connection ∈ known) :
    ∃ after, bench.connectAll connections = (.ok (), after) ∧ after.graph.net.Tidy ∧
      (∀ site fixture, after.graph.net.fixture? site = some fixture →
        Stands cards known after.graph.channel site fixture) ∧ after.graph.cards = cards := by
  induction connections generalizing bench with
  | nil => exact ⟨bench, rfl, tidy, inside, same⟩
  | cons connection rest ih =>
      have member := within connection (List.mem_cons_self ..)
      have later : ∀ other ∈ rest, other ∈ known :=
        fun other inRest => within other (List.mem_cons_of_mem _ inRest)
      cases found : connection.parties cards with
      | error reason =>
          obtain ⟨after, connected, rest⟩ :=
            @ih ((bench.warn connection reason).register connection) tidy inside same later
          refine ⟨after, ?_, rest⟩
          simp only [connectAll, connect, same, found]
          exact connected
      | ok parties =>
          have layout : connection.draft cards bench.graph.channel =
              connection.layout parties bench.graph.channel := by
            rw [Connection.draft, found]
          obtain ⟨middle, applied, kept, still, cards_eq, channel_eq⟩ :=
            applyAll_ok inward clear tidy inside
              (fun edit drafted => mem_drafts_of_draft member (layout ▸ drafted))
              (Connection.follow_layout found bench.graph.channel _)
          obtain ⟨after, connected, rest⟩ := @ih (middle.register connection) kept
            (fun site fixture held => channel_eq ▸ still site fixture held) (cards_eq.trans same) later
          refine ⟨after, ?_, rest⟩
          simp only [connectAll, connect, same, found, applied]
          exact connected

end Bench

/-- A graph of known connections is built when its plans can be made. -/
theorem Graph.exists_build {mode : Mode} {config : GraphConfig} {cards : List Card}
    {known : List Connection} (inward : Inward cards known) (clear : ClearNames cards known)
    (within : ∀ connection ∈ config.connections, connection ∈ known) (globals : Option Values)
    (board : Board)
    (planned : ∀ graph : Graph, graph.Built cards config.connections board.nextSlot →
      graph.mode = mode → graph.recompile.1 = .ok ()) :
    ∃ graph after, Graph.build mode config cards globals board = (.ok graph, after) := by
  let start := vacant mode config cards globals board
  have empty : ∀ site fixture, start.graph.net.fixture? site = some fixture →
      Stands cards known board.nextSlot site fixture := by
    intro site fixture held
    cases (Circuit.fixture?_blank _ site).symm.trans held
  obtain ⟨middle, connected, tidy, inside, cards_eq⟩ :=
    Bench.connectAll_ok inward clear (.blank _) empty rfl within
  obtain ⟨laid, applied, -⟩ := Bench.applyAll_ok inward clear tidy inside
    (fun edit member => cards_eq ▸ List.mem_append_right _ member)
    (.flatMap fun card _ => card.follow_blueprint middle.graph.channel _)
  have opened : start.graph = _ := rfl
  obtain ⟨built, modes⟩ := built_of_laid opened connected applied
  have constructed : start.construct config.connections = laid.seed.recompile := by
    rw [Bench.construct, connected]
    dsimp only
    rw [applied]
  have recompiled : laid.seed.recompile = (.ok (), laid.seed.recompile.2) :=
    Prod.ext (planned laid.seed.graph built modes) rfl
  exact ⟨_, _, by rw [build_eq_construct, constructed, recompiled]; rfl⟩

end CardNet
