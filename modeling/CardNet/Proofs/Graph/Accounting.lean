import CardNet.Proofs.Graph.Outlets
import CardNet.Proofs.Graph.Upkeep

/-!
# Graphs that can account for their nodes

Connections may be left out, and they may lead to events. The place of an event that a connection
has led to stays when the connection goes, but all other nodes and all arcs are there for a card or
for a connection that the graph lists, and the graph listens to the events that these start from
(`Graph.Accounted`). A graph that was built is accounted for, and so it stays when connections come
and go (`Bench.accounted_connect`, `Bench.accounted_uproot`), as long as all ids are told apart
(`SetApart`).
-/

namespace CardNet

/-- Cards, anchors, connections and arcs have distinct ids, and no connection that starts from an
anchor that is no event goes by the ids of an event. The connections that are left out count. -/
structure SetApart (cards : List Card) (known : List Connection) : Prop
    extends ClearNames cards known where
  relays : ∀ first ∈ known, ∀ second ∈ known, first.splitPlace = second.splitPlace → first = second
  transfers : ∀ first ∈ known, ∀ second ∈ known, first.transfer = second.transfer → first = second
  apart : EventsApart cards known

/-- A circuit whose arcs, and whose nodes but for the places of anchors, are there for some cards
and connections. -/
structure Circuit.Serves (net : Circuit) (cards : List Card) (connections : List Connection) :
    Prop where
  tidy : net.Tidy
  nodes : ∀ id, Family.read id ≠ .anchor → (net.hasNode id = true ↔ Stood cards connections id)
  joins : ∀ source target, net.Joins source target ↔ Leads cards connections source target

/-- A graph whose circuit serves its cards and the connections that it lists, and that listens to
the events that these start from. -/
structure Graph.Accounted (graph : Graph) : Prop where
  net : graph.net.Serves graph.cards graph.connections.values
  heard : ∀ place, place ∈ graph.subscriptions.names ↔
    Heard graph.cards graph.connections.values place
  named : ∀ id connection, graph.connections.get? id = some connection → connection.id = id

variable {cards : List Card} {known connections : List Connection} {channel : Nat}

/-! ## Nodes by name -/

/-- The nodes that are drafted, but for the places of anchors, are those that cards and connections
put into a circuit. -/
theorem exists_draft_iff (channel : Nat) {id : String} (other : Family.read id ≠ .anchor) :
    (∃ edit ∈ drafts cards connections channel, edit.node? = some id) ↔
      Stood cards connections id := by
  have place : ∀ endpoint : Endpoint, endpoint.place ≠ id := by
    rintro endpoint rfl
    exact other (Family.read_place endpoint)
  simp only [mem_drafts]
  constructor
  · rintro ⟨edit, ⟨card, member, brings⟩ | ⟨connection, member, parties, found, brings⟩, named⟩
    · cases brings with
      | anchor => exact absurd (Option.some.inj named) (place _)
      | event slot kind => cases named; exact ⟨0, _, .inl (.event member slot kind)⟩
      | start none => cases named; exact ⟨0, _, .inl (.start member none)⟩
      | call => cases named; exact ⟨0, _, .inr (.call member)⟩
      | begin | input | output => cases named
    · have ends := Connection.resolved_of_parties found
      cases brings with
      | source | target => exact absurd (Option.some.inj named) (place _)
      | event kind =>
          rw [ends.sourceEnd] at named
          cases named
          exact ⟨0, _, .inl (.event ends.sourceCard ends.source kind)⟩
      | relay => cases named; exact ⟨0, _, .inl (.relay member found)⟩
      | handOver => cases named; exact ⟨0, _, .inr (.handOver member found)⟩
      | transfer => cases named; exact ⟨0, _, .inr (.transfer member found)⟩
      | listen | hand | spread | take | bring => cases named
  · rintro ⟨_, _, stands | stands⟩
    · cases stands with
      | anchor => exact absurd rfl (place _)
      | event member slot kind => exact ⟨_, .inl ⟨_, member, .event slot kind⟩, rfl⟩
      | start member none => exact ⟨_, .inl ⟨_, member, .start none⟩, rfl⟩
      | relay member found => exact ⟨_, .inr ⟨_, member, _, found, .relay⟩, rfl⟩
    · cases stands with
      | call member => exact ⟨_, .inl ⟨_, member, .call⟩, rfl⟩
      | handOver member found => exact ⟨_, .inr ⟨_, member, _, found, .handOver⟩, rfl⟩
      | transfer member found => exact ⟨_, .inr ⟨_, member, _, found, .transfer⟩, rfl⟩

/-- A node comes with an edit that brings something to the site of a place or of a transition. -/
private theorem Edit.node?_eq_some {edit : Edit} {id : String} : edit.node? = some id ↔
    ∃ fixture, edit.brings? = some (.place id, fixture) ∨
      edit.brings? = some (.transition id, fixture) := by
  cases edit <;> simp [Edit.node?, Edit.brings?]

/-- A circuit has the nodes that it had and those that edits have brought. -/
theorem Circuit.Grows.hasNode_iff {net after : Circuit} {edits : List Edit}
    (grows : net.Grows edits after) {id : String} : after.hasNode id = true ↔
      net.hasNode id = true ∨ ∃ edit ∈ edits, edit.node? = some id := by
  have held : ∀ {net : Circuit}, net.hasNode id = true ↔ ∃ fixture,
      net.fixture? (.place id) = some fixture ∨ net.fixture? (.transition id) = some fixture := by
    intro net
    rw [Circuit.hasNode_iff, Option.ne_none_iff_exists', Option.ne_none_iff_exists', exists_or]
  constructor
  · intro known
    obtain ⟨fixture, found⟩ := held.mp known
    rcases found with found | found <;>
      rcases grows.of_held found with old | ⟨edit, member, brought⟩
    · exact .inl (held.mpr ⟨fixture, .inl old⟩)
    · exact .inr ⟨edit, member, Edit.node?_eq_some.mpr ⟨fixture, .inl brought⟩⟩
    · exact .inl (held.mpr ⟨fixture, .inr old⟩)
    · exact .inr ⟨edit, member, Edit.node?_eq_some.mpr ⟨fixture, .inr brought⟩⟩
  · rintro (old | ⟨edit, member, named⟩)
    · obtain ⟨fixture, found⟩ := held.mp old
      exact held.mpr ⟨fixture, found.imp grows.keeps grows.keeps⟩
    · obtain ⟨fixture, brought⟩ := Edit.node?_eq_some.mp named
      rw [Circuit.hasNode_iff]
      exact brought.imp (grows.taken member) (grows.taken member)

/-! ## Adding a connection -/

/-- The edits for one connection more. -/
private theorem mem_drafts_more (cards : List Card) (channel : Nat) {connection : Connection}
    {more : List Connection}
    (others : ∀ other, other ∈ more ↔ other = connection ∨ other ∈ connections) (edit : Edit) :
    edit ∈ drafts cards more channel ↔
      edit ∈ drafts cards connections channel ∨ edit ∈ connection.draft cards channel := by
  simp only [drafts, List.mem_append, List.mem_flatMap]
  constructor
  · rintro (⟨other, inside, drafted⟩ | ofCard)
    · rcases (others other).mp inside with rfl | old
      · exact .inr drafted
      · exact .inl (.inl ⟨other, old, drafted⟩)
    · exact .inl (.inr ofCard)
  · rintro ((⟨other, old, drafted⟩ | ofCard) | drafted)
    · exact .inl ⟨other, (others other).mpr (.inr old), drafted⟩
    · exact .inr ofCard
    · exact .inl ⟨connection, (others connection).mpr (.inl rfl), drafted⟩

/-- A circuit has the arcs that it had and those that edits have brought, if their texts tell them
apart. -/
private theorem Circuit.Grows.joins_iff {net after : Circuit} {edits : List Edit}
    (grows : net.Grows edits after) (plain : net.Plain)
    (texts : ∀ first second third fourth,
      (net.Joins first second ∨ .arc first second ∈ edits) → .arc third fourth ∈ edits →
      arcName first second = arcName third fourth → first = third ∧ second = fourth)
    {source target : String} : after.Joins source target ↔
      net.Joins source target ∨ .arc source target ∈ edits := by
  have came : ∀ {arc : Arc}, arc ∈ after.arcs.values →
      arc.weight = 1 ∧ (net.Joins arc.source arc.target ∨ .arc arc.source arc.target ∈ edits) := by
    intro arc listed
    rcases grows.of_held ((mem_arcs_iff (grows.plain plain)).mp listed) with
      old | ⟨edit, member, brought⟩
    · have before := (mem_arcs_iff plain).mpr old
      have single := plain.weight arc before
      exact ⟨single, .inl (by rwa [Net.Joins, ← single])⟩
    · cases edit with
      | arc source target =>
          obtain rfl := Fixture.arc.inj (Prod.mk.inj (Option.some.inj brought)).2
          exact ⟨rfl, .inr member⟩
      | anchorPlace | eventPlace | listen | place | transition => cases brought
  constructor
  · exact fun joined => (came joined).2
  · rintro (old | drafted)
    · rw [Net.Joins, mem_arcs_iff plain] at old
      rw [Net.Joins, mem_arcs_iff (grows.plain plain)]
      exact grows.keeps old
    · -- An arc goes under the text now, and there is no other arc that it can be.
      obtain ⟨fixture, held⟩ := Option.ne_none_iff_exists'.mp (grows.taken drafted rfl)
      obtain ⟨arc, found, -⟩ := Option.map_eq_some_iff.mp held
      have listed := Registry.mem_values_iff.mpr ⟨_, found⟩
      obtain ⟨single, ends⟩ := came listed
      obtain ⟨rfl, rfl⟩ := texts _ _ _ _ ends drafted
        ((grows.plain plain).indexed.named _ _ found)
      rwa [Net.Joins, ← single]

namespace Bench

variable {bench after : Bench} {connection : Connection}

/-- A graph stays accounted for when a connection is added. -/
theorem accounted_connect {id : String} (accounted : bench.graph.Accounted)
    (apart : SetApart bench.graph.cards known)
    (within : ∀ other ∈ bench.graph.connections.values, other ∈ known)
    (member : connection ∈ known) (connected : bench.connect connection = (.ok id, after)) :
    after.graph.Accounted ∧ ∀ other, other ∈ after.graph.connections.values ↔
      other = connection ∨ other ∈ bench.graph.connections.values := by
  have tidy := (tidy_of_connect accounted.net.tidy connected).1
  obtain ⟨-, grown, warnings, grows, rfl⟩ := grows_of_connect connected
  have members := Registry.mem_values_insert accounted.named within apart.connection member
  have cards : grown.graph.cards = bench.graph.cards := by rw [grows.graph]
  have more := mem_drafts_more bench.graph.cards bench.graph.channel members
  have whole : ∀ other ∈ (bench.graph.connections.insert connection.id connection).values,
      other ∈ known := by
    intro other inside
    rcases (members other).mp inside with rfl | old
    · exact member
    · exact within other old
  have old : ∀ source target, bench.graph.net.Joins source target ↔ .arc source target ∈
      drafts bench.graph.cards bench.graph.connections.values bench.graph.channel :=
    fun source target => (accounted.net.joins source target).trans arc_mem_drafts.symm
  refine ⟨⟨⟨tidy, fun node other => ?_, fun source target => ?_⟩, fun place => ?_,
    Registry.named_insert accounted.named connection⟩, members⟩
  · dsimp only
    rw [cards, grows.net.hasNode_iff, accounted.net.nodes node other,
      ← exists_draft_iff bench.graph.channel other, ← exists_draft_iff bench.graph.channel other,
      ← exists_or]
    exact exists_congr fun edit => by rw [more, or_and_right]
  · dsimp only
    rw [cards, ← arc_mem_drafts, more, ← old]
    refine grows.net.joins_iff accounted.net.tidy.plain
      fun first second third fourth left right => ?_
    have leads : ∀ {source target : String}, (bench.graph.net.Joins source target ∨
        .arc source target ∈ connection.draft bench.graph.cards bench.graph.channel) →
        Leads bench.graph.cards known source target := by
      intro source target either
      rw [old, ← more, arc_mem_drafts] at either
      exact either.mono whole
    exact apart.arc _ _ _ _ (leads left) (leads (.inr right))
  · dsimp only
    rw [cards, grows.listens, accounted.heard, heard_more_iff members bench.graph.channel]

end Bench

/-- A graph that was built is accounted for. -/
theorem Graph.Built.accounted {graph : Graph} (built : graph.Built cards connections channel)
    (apart : SetApart cards known) (within : ∀ connection ∈ connections, connection ∈ known) :
    graph.Accounted ∧ ∀ other, other ∈ graph.connections.values ↔ other ∈ connections := by
  obtain ⟨members, names⟩ := built.mem_values_of_distinct apart.connection within
  have same : ∀ edit, edit ∈ drafts cards graph.connections.values channel ↔
      edit ∈ drafts cards connections channel := by
    intro edit
    simp only [mem_drafts, members]
  refine ⟨⟨⟨built.tidy, fun id other => ?_, fun source target => ?_⟩, fun place => ?_, names⟩,
    members⟩
  · have blank : Net.hasNode
        (⟨"", .empty, .empty, .empty, .empty, .empty⟩ : Circuit) id = false := rfl
    simp only [built.grows.hasNode_iff, blank, Bool.false_eq_true, false_or]
    rw [built.cards_eq, ← exists_draft_iff channel other]
    simp only [same]
  · rw [built.cards_eq, built.joins_iff (apart.toClearNames.restrict within), ← arc_mem_drafts,
      ← arc_mem_drafts, same]
  · rw [built.cards_eq, built.listens, ← heard_iff]
    exact ⟨.mono fun other => (members other).mpr, .mono fun other => (members other).mp⟩

/-! ## What goes with a connection -/

section

variable {laid rest : List Connection} {connection : Connection} {parties : Connection.Parties}

/-- What hands on from the source of a connection does so for one of the others, too. -/
def Connection.Shares (connection : Connection) (parties : Connection.Parties) (cards : List Card)
    (rest : List Connection) : Prop :=
  ∃ other ∈ rest, ∃ ends, other.parties cards = .ok ends ∧
    other.handOver ends.source = connection.handOver parties.source

/-- A node that stays when a connection goes: it is not there for the connection alone. -/
def Connection.Leaves (connection : Connection) (parties : Connection.Parties) (cards : List Card)
    (rest : List Connection) (id : String) : Prop :=
  id ≠ connection.transfer ∧ id ≠ connection.splitPlace ∧
    (id = connection.handOver parties.source → connection.Shares parties cards rest)

/-- What hands on is no place of an anchor. -/
private theorem Family.read_handOver_ne (connection : Connection) (source : Anchor) :
    Family.read (connection.handOver source) ≠ .anchor := by
  unfold Connection.handOver
  split
  · rw [Family.read_eventTransition]
    decide
  · rw [show connection.splitTransition = (Part.split connection.source).name from rfl,
      Family.read_name]
    exact nofun

/-- The place of an anchor stays. -/
private theorem Connection.leaves_anchor {id : String} (anchor : Family.read id = .anchor) :
    connection.Leaves parties cards rest id := by
  refine ⟨?_, ?_, ?_⟩
  · rintro rfl
    exact nomatch anchor.symm.trans (Family.read_name (.transfer connection))
  · rintro rfl
    exact nomatch anchor.symm.trans (Family.read_splitPlace connection)
  · rintro rfl
    exact absurd anchor (Family.read_handOver_ne connection parties.source)

/-- A transfer is there for a connection that is not left out. -/
private theorem Stood.of_transfer (stood : Stood cards connections connection.transfer) :
    ∃ other ∈ connections, other.Resolves cards ∧ other.transfer = connection.transfer := by
  have named := namesPlace_transfer connection
  obtain ⟨channel, fixture, stands⟩ := stood
  generalize same : connection.transfer = id at stands named
  rcases stands with stands | stands
  · cases stands <;> simp at named
  · cases stands with
    | @call card => exact absurd same.symm (card.internalTransition_ne_transfer connection)
    | handOver => exact absurd same (Connection.transfer_ne_handOver _ _ connection)
    | transfer inside found => exact ⟨_, inside, ⟨_, found⟩, rfl⟩

/-- The place before a transfer is there for a connection that is not left out. -/
private theorem Stood.of_splitPlace (stood : Stood cards connections connection.splitPlace) :
    ∃ other ∈ connections, other.Resolves cards ∧ other.splitPlace = connection.splitPlace := by
  have named := namesPlace_splitPlace connection
  have read := Family.read_splitPlace connection
  obtain ⟨channel, fixture, stands⟩ := stood
  generalize connection.splitPlace = id at stands named read
  rcases stands with stands | stands
  · cases stands with
    | relay inside found => exact ⟨_, inside, ⟨_, found⟩, rfl⟩
    | anchor | event | start => simp at read
  · cases stands <;> simp at named

/-- What hands on from an anchor that is no event is there for a connection from it. -/
private theorem Stood.of_splitTransition
    (stood : Stood cards connections connection.splitTransition) :
    ∃ other ∈ connections, ∃ ends, other.parties cards = .ok ends ∧
      other.handOver ends.source = connection.splitTransition := by
  have named := namesPlace_splitTransition connection
  have read : Family.read connection.splitTransition = .split :=
    Family.read_name (.split connection.source)
  obtain ⟨channel, fixture, stands⟩ := stood
  generalize connection.splitTransition = id at stands named read
  rcases stands with stands | stands
  · cases stands <;> simp at named
  · cases stands with
    | @call card => exact nomatch read.symm.trans (Family.read_name (.internal card))
    | handOver inside found => exact ⟨_, inside, _, found, rfl⟩
    | @transfer other => exact nomatch read.symm.trans (Family.read_name (.transfer other))

/-- The nodes of the other connections are those that stay. -/
private theorem stood_rest_iff (apart : SetApart cards laid) (member : connection ∈ laid)
    (found : connection.parties cards = .ok parties)
    (others : ∀ other, other ∈ rest ↔ other ∈ laid ∧ other ≠ connection) {id : String} :
    Stood cards rest id ↔ Stood cards laid id ∧ connection.Leaves parties cards rest id := by
  have stays : ∀ other, other ∈ laid → other ≠ connection → other ∈ rest :=
    fun other known differ => (others other).mpr ⟨known, differ⟩
  have place : namesPlace id = true → id ≠ connection.transfer ∧
      id ≠ connection.handOver parties.source := by
    intro named
    constructor <;> rintro rfl <;> simp at named
  have transition : namesPlace id = false → id ≠ connection.splitPlace := by
    rintro named rfl
    simp at named
  constructor
  · rintro ⟨channel, fixture, stands⟩
    have before := fun other inside => ((others other).mp inside).1
    refine ⟨⟨channel, fixture, stands.imp (.mono before) (.mono before)⟩, ?_⟩
    rcases stands with stands | stands
    · obtain ⟨transfer, handOver⟩ := place (by cases stands <;> simp)
      refine ⟨transfer, ?_, fun same => absurd same handOver⟩
      intro same
      have read := congrArg Family.read same
      cases stands with
      | relay inside =>
          obtain ⟨known, differ⟩ := (others _).mp inside
          exact differ (apart.relays _ known _ member same)
      | anchor | event | start => simp at read
    · have relay := transition (by cases stands <;> simp)
      cases stands with
      | @call card known =>
          exact ⟨card.internalTransition_ne_transfer connection, relay,
            fun same => absurd same (connection.internalTransition_ne_handOver parties.source card)⟩
      | handOver inside resolves =>
          exact ⟨(Connection.transfer_ne_handOver _ _ connection).symm, relay,
            fun same => ⟨_, inside, _, resolves, same⟩⟩
      | transfer inside =>
          obtain ⟨known, differ⟩ := (others _).mp inside
          exact ⟨fun same => differ (apart.transfers _ known _ member same), relay,
            fun same => absurd same (connection.transfer_ne_handOver parties.source _)⟩
  · rintro ⟨⟨channel, fixture, stands | stands⟩, leaves⟩
    · refine ⟨channel, fixture, .inl ?_⟩
      cases stands with
      | anchor known own kind => exact .anchor known own kind
      | event known own kind => exact .event known own kind
      | start known none => exact .start known none
      | @relay other _ known resolves =>
          refine .relay (stays other known ?_) resolves
          rintro rfl
          exact leaves.2.1 rfl
    · refine ⟨channel, fixture, .inr ?_⟩
      cases stands with
      | call known => exact .call known
      | @handOver other ends known resolves =>
          by_cases same : other = connection
          · subst same
            obtain rfl := Except.ok.inj (found.symm.trans resolves)
            obtain ⟨second, inside, others, further, shared⟩ := leaves.2.2 rfl
            exact shared ▸ .handOver inside further
          · exact .handOver (stays other known same) resolves
      | @transfer other _ known resolves =>
          refine .transfer (stays other known ?_) resolves
          rintro rfl
          exact leaves.1 rfl

/-- An arc leads from a node to a node, or it has to do with the place of an anchor. -/
private theorem Leads.ends {source target : String}
    (leads : Leads cards connections source target) :
    (Family.read source = .anchor ∨ Stood cards connections source) ∧
      (Family.read target = .anchor ∨ Stood cards connections target) := by
  cases leads with
  | begin known none =>
      exact ⟨.inr ⟨0, _, .inl (.start known none)⟩, .inr ⟨0, _, .inr (.call known)⟩⟩
  | input known => exact ⟨.inl (Family.read_place _), .inr ⟨0, _, .inr (.call known)⟩⟩
  | output known => exact ⟨.inr ⟨0, _, .inr (.call known)⟩, .inl (Family.read_place _)⟩
  | hand known found =>
      have ends := Connection.resolved_of_parties found
      refine ⟨?_, .inr ⟨0, _, .inr (.handOver known found)⟩⟩
      unfold Connection.sourcePlace
      split
      · next kind =>
          rw [ends.sourceEnd]
          exact .inr ⟨0, _, .inl (.event ends.sourceCard ends.source kind)⟩
      · exact .inl (Family.read_place _)
  | spread known found =>
      exact ⟨.inr ⟨0, _, .inr (.handOver known found)⟩, .inr ⟨0, _, .inl (.relay known found)⟩⟩
  | take known found =>
      exact ⟨.inr ⟨0, _, .inl (.relay known found)⟩, .inr ⟨0, _, .inr (.transfer known found)⟩⟩
  | bring known found =>
      exact ⟨.inr ⟨0, _, .inr (.transfer known found)⟩, .inl (Family.read_place _)⟩

/-- The arcs of the other connections are those between nodes that stay. -/
private theorem leads_rest_iff (apart : SetApart cards laid) (member : connection ∈ laid)
    (found : connection.parties cards = .ok parties)
    (others : ∀ other, other ∈ rest ↔ other ∈ laid ∧ other ≠ connection)
    {source target : String} : Leads cards rest source target ↔ Leads cards laid source target ∧
      connection.Leaves parties cards rest source ∧
        connection.Leaves parties cards rest target := by
  have stays : ∀ other, other ∈ laid → other ≠ connection → other ∈ rest :=
    fun other known differ => (others other).mpr ⟨known, differ⟩
  have left : ∀ {id}, Family.read id = .anchor ∨ Stood cards rest id →
      connection.Leaves parties cards rest id := fun either =>
    either.elim Connection.leaves_anchor fun stood =>
      ((stood_rest_iff apart member found others).mp stood).2
  constructor
  · intro leads
    exact ⟨leads.mono fun other inside => ((others other).mp inside).1, left leads.ends.1,
      left leads.ends.2⟩
  · rintro ⟨leads, leavesSource, leavesTarget⟩
    cases leads with
    | begin known none => exact .begin known none
    | input known input => exact .input known input
    | output known output => exact .output known output
    | @hand other ends known resolves =>
        by_cases same : other = connection
        · subst same
          obtain rfl := Except.ok.inj (found.symm.trans resolves)
          obtain ⟨second, inside, others, further, shared⟩ := leavesTarget.2.2 rfl
          rw [← shared, ← Connection.sourcePlace_eq further found
            (apart.source_eq further found shared)]
          exact .hand inside further
        · exact .hand (stays other known same) resolves
    | @spread other _ known resolves =>
        refine .spread (stays other known ?_) resolves
        rintro rfl
        exact leavesTarget.2.1 rfl
    | @take other _ known resolves =>
        refine .take (stays other known ?_) resolves
        rintro rfl
        exact leavesSource.2.1 rfl
    | @bring other _ known resolves =>
        refine .bring (stays other known ?_) resolves
        rintro rfl
        exact leavesSource.1 rfl

end

/-! ## Removing a connection -/

namespace Circuit

variable {net : Circuit}

/-- A transition goes alone. -/
private theorem hasNode_removeTransition (tidy : net.Tidy) {gone id : String}
    (named : namesPlace gone = false) :
    (net.removeTransition gone).2.hasNode id = true ↔ net.hasNode id = true ∧ id ≠ gone := by
  have place : id ∈ net.places.names → id ≠ gone := by
    rintro known rfl
    exact Bool.noConfusion ((tidy.place id known).symm.trans named)
  rw [Net.hasNode, Net.hasNode, Bool.or_eq_true, Bool.or_eq_true, Registry.contains_eq_true,
    Registry.contains_eq_true, Registry.contains_eq_true, Registry.contains_eq_true,
    Net.places_removeTransition, Net.transitions_removeTransition, Registry.names_erase,
    List.mem_filter, decide_eq_true_eq, or_and_right, and_iff_left_of_imp place]

private theorem hasNode_removePlace (tidy : net.Tidy) {gone id : String}
    (named : namesPlace gone = true) :
    (net.removePlace gone).2.hasNode id = true ↔ net.hasNode id = true ∧ id ≠ gone := by
  have transition : id ∈ net.transitions.names → id ≠ gone := by
    rintro known rfl
    exact Bool.noConfusion (named.symm.trans (tidy.transition id known))
  rw [Net.hasNode, Net.hasNode, Bool.or_eq_true, Bool.or_eq_true, Registry.contains_eq_true,
    Registry.contains_eq_true, Registry.contains_eq_true, Registry.contains_eq_true,
    Net.transitions_removePlace, Net.places_removePlace, Registry.names_erase, List.mem_filter,
    decide_eq_true_eq, or_and_right, and_iff_left_of_imp transition]

private theorem joins_of_erased {after : Circuit} (plain : net.Plain) (later : after.Plain)
    {gone : String} (arc : ∀ {name : String} {arc : Arc}, after.arcs.get? name = some arc ↔
      net.arcs.get? name = some arc ∧ arc.source ≠ gone ∧ arc.target ≠ gone)
    {source target : String} : after.Joins source target ↔
      net.Joins source target ∧ source ≠ gone ∧ target ≠ gone := by
  have listed : ∀ {net : Circuit}, net.Plain → (net.Joins source target ↔
      net.arcs.get? (Arc.name ⟨source, target, 1⟩) = some ⟨source, target, 1⟩) := by
    intro net plain
    rw [plain.indexed.get?_eq_some_iff, and_iff_left rfl]
    rfl
  rw [listed later, listed plain, arc]

/-- The arcs of a circuit without a transition. -/
private theorem joins_removeTransition (tidy : net.Tidy) {gone : String}
    (known : gone ∈ net.transitions.names) {source target : String} :
    (net.removeTransition gone).2.Joins source target ↔
      net.Joins source target ∧ source ≠ gone ∧ target ≠ gone :=
  joins_of_erased tidy.plain (tidy.plain.removeTransition gone)
    (Net.arc_removeTransition tidy.plain known)

private theorem joins_removePlace (tidy : net.Tidy) {gone : String}
    (known : gone ∈ net.places.names) {source target : String} :
    (net.removePlace gone).2.Joins source target ↔
      net.Joins source target ∧ source ≠ gone ∧ target ≠ gone :=
  joins_of_erased tidy.plain (tidy.plain.removePlace gone) (Net.arc_removePlace tidy.plain known)

private theorem removeTransition_of_absent {gone : String} (absent : gone ∉ net.transitions.names) :
    (net.removeTransition gone).2 = net := by
  rw [Net.removeTransition, Registry.get?_eq_none_iff.mpr absent]

private theorem removePlace_of_absent {gone : String} (absent : gone ∉ net.places.names) :
    (net.removePlace gone).2 = net := by
  rw [Net.removePlace, Net.place?, Registry.get?_eq_none_iff.mpr absent]

private theorem hasNode_of_transition {id : String} (known : id ∈ net.transitions.names) :
    net.hasNode id = true := by
  rw [Net.hasNode, Registry.contains_eq_true.mpr known, Bool.or_true]

private theorem hasNode_of_place {id : String} (known : id ∈ net.places.names) :
    net.hasNode id = true := by
  rw [Net.hasNode, Registry.contains_eq_true.mpr known, Bool.true_or]

theorem Tidy.mem_transitions (tidy : net.Tidy) {id : String} (known : net.hasNode id = true)
    (named : namesPlace id = false) : id ∈ net.transitions.names := by
  rw [Net.hasNode, Bool.or_eq_true, Registry.contains_eq_true, Registry.contains_eq_true] at known
  exact known.resolve_left fun place => Bool.noConfusion ((tidy.place id place).symm.trans named)

theorem Tidy.mem_places (tidy : net.Tidy) {id : String} (known : net.hasNode id = true)
    (named : namesPlace id = true) : id ∈ net.places.names := by
  rw [Net.hasNode, Bool.or_eq_true, Registry.contains_eq_true, Registry.contains_eq_true] at known
  exact known.resolve_right fun other =>
    Bool.noConfusion (named.symm.trans (tidy.transition id other))

namespace Serves

variable {laid rest : List Connection} {connection : Connection} {parties : Connection.Parties}
  (serves : net.Serves cards laid) (apart : SetApart cards laid)
  (others : ∀ other, other ∈ rest ↔ other ∈ laid ∧ other ≠ connection)

include serves

/-- What hands on from an anchor leads somewhere. -/
private theorem outlet {other : Connection} {ends : Connection.Parties} (member : other ∈ laid)
    (found : other.parties cards = .ok ends) :
    (net.arcsFrom (other.handOver ends.source)).isEmpty = false := by
  have joined : net.Joins (other.handOver ends.source) other.splitPlace :=
    (serves.joins _ _).mpr (.spread member found)
  rw [Bool.eq_false_iff, ne_eq, List.isEmpty_iff]
  exact List.ne_nil_of_mem (serves.tidy.plain.indexed.mem_arcsFrom.mpr ⟨joined, rfl⟩)

/-- The arc between the nodes of an event is there for a connection that starts from the event. -/
private theorem event_of_connected {endpoint : Endpoint}
    (connected : net.isConnected endpoint.eventPlace endpoint.eventTransition = true) :
    ∃ other ∈ laid, ∃ ends, other.parties cards = .ok ends ∧ ends.source.kind = .event ∧
      other.source.eventPlace = endpoint.eventPlace := by
  obtain ⟨arc, listed, named⟩ := serves.tidy.plain.indexed.isConnected_iff.mp connected
  have joined : net.Joins arc.source arc.target := by
    rwa [Net.Joins, ← serves.tidy.plain.weight arc listed]
  exact ((serves.joins _ _).mp joined).event_of_text named

/-- A connection that is left out has nothing that could be taken out. -/
private theorem uprooted_of_left_out (apart : SetApart cards laid) (member : connection ∈ laid)
    (out : ∀ parties, connection.parties cards ≠ .ok parties) :
    net.uprooted connection = net ∧ net.silences connection = false := by
  have transfer : connection.transfer ∉ net.transitions.names := by
    intro known
    have read : Family.read connection.transfer = .transfer :=
      Family.read_name (.transfer connection)
    obtain ⟨other, inside, ⟨parties, found⟩, same⟩ :=
      ((serves.nodes _ (by rw [read]; decide)).mp (hasNode_of_transition known)).of_transfer
    exact out parties (apart.transfers _ inside _ member same ▸ found)
  have relay : connection.splitPlace ∉ net.places.names := by
    intro known
    obtain ⟨other, inside, ⟨parties, found⟩, same⟩ :=
      ((serves.nodes _ (by simp)).mp (hasNode_of_place known)).of_splitPlace
    exact out parties (apart.relays _ inside _ member same ▸ found)
  have bared : net.bared connection = net := by
    rw [Circuit.bared, removeTransition_of_absent transfer, removePlace_of_absent relay]
  unfold uprooted silences
  dsimp only
  rw [bared]
  by_cases events : net.handsEvents connection = true
  · obtain ⟨other, inside, ends, found, kind, same⟩ := serves.event_of_connected events
    have leads := serves.outlet inside found
    rw [Connection.handOver, if_pos kind, Endpoint.eventTransition_inj.mpr same] at leads
    rw [leading, if_pos events, leads]
    exact ⟨rfl, rfl⟩
  · rw [leading, if_neg events, Bool.eq_false_iff.mpr events, Bool.and_false]
    refine ⟨?_, rfl⟩
    split
    · next empty =>
        refine removeTransition_of_absent fun known => ?_
        have read : Family.read connection.splitTransition = .split :=
          Family.read_name (.split connection.source)
        obtain ⟨other, inside, ends, found, same⟩ :=
          Stood.of_splitTransition
            ((serves.nodes _ (by rw [read]; decide)).mp (hasNode_of_transition known))
        exact Bool.noConfusion ((serves.outlet inside found).symm.trans (same ▸ empty))
    · rfl

section

variable (member : connection ∈ laid) (found : connection.parties cards = .ok parties)

include member found

/-- A circuit without the transfer of a connection and the place before it. -/
private theorem nodes_bared : (∀ id, (net.bared connection).hasNode id = true ↔
      net.hasNode id = true ∧ id ≠ connection.transfer ∧ id ≠ connection.splitPlace) ∧
    ∀ source target, (net.bared connection).Joins source target ↔ net.Joins source target ∧
      (source ≠ connection.transfer ∧ source ≠ connection.splitPlace) ∧
        target ≠ connection.transfer ∧ target ≠ connection.splitPlace := by
  have read : Family.read connection.transfer = .transfer :=
    Family.read_name (.transfer connection)
  have transfer : connection.transfer ∈ net.transitions.names :=
    serves.tidy.mem_transitions ((serves.nodes _ (by rw [read]; decide)).mpr
      ⟨0, _, .inr (.transfer member found)⟩) (namesPlace_transfer connection)
  have relay :
      connection.splitPlace ∈ (net.removeTransition connection.transfer).2.places.names := by
    rw [Net.places_removeTransition]
    exact serves.tidy.mem_places ((serves.nodes _ (by simp)).mpr
      ⟨0, _, .inl (.relay member found)⟩) (namesPlace_splitPlace connection)
  have tidy := serves.tidy.removeTransition connection.transfer
  refine ⟨fun id => ?_, fun source target => ?_⟩
  · rw [bared, hasNode_removePlace tidy (namesPlace_splitPlace connection),
      hasNode_removeTransition serves.tidy (namesPlace_transfer connection), and_assoc]
  · rw [bared, joins_removePlace tidy relay, joins_removeTransition serves.tidy transfer,
      and_assoc, and_and_and_comm]

variable (apart : SetApart cards laid)

include apart

/-- Whether events are handed on from the source of a connection tells whether it is an event. -/
private theorem handsEvents_bared_iff :
    (net.bared connection).handsEvents connection = true ↔ parties.source.kind = .event := by
  have joins := (serves.nodes_bared member found).2
  have plain := (serves.tidy.bared connection).plain
  constructor
  · intro connected
    obtain ⟨arc, listed, named⟩ := plain.indexed.isConnected_iff.mp connected
    have joined : (net.bared connection).Joins arc.source arc.target := by
      rwa [Net.Joins, ← plain.weight arc listed]
    have leads := (serves.joins _ _).mp ((joins _ _).mp joined).1
    obtain ⟨other, inside, ends, resolves, kind, same⟩ := leads.event_of_text named
    have others := Connection.resolved_of_parties resolves
    by_contra differ
    refine apart.apart connection member parties found differ _ others.sourceCard _ others.source
      kind ?_
    rw [← others.sourceEnd, same]
  · intro kind
    have hand : Leads cards laid _ _ := .hand member found
    rw [Connection.sourcePlace, Connection.handOver, if_pos kind, if_pos kind] at hand
    have transfer := Connection.transfer_ne_handOver connection parties.source connection
    rw [Connection.handOver, if_pos kind] at transfer
    refine plain.indexed.isConnected_iff.mpr
      ⟨_, (joins _ _).mpr ⟨(serves.joins _ _).mpr hand, ⟨?_, ?_⟩, transfer.symm, ?_⟩, rfl⟩
    · intro same
      have named := congrArg namesPlace same
      simp at named
    · intro same
      have read := congrArg Family.read same
      simp at read
    · intro same
      have named := congrArg namesPlace same
      simp at named

private theorem leading_bared_eq :
    (net.bared connection).leading connection = connection.handOver parties.source := by
  have events := serves.handsEvents_bared_iff apart member found
  unfold leading Connection.handOver
  by_cases kind : parties.source.kind = .event
  · rw [if_pos (events.mpr kind), if_pos kind]
  · rw [if_neg (mt events.mp kind), if_neg kind]

include others

/-- Nothing is behind what hands on just when no other connection shares it. -/
private theorem isEmpty_bared_iff :
    ((net.bared connection).arcsFrom (connection.handOver parties.source)).isEmpty = true ↔
      ¬connection.Shares parties cards rest := by
  have joins := (serves.nodes_bared member found).2
  have plain := (serves.tidy.bared connection).plain
  rw [List.isEmpty_iff, List.eq_nil_iff_forall_not_mem, ← not_exists, not_iff_not]
  constructor
  · rintro ⟨arc, inside⟩
    obtain ⟨listed, start⟩ := plain.indexed.mem_arcsFrom.mp inside
    have joined : (net.bared connection).Joins arc.source arc.target := by
      rwa [Net.Joins, ← plain.weight arc listed]
    obtain ⟨before, -, -, relay⟩ := (joins _ _).mp joined
    rw [start] at before
    have leads := (serves.joins _ _).mp before
    generalize same : connection.handOver parties.source = split at leads
    generalize arc.target = target at leads relay
    cases leads with
    | @spread other ends known resolves =>
        refine ⟨other, (others other).mpr ⟨known, ?_⟩, ends, resolves, same.symm⟩
        rintro rfl
        exact relay rfl
    | output => exact absurd same.symm (Connection.internalTransition_ne_handOver _ _ _)
    | bring => exact absurd same.symm (Connection.transfer_ne_handOver _ _ _)
    | begin | input | hand | take =>
        have named := congrArg namesPlace same
        simp at named
  · rintro ⟨other, inside, ends, resolves, same⟩
    obtain ⟨known, differ⟩ := (others other).mp inside
    refine ⟨⟨connection.handOver parties.source, other.splitPlace, 1⟩,
      plain.indexed.mem_arcsFrom.mpr ⟨(joins _ _).mpr ⟨?_, ⟨?_, ?_⟩, ?_, ?_⟩, rfl⟩⟩
    · exact (serves.joins _ _).mpr (same ▸ .spread known resolves)
    · exact (Connection.transfer_ne_handOver _ _ connection).symm
    · intro touches
      have named := congrArg namesPlace touches
      simp at named
    · intro touches
      have named := congrArg namesPlace touches
      simp at named
    · exact fun touches => differ (apart.relays _ known _ member touches)

/-- Without a connection a circuit serves the other connections. -/
theorem uprooted : (net.uprooted connection).Serves cards rest := by
  have empty := serves.isEmpty_bared_iff apart others member found
  have leading := serves.leading_bared_eq apart member found
  obtain ⟨nodes, joins⟩ := serves.nodes_bared member found
  have tidy := serves.tidy.bared connection
  have spared : (∀ id, (net.uprooted connection).hasNode id = true ↔
      net.hasNode id = true ∧ connection.Leaves parties cards rest id) ∧
    ∀ source target, (net.uprooted connection).Joins source target ↔ net.Joins source target ∧
      connection.Leaves parties cards rest source ∧
        connection.Leaves parties cards rest target := by
    unfold Circuit.uprooted Connection.Leaves
    dsimp only
    rw [leading]
    by_cases shared : connection.Shares parties cards rest
    · rw [if_neg (mt empty.mp (not_not.mpr shared))]
      simp only [shared, imp_true_iff, and_true]
      exact ⟨nodes, joins⟩
    · have handOver :
          connection.handOver parties.source ∈ (net.bared connection).transitions.names := by
        refine tidy.mem_transitions ((nodes _).mpr ⟨?_, ?_, ?_⟩)
          (Connection.namesPlace_handOver _ _)
        · exact (serves.nodes _ (Family.read_handOver_ne _ _)).mpr
            ⟨0, _, .inr (.handOver member found)⟩
        · exact (Connection.transfer_ne_handOver _ _ connection).symm
        · intro same
          have named := congrArg namesPlace same
          simp at named
      rw [if_pos (empty.mpr shared)]
      refine ⟨fun id => ?_, fun source target => ?_⟩
      · rw [hasNode_removeTransition tidy (Connection.namesPlace_handOver _ _), nodes]
        simp only [shared, imp_false, and_assoc]
      · rw [joins_removeTransition tidy handOver, joins]
        simp only [shared, imp_false]
        tauto
  refine ⟨serves.tidy.uprooted connection, fun id other => ?_, fun source target => ?_⟩
  · rw [spared.1, serves.nodes id other, stood_rest_iff apart member found others]
  · rw [spared.2, serves.joins, leads_rest_iff apart member found others]

theorem silences_iff_last : net.silences connection = true ↔
    ¬connection.Shares parties cards rest ∧ parties.source.kind = .event := by
  rw [silences, serves.leading_bared_eq apart member found, Bool.and_eq_true,
    serves.isEmpty_bared_iff apart others member found,
    serves.handsEvents_bared_iff apart member found]

end

end Serves

end Circuit

section

variable {laid rest : List Connection} {connection : Connection} {parties : Connection.Parties}

/-- Fewer connections are told apart as well as all of them. -/
theorem SetApart.restrict (apart : SetApart cards known)
    (within : ∀ connection ∈ connections, connection ∈ known) : SetApart cards connections where
  toClearNames := apart.toClearNames.restrict within
  relays := fun first left second right =>
    apart.relays first (within first left) second (within second right)
  transfers := fun first left second right =>
    apart.transfers first (within first left) second (within second right)
  apart := fun connection member => apart.apart connection (within connection member)

/-- Without one of its connections a graph listens to the same events, but for the source of the
connection when no other connection shares what hands on from it. -/
private theorem heard_others_iff (clear : ClearNames cards laid)
    (found : connection.parties cards = .ok parties)
    (others : ∀ other, other ∈ rest ↔ other ∈ laid ∧ other ≠ connection) {place : String} :
    Heard cards rest place ↔ Heard cards laid place ∧
      (¬connection.Shares parties cards rest → parties.source.kind = .event →
        place ≠ connection.source.eventPlace) := by
  constructor
  · intro heard
    refine ⟨heard.mono fun other inside => ((others other).mp inside).1, ?_⟩
    obtain ⟨other, inside, ends, resolves, event, -, rfl⟩ := heard
    intro last kind same
    refine last ⟨other, inside, ends, resolves, ?_⟩
    rw [Connection.handOver, Connection.handOver, if_pos event, if_pos kind,
      Endpoint.eventTransition_inj, same]
  · rintro ⟨⟨other, known, ends, resolves, kind, listens, rfl⟩, kept⟩
    by_cases same : other = connection
    · subst same
      obtain rfl := Except.ok.inj (found.symm.trans resolves)
      obtain ⟨second, inside, joined, further, shared⟩ :=
        not_not.mp fun last => kept last kind rfl
      have start := clear.source_eq further found shared
      have anchors := Connection.source_of_parties further found start
      exact ⟨second, inside, joined, further, anchors ▸ kind, anchors ▸ listens, by rw [start]⟩
    · exact ⟨other, (others other).mpr ⟨known, same⟩, ends, resolves, kind, listens, rfl⟩

/-- A connection that is left out does not count. -/
private theorem left_out (out : ∀ parties, connection.parties cards ≠ .ok parties)
    (others : ∀ other, other ∈ rest ↔ other ∈ laid ∧ other ≠ connection) :
    (∀ {net : Circuit}, net.Serves cards laid → net.Serves cards rest) ∧
      ∀ place, Heard cards laid place ↔ Heard cards rest place := by
  have counts : ∀ {other : Connection} {ends}, other.parties cards = .ok ends →
      (other ∈ laid ↔ other ∈ rest) := by
    intro other ends found
    rw [others]
    refine ⟨fun known => ⟨known, ?_⟩, And.left⟩
    rintro rfl
    exact out ends found
  have same : ∀ edit, edit ∈ drafts cards laid 0 ↔ edit ∈ drafts cards rest 0 := by
    intro edit
    simp only [mem_drafts]
    refine or_congr_right ⟨?_, ?_⟩ <;> rintro ⟨other, inside, ends, found, brings⟩
    · exact ⟨other, (counts found).mp inside, ends, found, brings⟩
    · exact ⟨other, (counts found).mpr inside, ends, found, brings⟩
  refine ⟨fun serves => ⟨serves.tidy, fun id other => ?_, fun source target => ?_⟩, fun place => ?_⟩
  · rw [serves.nodes id other, ← exists_draft_iff 0 other, ← exists_draft_iff 0 other]
    simp only [same]
  · rw [serves.joins, ← arc_mem_drafts, same, arc_mem_drafts]
  · constructor <;> rintro ⟨other, inside, ends, found, told⟩
    · exact ⟨other, (counts found).mp inside, ends, found, told⟩
    · exact ⟨other, (counts found).mpr inside, ends, found, told⟩

end

namespace Bench

variable {bench after : Bench} {connection : Connection}

/-- A graph stays accounted for when a connection is taken out, also one that was left out. -/
theorem accounted_uproot (accounted : bench.graph.Accounted)
    (apart : SetApart bench.graph.cards known)
    (within : ∀ other ∈ bench.graph.connections.values, other ∈ known)
    (member : connection ∈ bench.graph.connections.values)
    (uprooted : Bench.uproot { bench with
      graph.connections := bench.graph.connections.erase connection.id } connection = after) :
    after.graph.Accounted ∧ ∀ other, other ∈ after.graph.connections.values ↔
      other ∈ bench.graph.connections.values ∧ other ≠ connection := by
  have here := apart.restrict within
  have others := Registry.mem_values_erase accounted.named within apart.connection
    (within connection member)
  have names := Registry.named_erase accounted.named connection.id
  rw [← uprooted, graph_uproot]
  cases resolves : connection.parties bench.graph.cards with
  | error reason =>
      have out : ∀ parties, connection.parties bench.graph.cards ≠ .ok parties := by
        rintro parties found
        cases resolves.symm.trans found
      obtain ⟨serves, heard⟩ := left_out out others
      obtain ⟨still, silent⟩ := accounted.net.uprooted_of_left_out here member out
      refine ⟨⟨?_, fun place => ?_, names⟩, others⟩
      · dsimp only
        rw [still]
        exact serves accounted.net
      · dsimp only
        rw [silent, ← heard]
        exact accounted.heard place
  | ok parties =>
      have silent := accounted.net.silences_iff_last here others member resolves
      refine ⟨⟨accounted.net.uprooted here others member resolves, fun place => ?_, names⟩, others⟩
      dsimp only
      rw [heard_others_iff here.toClearNames resolves others, ← accounted.heard]
      split
      · next last =>
          obtain ⟨alone, kind⟩ := silent.mp last
          rw [Registry.names_erase, List.mem_filter, decide_eq_true_eq, imp_iff_right alone,
            imp_iff_right kind]
      · next kept =>
          exact (and_iff_left fun alone kind => absurd (silent.mpr ⟨alone, kind⟩) kept).symm

end Bench

end CardNet
