import CardNet.Proofs.Graph.Access
import CardNet.Proofs.Graph.Assembly

/-!
# Adding and removing connections

A circuit that draws cards and connections draws one connection more after that is laid out
(`Bench.connect_draws`), and one less after it is taken out (`Bench.uproot_draws`): what only that
connection has brought in goes, and the split of an anchor stays as long as another connection
needs it.
-/

namespace CardNet

/-! ## Taking a node out -/

namespace Circuit.Shows

variable {net : Circuit} {cards : List Card} {connections : List Connection} {channel : Nat}
  {has : Part → Prop} {linked : Part → Part → Prop}

/-- When the node of a name is taken out together with the arcs that touch it, the circuit shows
what has other names. -/
private theorem detach (shows : net.Shows cards connections channel has linked) (id : String) :
    Circuit.Shows
      (Net.detach { net with
        places := net.places.erase id, transitions := net.transitions.erase id } id)
      cards connections channel (fun part => has part ∧ part.name ≠ id)
      (fun first second => linked first second ∧ first.name ≠ id ∧ second.name ≠ id) := by
  have indexed : Net.Indexed { net with
      places := net.places.erase id, transitions := net.transitions.erase id } :=
    shows.plain.indexed.congr rfl rfl rfl
  have arcs := Net.values_detach indexed id
  have contents : ∀ other, Net.content? (Net.detach { net with
      places := net.places.erase id, transitions := net.transitions.erase id } id) other =
        if other = id then none else net.content? other := by
    intro other
    simp only [Net.content?, Net.place?, Net.places_detach, Registry.get?_erase]
    split <;> rfl
  refine ⟨⟨indexed.detach id, ?_⟩, ?_, ?_, ?_, ?_, ?_, ?_, ?_, ?_⟩
  · intro arc member
    rw [arcs] at member
    exact shows.plain.weight arc (List.mem_filter.mp member).1
  · intro other place transition
    rw [Net.places_detach, Registry.names_erase] at place
    rw [Net.transitions_detach, Registry.names_erase] at transition
    exact shows.apart other (List.mem_filter.mp place).1 (List.mem_filter.mp transition).1
  · exact fun part inside => shows.present part inside.1
  · exact fun first second link => shows.links first second link.1
  · rintro first second ⟨link, left, right⟩
    obtain ⟨one, two⟩ := shows.ends first second link
    exact ⟨⟨one, left⟩, two, right⟩
  · intro other place
    rw [Net.places_detach, Registry.names_erase, List.mem_filter] at place
    obtain ⟨content, found⟩ := shows.filled other place.1
    exact ⟨content, by rw [contents, if_neg (of_decide_eq_true place.2), found]⟩
  · intro other content
    rw [contents]
    constructor
    · intro found
      split at found
      · cases found
      · next differ =>
          obtain ⟨part, inside, rfl, holds⟩ := (shows.place other content).mp found
          exact ⟨part, ⟨inside, differ⟩, rfl, holds⟩
    · rintro ⟨part, ⟨inside, differ⟩, rfl, holds⟩
      rw [if_neg differ]
      exact (shows.place _ content).mpr ⟨part, inside, rfl, holds⟩
  · intro other action
    rw [Net.transitions_detach, Registry.get?_erase]
    constructor
    · intro found
      split at found
      · cases found
      · next differ =>
          obtain ⟨part, inside, rfl, acts⟩ := (shows.transition other action).mp found
          exact ⟨part, ⟨inside, differ⟩, rfl, acts⟩
    · rintro ⟨part, ⟨inside, differ⟩, rfl, acts⟩
      rw [if_neg differ]
      exact (shows.transition _ action).mpr ⟨part, inside, rfl, acts⟩
  · intro source target
    have left : Net.Joins (Net.detach { net with
        places := net.places.erase id, transitions := net.transitions.erase id } id) source target ↔
          net.Joins source target ∧ source ≠ id ∧ target ≠ id := by
      rw [Net.Joins, arcs, List.mem_filter, decide_eq_true_eq]
      rfl
    rw [left, shows.arc]
    constructor
    · rintro ⟨⟨first, second, link, rfl, rfl⟩, one, two⟩
      exact ⟨first, second, ⟨link, one, two⟩, rfl, rfl⟩
    · rintro ⟨first, second, ⟨link, one, two⟩, rfl, rfl⟩
      exact ⟨⟨first, second, link, rfl, rfl⟩, one, two⟩

private theorem unnamed (shows : net.Shows cards connections channel has linked) {id : String}
    (place : id ∉ net.places.names) (transition : id ∉ net.transitions.names) :
    net.Shows cards connections channel (fun part => has part ∧ part.name ≠ id)
      (fun first second => linked first second ∧ first.name ≠ id ∧ second.name ≠ id) := by
  have other : ∀ part, has part → part.name ≠ id := by
    rintro part inside rfl
    cases kind : part.isPlace with
    | true => exact place (shows.mem_places.mpr ⟨part, inside, rfl, kind⟩)
    | false => exact transition (shows.mem_transitions.mpr ⟨part, inside, rfl, kind⟩)
  refine shows.congr (fun part => ⟨fun inside => ⟨inside, other part inside⟩, And.left⟩) ?_
  refine fun first second => ⟨fun link => ?_, And.left⟩
  obtain ⟨left, right⟩ := shows.ends first second link
  exact ⟨link, other first left, other second right⟩

theorem not_mem_places (shows : net.Shows cards connections channel has linked) (part : Part)
    (transition : part.isPlace = false) : part.name ∉ net.places.names := by
  intro inside
  obtain ⟨other, -, same, place⟩ := shows.mem_places.mp inside
  rw [Part.isPlace_eq_of_name same, transition] at place
  cases place

theorem not_mem_transitions (shows : net.Shows cards connections channel has linked) (part : Part)
    (place : part.isPlace = true) : part.name ∉ net.transitions.names := by
  intro inside
  obtain ⟨other, -, same, transition⟩ := shows.mem_transitions.mp inside
  rw [Part.isPlace_eq_of_name same, place] at transition
  cases transition

/-- Without the transition of a name the circuit shows what has other names. -/
theorem removeTransition (shows : net.Shows cards connections channel has linked) {id : String}
    (place : id ∉ net.places.names) :
    Circuit.Shows (net.removeTransition id).2 cards connections channel
      (fun part => has part ∧ part.name ≠ id)
      (fun first second => linked first second ∧ first.name ≠ id ∧ second.name ≠ id) := by
  unfold Net.removeTransition
  split
  · next absent => exact shows.unnamed place (Registry.get?_eq_none_iff.mp absent)
  · have whole := shows.detach id
    rwa [Registry.erase_of_not_mem place] at whole

/-- Without the place of a name the circuit shows what has other names. -/
theorem removePlace (shows : net.Shows cards connections channel has linked) {id : String}
    (transition : id ∉ net.transitions.names) :
    Circuit.Shows (net.removePlace id).2 cards connections channel
      (fun part => has part ∧ part.name ≠ id)
      (fun first second => linked first second ∧ first.name ≠ id ∧ second.name ≠ id) := by
  unfold Net.removePlace
  split
  · next absent => exact shows.unnamed (Registry.get?_eq_none_iff.mp absent) transition
  · have whole := shows.detach id
    rwa [Registry.erase_of_not_mem transition] at whole

end Circuit.Shows

/-! ## Connections that stay -/

section

variable {cards : List Card} {connections laid : List Connection} {connection : Connection}

/-- A part of a graph without a connection is none of those that stand for it alone. -/
private theorem Present.spared (distinct : DistinctNames cards connections)
    (known : ∀ other ∈ laid, other ∈ connections) (member : connection ∈ connections)
    {part : Part} (present : Present cards (laid.filter (· ≠ connection)) part) :
    Present cards laid part ∧ part.name ≠ connection.transfer ∧
      part.name ≠ connection.splitPlace := by
  have differs : ∀ left : Part, part.family ≠ left.family → part.name ≠ left.name :=
    fun _ families same => families (Part.family_eq_of_name same)
  have transfer : part.family ≠ .transfer → part.name ≠ connection.transfer :=
    differs (.transfer connection)
  have relay : part.family ≠ .relay → part.name ≠ connection.splitPlace :=
    differs (.relay connection)
  have stays : ∀ {other}, other ∈ laid.filter (· ≠ connection) →
      other ∈ laid ∧ other ≠ connection := fun inside =>
    ⟨(List.mem_filter.mp inside).1, of_decide_eq_true (List.mem_filter.mp inside).2⟩
  cases present with
  | anchor card slot kind =>
      exact ⟨.anchor card slot kind, transfer nofun, relay nofun⟩
  | event card slot kind => exact ⟨.event card slot kind, transfer nofun, relay nofun⟩
  | start card none => exact ⟨.start card none, transfer nofun, relay nofun⟩
  | internal card => exact ⟨.internal card, transfer nofun, relay nofun⟩
  | split inside wires =>
      exact ⟨.split (stays inside).1 wires, transfer nofun, relay nofun⟩
  | relay inside wires =>
      refine ⟨.relay (stays inside).1 wires, transfer nofun, fun same => (stays inside).2 ?_⟩
      exact distinct.relay _ (known _ (stays inside).1) _ member same
  | transfer inside wires =>
      refine ⟨.transfer (stays inside).1 wires, fun same => (stays inside).2 ?_, relay nofun⟩
      exact distinct.transfer _ (known _ (stays inside).1) _ member same

/-- What is left of a graph without the parts that stand for a connection alone is the graph
without the connection, perhaps with a split that nothing needs any more. -/
private theorem Present.without {part : Part} (present : Present cards laid part)
    (transfer : part.name ≠ connection.transfer) (relay : part.name ≠ connection.splitPlace) :
    Present cards (laid.filter (· ≠ connection)) part ∨ part = .split connection.source := by
  have stays : ∀ {other}, other ∈ laid → other ≠ connection →
      other ∈ laid.filter (· ≠ connection) := fun inside differ =>
    List.mem_filter.mpr ⟨inside, decide_eq_true differ⟩
  cases present with
  | anchor card slot kind => exact .inl (.anchor card slot kind)
  | event card slot kind => exact .inl (.event card slot kind)
  | start card none => exact .inl (.start card none)
  | internal card => exact .inl (.internal card)
  | @split other _ inside wires =>
      by_cases same : other = connection
      · exact .inr (by rw [same])
      · exact .inl (.split (stays inside same) wires)
  | relay inside wires =>
      exact .inl (.relay (stays inside fun same => relay (by rw [← same]; rfl)) wires)
  | transfer inside wires =>
      exact .inl (.transfer (stays inside fun same => transfer (by rw [← same]; rfl)) wires)

private theorem Linked.mono {more : List Connection} {first second : Part}
    (linked : Linked cards laid first second) (grown : ∀ other ∈ laid, other ∈ more) :
    Linked cards more first second := by
  cases linked with
  | start card none => exact .start card none
  | input card slot => exact .input card slot
  | output card slot => exact .output card slot
  | hand inside wires => exact .hand (grown _ inside) wires
  | spread inside wires => exact .spread (grown _ inside) wires
  | take inside wires => exact .take (grown _ inside) wires
  | bring inside wires => exact .bring (grown _ inside) wires

private theorem Linked.without {first second : Part} (linked : Linked cards laid first second)
    (left : first.name ≠ connection.transfer) (relay : first.name ≠ connection.splitPlace)
    (right : second.name ≠ connection.splitPlace) :
    Linked cards (laid.filter (· ≠ connection)) first second ∨
      second = .split connection.source := by
  have stays : ∀ {other}, other ∈ laid → other ≠ connection →
      other ∈ laid.filter (· ≠ connection) := fun inside differ =>
    List.mem_filter.mpr ⟨inside, decide_eq_true differ⟩
  cases linked with
  | start card none => exact .inl (.start card none)
  | input card slot => exact .inl (.input card slot)
  | output card slot => exact .inl (.output card slot)
  | @hand other _ inside wires =>
      by_cases same : other = connection
      · exact .inr (by rw [same])
      · exact .inl (.hand (stays inside same) wires)
  | spread inside wires =>
      exact .inl (.spread (stays inside fun same => right (by rw [← same]; rfl)) wires)
  | take inside wires =>
      exact .inl (.take (stays inside fun same => relay (by rw [← same]; rfl)) wires)
  | bring inside wires =>
      exact .inl (.bring (stays inside fun same => left (by rw [← same]; rfl)) wires)

/-- Connections from one endpoint start from one anchor. -/
private theorem Connection.Wires.source_eq (distinct : DistinctNames cards connections)
    {first second : Connection} {one two : Connection.Parties} (left : first.Wires cards one)
    (right : second.Wires cards two) (same : first.source = second.source) :
    one.sourceCard = two.sourceCard ∧ one.source = two.source := by
  have ends := left.resolved
  have others := right.resolved
  refine distinct.anchor _ ends.sourceCard _ ends.source _ others.sourceCard _ others.source ?_
  rw [Card.anchorPlace, if_neg left.source, Card.anchorPlace, if_neg right.source,
    ← ends.sourceEnd, ← others.sourceEnd, same]

end

/-! ## Adding and removing -/

namespace Circuit.Draws

variable {net : Circuit} {cards : List Card} {connections laid : List Connection} {channel : Nat}
  {connection : Connection}

/-- Without what stands for a connection alone, and without the split of its anchor when nothing
is behind it any more, a circuit draws one connection less. -/
private theorem without (draws : net.Draws cards connections channel laid)
    (distinct : DistinctNames cards connections) (known : ∀ other ∈ laid, other ∈ connections)
    (member : connection ∈ connections) {bared : Circuit}
    (shows : bared.Shows cards connections channel
      (fun part => Present cards laid part ∧ part.name ≠ connection.transfer ∧
        part.name ≠ connection.splitPlace)
      (fun first second => Linked cards laid first second ∧
        (first.name ≠ connection.transfer ∧ second.name ≠ connection.transfer) ∧
        first.name ≠ connection.splitPlace ∧ second.name ≠ connection.splitPlace)) :
    Circuit.Draws
      (if (bared.arcsFrom connection.splitTransition).isEmpty
        then (bared.removeTransition connection.splitTransition).2 else bared)
      cards connections channel (laid.filter (· ≠ connection)) := by
  have fewer : ∀ other ∈ laid.filter (· ≠ connection), other ∈ laid := fun other inside =>
    (List.mem_filter.mp inside).1
  have link : ∀ {first second}, Linked cards (laid.filter (· ≠ connection)) first second →
      Linked cards laid first second ∧
        (first.name ≠ connection.transfer ∧ second.name ≠ connection.transfer) ∧
        first.name ≠ connection.splitPlace ∧ second.name ≠ connection.splitPlace := by
    intro first second linked
    obtain ⟨-, one, two⟩ := linked.left.spared distinct known member
    obtain ⟨-, three, four⟩ := linked.right.spared distinct known member
    exact ⟨linked.mono fewer, ⟨one, three⟩, two, four⟩
  -- A split of a connection that stays still leads somewhere.
  have leads : ∀ {other : Connection} {parties : Connection.Parties},
      other ∈ laid.filter (· ≠ connection) → other.Wires cards parties →
        bared.Joins (Part.split other.source).name (Part.relay other).name :=
    fun inside wires => (shows.arc _ _).mpr ⟨_, _, link (.spread inside wires), rfl, rfl⟩
  by_cases bare : (bared.arcsFrom connection.splitTransition).isEmpty
  · rw [if_pos bare]
    have idle := (shows.plain.arcsFrom_eq_nil).mp (List.isEmpty_iff.mp bare)
    have other : ∀ part, Present cards (laid.filter (· ≠ connection)) part →
        part.name ≠ connection.splitTransition := by
      intro part present same
      have family : part.family = (Part.split connection.source).family :=
        Part.family_eq_of_name same
      cases present with
      | split inside wires => exact idle _ (same ▸ leads inside wires)
      | _ => cases family
    have place : connection.splitTransition ∉ bared.places.names :=
      shows.not_mem_places (.split connection.source) rfl
    refine (shows.removeTransition place).congr (fun part => ⟨?_, fun present => ?_⟩)
      (fun first second => ⟨?_, fun linked => ?_⟩)
    · rintro ⟨⟨present, transfer, relay⟩, named⟩
      exact (present.without transfer relay).resolve_right fun same => named (by rw [same]; rfl)
    · exact ⟨present.spared distinct known member, other part present⟩
    · rintro ⟨⟨linked, transfer, relay⟩, -, named⟩
      exact (linked.without transfer.1 relay.1 relay.2).resolve_right
        fun same => named (by rw [same]; rfl)
    · exact ⟨link linked, other _ linked.left, other _ linked.right⟩
  · rw [if_neg bare]
    obtain ⟨target, joined⟩ : ∃ target, bared.Joins connection.splitTransition target := by
      by_contra none
      exact bare (List.isEmpty_iff.mpr ((shows.plain.arcsFrom_eq_nil).mpr fun target joined =>
        none ⟨target, joined⟩))
    -- The split is that of a connection that stays.
    obtain ⟨first, second, ⟨linked, transfer, relay⟩, named, -⟩ := (shows.arc _ _).mp joined
    have family : first.family = (Part.split connection.source).family :=
      Part.family_eq_of_name named
    obtain ⟨other, parties, inside, wires, rfl⟩ : ∃ (other : Connection)
        (parties : Connection.Parties), other ∈ laid.filter (· ≠ connection) ∧
          other.Wires cards parties ∧ first = .split other.source := by
      rcases linked.without transfer.1 relay.1 relay.2 with left | rfl
      · cases left with
        | spread inside wires => exact ⟨_, _, inside, wires, rfl⟩
        | _ => cases family
      · obtain ⟨_, _, _, _, _, rfl⟩ := linked.into_split
        cases family
    have split : Present cards (laid.filter (· ≠ connection)) (.split other.source) :=
      .split inside wires
    have source : ∀ part, Present cards laid part → part = .split connection.source →
        part = .split other.source := fun part present same =>
      Part.eq_of_name distinct (draws.present _ present) (draws.present _ (split.spared distinct
        known member).1) (by rw [same]; exact named.symm)
    refine shows.congr (fun part => ⟨?_, fun present => present.spared distinct known member⟩)
      (fun first second => ⟨?_, fun linked => link linked⟩)
    · rintro ⟨present, transfer, relay⟩
      rcases present.without transfer relay with left | same
      · exact left
      · exact source part present same ▸ split
    · rintro ⟨linked, transfer, relay⟩
      rcases linked.without transfer.1 relay.1 relay.2 with left | same
      · exact left
      · obtain rfl := source second linked.right same
        obtain ⟨giver, -, ends, gives, from', rfl⟩ := linked.into_split
        obtain ⟨card, slot⟩ := Connection.Wires.source_eq distinct gives wires from'
        rw [card, slot]
        exact .hand inside wires

end Circuit.Draws

/-- No arc goes under the name of an arc from a place that collects events. -/
private theorem Circuit.Shows.not_isConnected_event {net : Circuit} {cards : List Card}
    {connections : List Connection} {channel : Nat} {has : Part → Prop}
    {linked : Part → Part → Prop} (shows : net.Shows cards connections channel has linked)
    (endpoint : Endpoint) (target : String) :
    net.isConnected endpoint.eventPlace target = false := by
  rw [Bool.eq_false_iff]
  intro connected
  obtain ⟨arc, member, named⟩ := (shows.plain.indexed.isConnected_iff).mp connected
  have joined : net.Joins arc.source arc.target := by
    rw [Net.Joins, ← shows.plain.eq_of_mem member]
    exact member
  obtain ⟨first, second, link, source, -⟩ := (shows.arc _ _).mp joined
  have left : Family.read (arcName arc.source arc.target) = first.family := by
    rw [← source, first.name_eq, arcName, String.append_assoc, String.append_assoc,
      Family.read_append]
  have right : Family.read (arcName endpoint.eventPlace target) = .event := by
    rw [show endpoint.eventPlace = Family.event.beginning ++ endpoint.card ++ "_" ++ endpoint.anchor
      from rfl, arcName, String.append_assoc, String.append_assoc, String.append_assoc,
      String.append_assoc, Family.read_append]
  have family : first.family = .event := by
    rw [← left, ← right]
    exact congrArg Family.read named
  cases shows.links first second link with
  | _ => cases family

namespace Bench

variable {bench : Bench} {cards : List Card} {connections laid : List Connection}
  {connection : Connection}

/-- A connection that is added is drawn afterwards. -/
theorem connect_draws (draws : bench.graph.net.Draws cards connections bench.graph.channel laid)
    (distinct : DistinctNames cards connections) (quiet : Eventless cards connections)
    (known : ∀ other ∈ laid, other ∈ connections) (member : connection ∈ connections)
    (held : bench.graph.cards = cards) :
    ∃ net warnings, bench.connect connection = (.ok connection.id, bench.relaid net
        (bench.graph.connections.insert connection.id connection) warnings) ∧
      Circuit.Draws net cards connections bench.graph.channel (connection :: laid) := by
  obtain ⟨net, connects, shows⟩ := connect_eq draws distinct member (quiet connection member)
  obtain ⟨warnings, connected⟩ := connects bench rfl held rfl
  have before : Eventless cards laid := fun other inside => quiet other (known other inside)
  have after : Eventless cards (connection :: laid) := fun other inside =>
    quiet other ((List.mem_cons.mp inside).elim (fun same => same ▸ member) (known other))
  refine ⟨net, warnings, connected, shows.congr (fun part => ?_) fun first second => ?_⟩
  · rw [← mem_allItems_part before, ← mem_allItems_part after, allItems, allItems,
      List.flatMap_cons, List.append_assoc, List.mem_append (s := connection.allItems cards),
      or_comm]
  · rw [← mem_allItems_link before, ← mem_allItems_link after, allItems, allItems,
      List.flatMap_cons, List.append_assoc, List.mem_append (s := connection.allItems cards),
      or_comm]

/-- A connection that is taken out is not drawn afterwards. -/
theorem uproot_draws (bench : Bench) (draws : bench.graph.net.Draws cards connections bench.graph.channel laid)
    (distinct : DistinctNames cards connections) (known : ∀ other ∈ laid, other ∈ connections)
    (member : connection ∈ connections) :
    ∃ net : Circuit, bench.uproot connection = { bench with graph.net := net } ∧
      net.Draws cards connections bench.graph.channel (laid.filter (· ≠ connection)) := by
  have bared := draws.removeTransition (draws.not_mem_places (.transfer connection) rfl)
  have bared := bared.removePlace (bared.not_mem_transitions (.relay connection) rfl)
  have bared := bared.congr (fun part => and_assoc) fun first second => and_assoc
  have fewer := draws.without distinct known member bared
  have quiet : Net.isConnected
      ((bench.graph.net.removeTransition connection.transfer).2.removePlace
        connection.splitPlace).2
      connection.source.eventPlace connection.source.eventTransition = false :=
    bared.not_isConnected_event connection.source connection.source.eventTransition
  simp only [uproot, quiet, Bool.false_eq_true, if_false]
  split at fewer
  · next idle => exact ⟨_, if_pos idle, fewer⟩
  · next needed => exact ⟨_, if_neg needed, fewer⟩

end Bench

end CardNet
