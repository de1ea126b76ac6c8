import CardNet.Graph.Build
import CardNet.Proofs.Graph.Parts
import CardNet.Proofs.Net.Tokens

/-!
# Laying circuits out

A circuit shows parts and links when its nodes and arcs are just those that the parts and links
stand for (`Circuit.Shows`). Every edit of a blueprint brings in one part or one link
(`Item.edit`), and as long as names are distinct no edit fails: after it the circuit shows the
part or link as well (`Circuit.Shows.apply_part`, `Circuit.Shows.apply_link`). So a blueprint
whose links come after the parts that they join can be laid out as a whole
(`Circuit.Shows.applyAll`).
-/

namespace CardNet

namespace Part

variable {cards : List Card} {connections : List Connection} {channel : Nat} {part : Part}

theorem action?_of_isPlace (place : part.isPlace = true) : part.action? cards channel = none := by
  cases part <;> first | rfl | cases place

/-- A part is a place or a transition. -/
theorem exists_action? (present : Present cards connections part)
    (transition : part.isPlace = false) : ∃ action, part.action? cards channel = some action := by
  cases present with
  | internal member => exact ⟨_, rfl⟩
  | split member wires => exact ⟨_, rfl⟩
  | transfer member wires => exact ⟨_, by rw [action?, wires.found]; rfl⟩
  | _ => cases transition

end Part

theorem Linked.isPlace_ne {cards : List Card} {connections : List Connection}
    {first second : Part} (linked : Linked cards connections first second) :
    first.isPlace ≠ second.isPlace := by
  cases linked <;> simp [Part.isPlace, Part.content?]

/-- A circuit whose nodes and arcs are just those of some parts and links. -/
structure Circuit.Shows (net : Circuit) (cards : List Card) (connections : List Connection)
    (channel : Nat) (has : Part → Prop) (linked : Part → Part → Prop) : Prop where
  plain : net.Plain
  apart : ∀ id ∈ net.places.names, id ∉ net.transitions.names
  present : ∀ part, has part → Present cards connections part
  links : ∀ first second, linked first second → Linked cards connections first second
  ends : ∀ first second, linked first second → has first ∧ has second
  filled : ∀ id ∈ net.places.names, ∃ content, net.content? id = some content
  place : ∀ id content, net.content? id = some content ↔
    ∃ part, has part ∧ part.name = id ∧ part.content? = some content
  transition : ∀ id action, net.transitions.get? id = some action ↔
    ∃ part, has part ∧ part.name = id ∧ part.action? cards channel = some action
  arc : ∀ source target, net.Joins source target ↔
    ∃ first second, linked first second ∧ first.name = source ∧ second.name = target

namespace Circuit.Shows

variable {net : Circuit} {cards : List Card} {connections : List Connection} {channel : Nat}
  {has : Part → Prop} {linked : Part → Part → Prop}

theorem congr (shows : net.Shows cards connections channel has linked)
    {has' : Part → Prop} {linked' : Part → Part → Prop} (parts : ∀ part, has part ↔ has' part)
    (links : ∀ first second, linked first second ↔ linked' first second) :
    net.Shows cards connections channel has' linked' := by
  obtain rfl : has = has' := funext fun part => propext (parts part)
  obtain rfl : linked = linked' := funext fun first => funext fun second =>
    propext (links first second)
  exact shows

theorem mem_places (shows : net.Shows cards connections channel has linked) {id : String} :
    id ∈ net.places.names ↔ ∃ part, has part ∧ part.name = id ∧ part.isPlace = true := by
  constructor
  · intro member
    obtain ⟨content, held⟩ := shows.filled id member
    obtain ⟨part, inside, named, same⟩ := (shows.place id content).mp held
    exact ⟨part, inside, named, by rw [Part.isPlace, same]; rfl⟩
  · rintro ⟨part, inside, named, place⟩
    obtain ⟨content, same⟩ := Option.isSome_iff_exists.mp place
    have held := (shows.place id content).mpr ⟨part, inside, named, same⟩
    rw [Net.content?, Option.bind_eq_some_iff] at held
    obtain ⟨entry, found, -⟩ := held
    exact Registry.mem_names_of_get? found

theorem mem_transitions (shows : net.Shows cards connections channel has linked)
    {id : String} :
    id ∈ net.transitions.names ↔ ∃ part, has part ∧ part.name = id ∧ part.isPlace = false := by
  constructor
  · intro member
    obtain ⟨action, found⟩ := Registry.exists_get?_of_mem_names member
    obtain ⟨part, inside, named, same⟩ := (shows.transition id action).mp found
    refine ⟨part, inside, named, (Bool.not_eq_true _).mp fun place => ?_⟩
    rw [Part.action?_of_isPlace place] at same
    cases same
  · rintro ⟨part, inside, named, transition⟩
    obtain ⟨action, same⟩ := Part.exists_action? (shows.present part inside)
      transition
    exact Registry.mem_names_of_get? ((shows.transition id action).mpr ⟨part, inside, named, same⟩)

/-- An arc leads from a place to a transition or the other way. -/
theorem joins_cases (shows : net.Shows cards connections channel has linked)
    {source target : String} (joined : net.Joins source target) :
    source ∈ net.places.names ∧ target ∈ net.transitions.names ∨
      source ∈ net.transitions.names ∧ target ∈ net.places.names := by
  obtain ⟨first, second, link, rfl, rfl⟩ := (shows.arc source target).mp joined
  obtain ⟨left, right⟩ := shows.ends first second link
  have differ := (shows.links first second link).isPlace_ne
  rw [shows.mem_places, shows.mem_transitions, shows.mem_transitions, shows.mem_places]
  cases place : first.isPlace with
  | true =>
      rw [place, ne_comm, ne_eq, Bool.not_eq_true] at differ
      exact .inl ⟨⟨first, left, rfl, place⟩, second, right, rfl, differ⟩
  | false =>
      rw [place, ne_comm, ne_eq, Bool.not_eq_false] at differ
      exact .inr ⟨⟨first, left, rfl, place⟩, second, right, rfl, differ⟩

/-- An arc leads from one node to another one. -/
theorem joins_spec (shows : net.Shows cards connections channel has linked)
    {source target : String} (joined : net.Joins source target) :
    source ≠ target ∧ target ∈ net.nodes := by
  rcases shows.joins_cases joined with ⟨place, transition⟩ | ⟨transition, place⟩
  · refine ⟨?_, List.mem_append_right _ transition⟩
    rintro rfl
    exact shows.apart _ place transition
  · refine ⟨?_, List.mem_append_left _ place⟩
    rintro rfl
    exact shows.apart _ place transition

theorem nodup_nodes (shows : net.Shows cards connections channel has linked) :
    net.nodes.Nodup := by
  refine List.nodup_append.mpr ⟨net.places.nodup_names, net.transitions.nodup_names, ?_⟩
  rintro place left transition right rfl
  exact shows.apart place left right

/-- A circuit without nodes shows nothing. -/
theorem blank (name : String) (cards : List Card) (connections : List Connection)
    (channel : Nat) :
    Circuit.Shows ⟨name, .empty, .empty, .empty, .empty, .empty⟩ cards connections channel
      (fun _ => False) (fun _ _ => False) where
  plain := ⟨.blank name, by simp⟩
  apart := by simp
  present := fun _ absurd => absurd.elim
  links := fun _ _ absurd => absurd.elim
  ends := fun _ _ absurd => absurd.elim
  filled := by simp
  place := by simp [Net.content?, Net.place?]
  transition := by simp
  arc := by simp [Net.Joins]

/-- Tokens do not matter for what a circuit shows. -/
theorem of_bare (shows : net.Shows cards connections channel has linked) {other : Circuit}
    (same : net.bare = other.bare) : other.Shows cards connections channel has linked where
  plain := shows.plain.of_bare same
  apart := by
    rw [← Net.placeNames_of_bare same, ← Net.transitions_of_bare same]
    exact shows.apart
  present := shows.present
  links := shows.links
  ends := shows.ends
  filled := by
    rw [← Net.placeNames_of_bare same, ← Net.content?_of_bare same]
    exact shows.filled
  place := Net.content?_of_bare same ▸ shows.place
  transition := Net.transitions_of_bare same ▸ shows.transition
  arc := Net.joins_of_bare same ▸ shows.arc

variable {part : Part}

/-- A part that is not shown has a free name. -/
theorem not_hasNode (shows : net.Shows cards connections channel has linked)
    (distinct : DistinctNames cards connections) (present : Present cards connections part)
    (absent : ¬has part) : net.hasNode part.name = false := by
  rw [Net.hasNode, Bool.or_eq_false_iff, ← Bool.not_eq_true, ← Bool.not_eq_true,
    Registry.contains_eq_true, Registry.contains_eq_true, shows.mem_places, shows.mem_transitions]
  constructor
  · rintro ⟨other, inside, named, -⟩
    exact absent (Part.eq_of_name distinct (shows.present other inside) present named ▸ inside)
  · rintro ⟨other, inside, named, -⟩
    exact absent (Part.eq_of_name distinct (shows.present other inside) present named ▸ inside)

/-- The net with a place for a part that was not shown. -/
theorem insertPlace (shows : net.Shows cards connections channel has linked)
    (present : Present cards connections part) (fresh : net.hasNode part.name = false)
    {place : Place Content} (held : place.content = part.content?)
    (isPlace : part.isPlace = true) :
    Circuit.Shows { net with places := net.places.insert part.name place } cards connections
      channel (fun other => has other ∨ other = part) linked := by
  rw [Net.hasNode, Bool.or_eq_false_iff, ← Bool.not_eq_true, ← Bool.not_eq_true,
    Registry.contains_eq_true, Registry.contains_eq_true] at fresh
  have content : ∀ id, Net.content? { net with places := net.places.insert part.name place } id =
      if id = part.name then part.content? else net.content? id := by
    intro id
    rw [Net.content?, Net.place?, Registry.get?_insert]
    split
    · exact held
    · rfl
  refine ⟨⟨shows.plain.indexed.congr rfl rfl rfl, shows.plain.weight⟩, ?_, ?_, shows.links, ?_, ?_,
    ?_, ?_, shows.arc⟩
  · intro id member
    rcases Registry.mem_names_insert.mp member with rfl | old
    · exact fresh.2
    · exact shows.apart id old
  · rintro other (inside | rfl)
    · exact shows.present other inside
    · exact present
  · intro first second joined
    exact ⟨.inl (shows.ends first second joined).1, .inl (shows.ends first second joined).2⟩
  · intro id member
    rw [content]
    split
    · exact Option.isSome_iff_exists.mp isPlace
    · next differ =>
        exact shows.filled id ((Registry.mem_names_insert.mp member).resolve_left differ)
  · intro id found
    rw [content]
    split
    · next same =>
        subst same
        constructor
        · exact fun here => ⟨part, .inr rfl, rfl, here⟩
        · rintro ⟨other, inside | rfl, named, here⟩
          · refine absurd (shows.mem_places.mpr ⟨other, inside, named, ?_⟩) fresh.1
            rw [Part.isPlace, here]
            rfl
          · exact here
    · next differ =>
        rw [shows.place]
        constructor
        · rintro ⟨other, inside, named, here⟩
          exact ⟨other, .inl inside, named, here⟩
        · rintro ⟨other, inside | rfl, named, here⟩
          · exact ⟨other, inside, named, here⟩
          · exact absurd named.symm differ
  · intro id action
    rw [shows.transition]
    constructor
    · rintro ⟨other, inside, named, here⟩
      exact ⟨other, .inl inside, named, here⟩
    · rintro ⟨other, inside | rfl, named, here⟩
      · exact ⟨other, inside, named, here⟩
      · rw [Part.action?_of_isPlace isPlace] at here
        cases here

/-- The net with a transition for a part that was not shown. -/
theorem insertTransition (shows : net.Shows cards connections channel has linked)
    (present : Present cards connections part) (fresh : net.hasNode part.name = false)
    {action : Action} (acts : part.action? cards channel = some action) :
    Circuit.Shows { net with transitions := net.transitions.insert part.name action } cards
      connections channel (fun other => has other ∨ other = part) linked := by
  rw [Net.hasNode, Bool.or_eq_false_iff, ← Bool.not_eq_true, ← Bool.not_eq_true,
    Registry.contains_eq_true, Registry.contains_eq_true] at fresh
  have noPlace : part.content? = none := by
    cases held : part.content? with
    | none => rfl
    | some content =>
        rw [Part.action?_of_isPlace (by rw [Part.isPlace, held]; rfl)] at acts
        cases acts
  refine ⟨⟨shows.plain.indexed.congr rfl rfl rfl, shows.plain.weight⟩, ?_, ?_, shows.links, ?_,
    shows.filled, ?_, ?_, shows.arc⟩
  · intro id member taken
    rcases Registry.mem_names_insert.mp taken with rfl | old
    · exact fresh.1 member
    · exact shows.apart id member old
  · rintro other (inside | rfl)
    · exact shows.present other inside
    · exact present
  · intro first second joined
    exact ⟨.inl (shows.ends first second joined).1, .inl (shows.ends first second joined).2⟩
  · intro id content
    refine (shows.place id content).trans ⟨?_, ?_⟩
    · rintro ⟨other, inside, named, here⟩
      exact ⟨other, .inl inside, named, here⟩
    · rintro ⟨other, inside | rfl, named, here⟩
      · exact ⟨other, inside, named, here⟩
      · rw [noPlace] at here
        cases here
  · intro id found
    rw [Registry.get?_insert]
    split
    · next same =>
        subst same
        constructor
        · exact fun here => ⟨part, .inr rfl, rfl, acts.trans here⟩
        · rintro ⟨other, inside | rfl, named, here⟩
          · exact absurd (Registry.mem_names_of_get?
              ((shows.transition _ _).mpr ⟨other, inside, named, here⟩)) fresh.2
          · exact acts.symm.trans here
    · next differ =>
        rw [shows.transition]
        constructor
        · rintro ⟨other, inside, named, here⟩
          exact ⟨other, .inl inside, named, here⟩
        · rintro ⟨other, inside | rfl, named, here⟩
          · exact ⟨other, inside, named, here⟩
          · exact absurd named.symm differ

/-- The net with an arc for a link between parts that are shown. -/
theorem pushArc (shows : net.Shows cards connections channel has linked) {first second : Part}
    (link : Linked cards connections first second) (ends : has first ∧ has second)
    (fresh : arcName first.name second.name ∉ net.arcs.names) :
    Circuit.Shows (net.pushArc ⟨first.name, second.name, 1⟩) cards connections channel has
      (fun one two => linked one two ∨ one = first ∧ two = second) := by
  have values : (net.pushArc ⟨first.name, second.name, 1⟩).arcs.values =
      net.arcs.values ++ [⟨first.name, second.name, 1⟩] :=
    Registry.values_insert_of_not_mem _ fresh
  refine ⟨⟨shows.plain.indexed.pushArc fresh, ?_⟩, shows.apart, shows.present, ?_, ?_,
    shows.filled, shows.place, shows.transition, ?_⟩
  · intro arc member
    rw [values, List.mem_append, List.mem_singleton] at member
    rcases member with old | rfl
    · exact shows.plain.weight arc old
    · rfl
  · rintro one two (old | ⟨rfl, rfl⟩)
    · exact shows.links one two old
    · exact link
  · rintro one two (old | ⟨rfl, rfl⟩)
    · exact shows.ends one two old
    · exact ends
  · intro source target
    rw [Net.Joins, values, List.mem_append, List.mem_singleton]
    constructor
    · rintro (old | same)
      · obtain ⟨one, two, held, names⟩ := (shows.arc source target).mp old
        exact ⟨one, two, .inl held, names⟩
      · obtain ⟨rfl, rfl, -⟩ := Arc.mk.inj same
        exact ⟨first, second, .inr ⟨rfl, rfl⟩, rfl, rfl⟩
    · rintro ⟨one, two, held | ⟨rfl, rfl⟩, rfl, rfl⟩
      · exact .inl ((shows.arc _ _).mpr ⟨one, two, held, rfl, rfl⟩)
      · exact .inr rfl

/-! ## Edits -/

end Circuit.Shows

/-- The edit that brings a part in. -/
def Part.edit (cards : List Card) (channel : Nat) (part : Part) : Edit :=
  match part with
  | .anchor card slot => .anchorPlace card.id slot
  | .event card slot => .eventPlace card.id slot
  | .start card => .place card.startPlace ⟨.start, 1, some (.trigger card)⟩
  | .relay connection => .place connection.splitPlace ⟨.process, 0, some .relay⟩
  | part => .transition part.name ((part.action? cards channel).getD .split)

namespace Part

variable (cards : List Card) (channel : Nat)

@[simp] theorem edit_anchor (card : Card) (slot : Anchor) :
    (anchor card slot).edit cards channel = .anchorPlace card.id slot := rfl

@[simp] theorem edit_event (card : Card) (slot : Anchor) :
    (event card slot).edit cards channel = .eventPlace card.id slot := rfl

@[simp] theorem edit_start (card : Card) : (start card).edit cards channel =
    .place card.startPlace ⟨.start, 1, some (.trigger card)⟩ := rfl

@[simp] theorem edit_internal (card : Card) : (internal card).edit cards channel =
    .transition card.internalTransition (card.action channel) := rfl

@[simp] theorem edit_split (connection : Connection) :
    (split connection.source).edit cards channel =
      .transition connection.splitTransition .split := rfl

@[simp] theorem edit_relay (connection : Connection) : (relay connection).edit cards channel =
    .place connection.splitPlace ⟨.process, 0, some .relay⟩ := rfl

theorem edit_transfer {cards : List Card} {connection : Connection}
    {parties : Connection.Parties} (found : connection.parties cards = .ok parties) :
    (transfer connection).edit cards channel =
      .transition connection.transfer (.transfer parties.source parties.target) := by
  change Edit.transition _ (((connection.parties cards).toOption.map _).getD _) = _
  rw [found]
  rfl

end Part

/-- What an edit makes of a circuit. -/
def Edit.change (net : Circuit) : Edit → Except Failure Circuit
  | .anchorPlace card anchor =>
      let endpoint : Endpoint := ⟨card, anchor.id⟩
      net.bindPlace endpoint.place (.anchor card anchor) endpoint
  | .eventPlace card anchor =>
      let endpoint : Endpoint := ⟨card, anchor.id⟩
      net.bindPlace endpoint.eventPlace (.event card anchor) endpoint
  | .listen _ _ => .ok net
  | .place id held => net.ensurePlace id held
  | .transition id action => net.ensureTransition id action
  | .arc source target => net.ensureArc source target

/-- An edit concerns the circuit alone and turns it into another one. -/
structure Edit.Makes (edit : Edit) (net after : Circuit) : Prop where
  apply : ∀ bench : Bench, edit.apply bench = bench.withNet (edit.change bench.graph.net)
  change : edit.change net = .ok after

namespace Circuit.Shows

variable {net : Circuit} {cards : List Card} {connections : List Connection} {channel : Nat}
  {has : Part → Prop} {linked : Part → Part → Prop} {part : Part}

theorem nodeKind?_place (shows : net.Shows cards connections channel has linked)
    (inside : has part) (place : part.isPlace = true) :
    net.nodeKind? part.name = some .place := by
  have member := shows.mem_places.mpr ⟨part, inside, rfl, place⟩
  rw [Net.nodeKind?, if_pos (Registry.contains_eq_true.mpr member)]

theorem nodeKind?_transition (shows : net.Shows cards connections channel has linked)
    (inside : has part) (transition : part.isPlace = false) :
    net.nodeKind? part.name = some .transition := by
  have member := shows.mem_transitions.mpr ⟨part, inside, rfl, transition⟩
  have absent : net.places.contains part.name ≠ true := fun taken =>
    shows.apart part.name (Registry.contains_eq_true.mp taken) member
  rw [Net.nodeKind?, if_neg absent, if_pos (Registry.contains_eq_true.mpr member)]

private theorem place?_of_place (shows : net.Shows cards connections channel has linked)
    (inside : has part) {content : Content} (held : part.content? = some content) :
    ∃ place, net.place? part.name = some place ∧ place.content = some content := by
  have found := (shows.place part.name content).mpr ⟨part, inside, rfl, held⟩
  rwa [Net.content?, Option.bind_eq_some_iff] at found

private theorem place?_eq_none (fresh : net.hasNode part.name = false) :
    net.place? part.name = none := by
  rw [Net.hasNode, Bool.or_eq_false_iff, ← Bool.not_eq_true, Registry.contains_eq_true] at fresh
  exact Registry.get?_eq_none_iff.mpr fresh.1

private theorem bindPlace_known (shows : net.Shows cards connections channel has linked)
    (inside : has part) {content : Content} {wanted : Endpoint}
    (held : part.content? = some content) (bound : content.endpoint? = some wanted) :
    net.bindPlace part.name content wanted = .ok net := by
  obtain ⟨place, found, same⟩ := shows.place?_of_place inside held
  rw [Circuit.bindPlace, found]
  simp [same, bound]

private theorem bindPlace_fresh {content : Content} {wanted : Endpoint}
    (fresh : net.hasNode part.name = false) :
    net.bindPlace part.name content wanted =
      .ok { net with places := net.places.insert part.name ⟨.process, 0, some content⟩ } := by
  rw [Circuit.bindPlace, place?_eq_none fresh]
  simp [Net.addPlace, fresh, Except.mapError]

private theorem ensurePlace_known (shows : net.Shows cards connections channel has linked)
    (inside : has part) (isPlace : part.isPlace = true) (place : Place Content) :
    net.ensurePlace part.name place = .ok net := by
  have member := shows.mem_places.mpr ⟨part, inside, rfl, isPlace⟩
  rw [Circuit.ensurePlace, if_pos (Registry.contains_eq_true.mpr member)]

private theorem ensurePlace_fresh (fresh : net.hasNode part.name = false)
    (place : Place Content) : net.ensurePlace part.name place =
      .ok { net with places := net.places.insert part.name place } := by
  have absent := (Bool.or_eq_false_iff.mp fresh).1
  simp [Circuit.ensurePlace, absent, Net.addPlace, fresh, Except.mapError]

private theorem ensureTransition_known (shows : net.Shows cards connections channel has linked)
    (inside : has part) (transition : part.isPlace = false) (action : Action) :
    net.ensureTransition part.name action = .ok net := by
  have member := shows.mem_transitions.mpr ⟨part, inside, rfl, transition⟩
  rw [Circuit.ensureTransition, if_pos (Registry.contains_eq_true.mpr member)]

private theorem ensureTransition_fresh (fresh : net.hasNode part.name = false)
    (action : Action) : net.ensureTransition part.name action =
      .ok { net with transitions := net.transitions.insert part.name action } := by
  have absent := (Bool.or_eq_false_iff.mp fresh).2
  simp [Circuit.ensureTransition, absent, Net.addTransition, fresh, Except.mapError]

/-- The edit for a part succeeds; afterwards the circuit shows the part. -/
theorem apply_part (shows : net.Shows cards connections channel has linked)
    (distinct : DistinctNames cards connections) (present : Present cards connections part) :
    ∃ after, (part.edit cards channel).Makes net after ∧
      after.Shows cards connections channel (fun other => has other ∨ other = part) linked := by
  by_cases inside : has part
  · refine ⟨net, ?_, shows.congr ?_ fun _ _ => Iff.rfl⟩
    · cases present with
      | anchor _ _ _ =>
          exact ⟨fun _ => rfl, shows.bindPlace_known inside rfl rfl⟩
      | event _ _ _ =>
          exact ⟨fun _ => rfl, shows.bindPlace_known inside rfl rfl⟩
      | start _ _ => exact ⟨fun _ => rfl, shows.ensurePlace_known inside rfl _⟩
      | relay _ _ => exact ⟨fun _ => rfl, shows.ensurePlace_known inside rfl _⟩
      | internal _ =>
          exact ⟨fun _ => rfl, shows.ensureTransition_known inside rfl _⟩
      | split _ _ =>
          exact ⟨fun _ => rfl, shows.ensureTransition_known inside rfl _⟩
      | transfer _ _ =>
          exact ⟨fun _ => rfl, shows.ensureTransition_known inside rfl _⟩
    · exact fun other => ⟨.inl, fun either => either.elim id fun same => same ▸ inside⟩
  · have fresh := shows.not_hasNode distinct present inside
    cases wasPresent : present with
    | anchor _ _ _ =>
        refine ⟨_, ⟨fun _ => rfl, bindPlace_fresh fresh⟩, ?_⟩
        exact shows.insertPlace present fresh rfl rfl
    | event _ _ _ =>
        refine ⟨_, ⟨fun _ => rfl, bindPlace_fresh fresh⟩, ?_⟩
        exact shows.insertPlace present fresh rfl rfl
    | start _ _ =>
        refine ⟨_, ⟨fun _ => rfl, ensurePlace_fresh fresh _⟩, ?_⟩
        exact shows.insertPlace present fresh rfl rfl
    | relay _ _ =>
        refine ⟨_, ⟨fun _ => rfl, ensurePlace_fresh fresh _⟩, ?_⟩
        exact shows.insertPlace present fresh rfl rfl
    | internal _ =>
        refine ⟨_, ⟨fun _ => rfl, ensureTransition_fresh fresh _⟩, ?_⟩
        exact shows.insertTransition present fresh rfl
    | split _ _ =>
        refine ⟨_, ⟨fun _ => rfl, ensureTransition_fresh fresh _⟩, ?_⟩
        exact shows.insertTransition present fresh rfl
    | transfer _ wires =>
        refine ⟨_, ⟨fun _ => rfl, ensureTransition_fresh fresh _⟩, ?_⟩
        refine shows.insertTransition present fresh ?_
        rw [Part.action?, wires.found]
        rfl

private theorem isConnected_iff (shows : net.Shows cards connections channel has linked)
    (distinct : DistinctNames cards connections) {first second : Part}
    (link : Linked cards connections first second) :
    net.isConnected first.name second.name = true ↔ linked first second := by
  rw [shows.plain.indexed.isConnected_iff]
  constructor
  · rintro ⟨arc, member, named⟩
    have joined : net.Joins arc.source arc.target := shows.plain.eq_of_mem member ▸ member
    obtain ⟨one, two, held, source, target⟩ := (shows.arc _ _).mp joined
    have known := shows.links one two held
    rw [Arc.name, ← source, ← target] at named
    obtain ⟨left, right⟩ := distinct.arc _ _ _ _ known link named
    rwa [← Part.eq_of_name distinct known.left link.left left,
      ← Part.eq_of_name distinct known.right link.right right]
  · exact fun held =>
      ⟨⟨first.name, second.name, 1⟩, (shows.arc _ _).mpr ⟨first, second, held, rfl, rfl⟩, rfl⟩

/-- The edit for a link between parts that are shown succeeds; afterwards the circuit shows the
link. -/
theorem apply_link (shows : net.Shows cards connections channel has linked)
    (distinct : DistinctNames cards connections) {first second : Part}
    (link : Linked cards connections first second) (ends : has first ∧ has second) :
    ∃ after, (Edit.arc first.name second.name).Makes net after ∧
      after.Shows cards connections channel has
        (fun one two => linked one two ∨ one = first ∧ two = second) := by
  by_cases held : linked first second
  · refine ⟨net, ⟨fun _ => rfl, ?_⟩, shows.congr (fun _ => Iff.rfl) ?_⟩
    · rw [Edit.change, Circuit.ensureArc, if_pos ((shows.isConnected_iff distinct link).mpr held)]
    · exact fun one two => ⟨.inl, fun either => either.elim id fun ⟨left, right⟩ =>
        left ▸ right ▸ held⟩
  · have free := mt (shows.isConnected_iff distinct link).mp held
    refine ⟨_, ⟨fun _ => rfl, ?_⟩, shows.pushArc link ends fun taken =>
      free (Registry.contains_eq_true.mpr taken)⟩
    have differ := link.isPlace_ne
    have added : net.addArc first.name second.name 1 =
        .ok (net.pushArc ⟨first.name, second.name, 1⟩) := by
      cases left : first.isPlace with
      | true =>
          have right : second.isPlace = false := by
            rw [left] at differ
            exact (Bool.not_eq_true _).mp differ.symm
          simp [Net.addArc, shows.nodeKind?_place ends.1 left,
            shows.nodeKind?_transition ends.2 right, free]
      | false =>
          have right : second.isPlace = true := by
            rw [left] at differ
            exact (Bool.not_eq_false _).mp differ.symm
          simp [Net.addArc, shows.nodeKind?_transition ends.1 left,
            shows.nodeKind?_place ends.2 right, free]
    rw [Edit.change, Circuit.ensureArc, if_neg free, added]
    rfl

end Circuit.Shows

/-- What one edit brings in. -/
inductive Item where
  | part (part : Part)
  | link (first second : Part)

namespace Item

/-- The edit that brings an item in. -/
def edit (cards : List Card) (channel : Nat) : Item → Edit
  | part brought => brought.edit cards channel
  | link first second => .arc first.name second.name

@[simp] theorem edit_part (cards : List Card) (channel : Nat) (brought : Part) :
    (part brought).edit cards channel = brought.edit cards channel := rfl

@[simp] theorem edit_link (cards : List Card) (channel : Nat) (first second : Part) :
    (link first second).edit cards channel = .arc first.name second.name := rfl

/-- The parts that there are after an item was brought in. -/
def parts (has : Part → Prop) : Item → Part → Prop
  | part brought => fun other => has other ∨ other = brought
  | link _ _ => has

/-- The links that there are after an item was brought in. -/
def links (linked : Part → Part → Prop) : Item → Part → Part → Prop
  | part _ => linked
  | link first second => fun one two => linked one two ∨ one = first ∧ two = second

/-- An item can be brought in: a link joins parts that there are. -/
def Fits (cards : List Card) (connections : List Connection) (has : Part → Prop) : Item → Prop
  | part brought => Present cards connections brought
  | link first second => Linked cards connections first second ∧ has first ∧ has second

/-- Items can be brought in one after the other. -/
def AllFit (cards : List Card) (connections : List Connection) (has : Part → Prop) :
    List Item → Prop
  | [] => True
  | item :: rest =>
      item.Fits cards connections has ∧ AllFit cards connections (item.parts has) rest

variable {cards : List Card} {connections : List Connection} {channel : Nat}
  {has : Part → Prop} {linked : Part → Part → Prop}

theorem parts_mono {more : Part → Prop} (grown : ∀ part, has part → more part) (item : Item) :
    ∀ part, item.parts has part → item.parts more part := by
  cases item with
  | part part => exact fun other either => either.imp_left (grown other)
  | link first second => exact grown

theorem allFit_mono {more : Part → Prop} (grown : ∀ part, has part → more part)
    {items : List Item} (fit : AllFit cards connections has items) :
    AllFit cards connections more items := by
  induction items generalizing has more with
  | nil => trivial
  | cons item rest ih =>
      refine ⟨?_, ih (parts_mono grown item) fit.2⟩
      cases item with
      | part part => exact fit.1
      | link first second => exact fit.1.imp_right (And.imp (grown first) (grown second))

theorem allFit_append {first second : List Item} (left : AllFit cards connections has first)
    (right : AllFit cards connections (fun other => has other ∨ .part other ∈ first) second) :
    AllFit cards connections has (first ++ second) := by
  induction first generalizing has with
  | nil => exact allFit_mono (by simp) right
  | cons item rest ih =>
      refine ⟨left.1, ih left.2 (allFit_mono ?_ right)⟩
      cases item <;> simp [parts, or_assoc]

theorem allFit_flatMap {β : Type} {entries : List β} {items : β → List Item}
    (fit : ∀ entry ∈ entries, AllFit cards connections has (items entry)) :
    AllFit cards connections has (entries.flatMap items) := by
  induction entries with
  | nil => trivial
  | cons entry rest ih =>
      exact allFit_append (fit entry (List.mem_cons_self ..))
        (allFit_mono (fun _ => .inl)
          (ih fun other member => fit other (List.mem_cons_of_mem _ member)))

theorem present_of_mem {items : List Item} (fit : AllFit cards connections has items)
    {part : Part} (member : .part part ∈ items) : Present cards connections part := by
  induction items generalizing has with
  | nil => simp at member
  | cons item rest ih =>
      rcases List.mem_cons.mp member with rfl | later
      · exact fit.1
      · exact ih fit.2 later

theorem linked_of_mem {items : List Item} (fit : AllFit cards connections has items)
    {first second : Part} (member : .link first second ∈ items) :
    Linked cards connections first second := by
  induction items generalizing has with
  | nil => simp at member
  | cons item rest ih =>
      rcases List.mem_cons.mp member with rfl | later
      · exact fit.1.1
      · exact ih fit.2 later

end Item

/-- Items brought in one after the other can be laid out, and the circuit shows them
afterwards. -/
theorem Circuit.Shows.applyAll {net : Circuit} {cards : List Card}
    {connections : List Connection} {channel : Nat} {has : Part → Prop}
    {linked : Part → Part → Prop}
    (shows : net.Shows cards connections channel has linked)
    (distinct : DistinctNames cards connections) {items : List Item}
    (fit : Item.AllFit cards connections has items) :
    ∃ after : Circuit,
      (∀ bench : Bench, bench.graph.net = net →
        bench.applyAll (items.map (Item.edit cards channel)) =
          (.ok (), { bench with graph := { bench.graph with net := after } })) ∧
      after.Shows cards connections channel
        (fun part => has part ∨ .part part ∈ items)
        (fun first second => linked first second ∨ .link first second ∈ items) := by
  induction items generalizing net has linked with
  | nil =>
      refine ⟨net, ?_, shows.congr (by simp) (by simp)⟩
      rintro bench rfl
      rfl
  | cons item rest ih =>
      obtain ⟨middle, makes, shown⟩ : ∃ middle, (item.edit cards channel).Makes net middle ∧
          middle.Shows cards connections channel (item.parts has) (item.links linked) := by
        cases item with
        | part part => exact shows.apply_part distinct fit.1
        | link first second => exact shows.apply_link distinct fit.1.1 fit.1.2
      obtain ⟨after, applies, last⟩ := ih shown fit.2
      refine ⟨after, ?_, last.congr ?_ ?_⟩
      · intro bench same
        rw [List.map_cons, Bench.applyAll, makes.apply, same, makes.change]
        exact applies { bench with graph := { bench.graph with net := middle } } rfl
      · intro part
        cases item <;> simp [Item.parts, or_assoc]
      · intro one two
        cases item <;> simp [Item.links, or_assoc]

end CardNet
