import CardNet.Proofs.Graph.Opening
import CardNet.Proofs.Value.Related

/-!
# Other orders of cards and connections

Listing cards and connections in another order leaves every connection between the same anchors as
long as of each id that a connection names the same card comes first (`Rearranged`), for instance
when no two cards share an id (`Rearranged.of_nodup`). The circuits then show the same parts and
links (`Rearranged.draws_iff`) and are alike in all but the order in which their nodes and arcs came
in (`Circuit.Alike`). None of what a run starts from and ends with depends on that order: the board
at the opening of a run (`Bench.board_opened_alike`), the values that the run depends on and its
outputs (`Bench.entryValues_alike`, `Bench.outputs_alike`).
-/

namespace CardNet

/-- The same cards and connections in another order, in which of each id that a connection names the
same card comes first. -/
structure Rearranged (cards : List Card) (connections : List Connection) (cards' : List Card)
    (connections' : List Connection) : Prop where
  perm : cards'.Perm cards
  others : connections'.Perm connections
  first : ∀ connection ∈ connections, ∀ id ∈ [connection.source.card, connection.target.card],
    (cards'.find? fun card => card.id == id) = cards.find? fun card => card.id == id

namespace Rearranged

variable {cards cards' : List Card} {connections connections' : List Connection} {channel : Nat}
  {net : Circuit}

/-- With distinct ids any order of the cards will do. -/
theorem of_nodup (distinct : (cards.map Card.id).Nodup) (perm : cards'.Perm cards)
    (others : connections'.Perm connections) : Rearranged cards connections cards' connections' where
  perm := perm
  others := others
  first := by
    intro connection _ id _
    cases found : cards.find? fun card => card.id == id with
    | none =>
        rw [List.find?_eq_none] at found ⊢
        exact fun card member => found card (perm.subset member)
    | some card =>
        have member := List.mem_of_find?_eq_some found
        have named := List.find?_some (p := fun card : Card => card.id == id) found
        have present : (cards'.find? fun card => card.id == id).isSome :=
          List.find?_isSome.mpr ⟨card, perm.symm.subset member, named⟩
        obtain ⟨other, found'⟩ := Option.isSome_iff_exists.mp present
        have named' := List.find?_some (p := fun card : Card => card.id == id) found'
        rw [found', List.inj_on_of_nodup_map distinct
          (perm.subset (List.mem_of_find?_eq_some found')) member
          ((beq_iff_eq.mp named').trans (beq_iff_eq.mp named).symm)]

variable (same : Rearranged cards connections cards' connections')

include same

theorem symm : Rearranged cards' connections' cards connections where
  perm := same.perm.symm
  others := same.others.symm
  first := fun connection member id named =>
    (same.first connection (same.others.subset member) id named).symm

/-- Connections join the same anchors. -/
theorem parties_eq {connection : Connection} (member : connection ∈ connections) :
    connection.parties cards' = connection.parties cards := by
  have source := same.first connection member connection.source.card (by simp)
  have target := same.first connection member connection.target.card (by simp)
  unfold Connection.parties
  dsimp only
  rw [source, target]

theorem wires {connection : Connection} (member : connection ∈ connections)
    {parties : Connection.Parties} (wires : connection.Wires cards' parties) :
    connection.Wires cards parties :=
  ⟨same.parties_eq member ▸ wires.found, wires.source, wires.target⟩

theorem present {part : Part} (present : Present cards' connections' part) :
    Present cards connections part := by
  cases present with
  | anchor known slot kind => exact .anchor (same.perm.subset known) slot kind
  | event known slot kind => exact .event (same.perm.subset known) slot kind
  | start known none => exact .start (same.perm.subset known) none
  | internal known => exact .internal (same.perm.subset known)
  | split member wires =>
      have known := same.others.subset member
      exact .split known (same.wires known wires)
  | relay member wires =>
      have known := same.others.subset member
      exact .relay known (same.wires known wires)
  | transfer member wires =>
      have known := same.others.subset member
      exact .transfer known (same.wires known wires)

theorem linked {first second : Part} (linked : Linked cards' connections' first second) :
    Linked cards connections first second := by
  cases linked with
  | start known none => exact .start (same.perm.subset known) none
  | input known input => exact .input (same.perm.subset known) input
  | output known output => exact .output (same.perm.subset known) output
  | hand member wires =>
      have known := same.others.subset member
      exact .hand known (same.wires known wires)
  | spread member wires =>
      have known := same.others.subset member
      exact .spread known (same.wires known wires)
  | take member wires =>
      have known := same.others.subset member
      exact .take known (same.wires known wires)
  | bring member wires =>
      have known := same.others.subset member
      exact .bring known (same.wires known wires)

theorem drives {first second : Card} (drives : Drives cards' connections' first second) :
    Drives cards connections first second := by
  obtain ⟨connection, member, parties, found, ends⟩ := drives
  have known := same.others.subset member
  exact ⟨connection, known, parties, same.parties_eq known ▸ found, ends⟩

/-- Nothing that cards are joined without a cycle for depends on the order. -/
theorem feedForward (feed : FeedForward cards connections) :
    FeedForward cards' connections' where
  names :=
    { card := fun first left second right =>
        feed.names.card first (same.perm.subset left) second (same.perm.subset right)
      anchor := fun first left one inside second right =>
        feed.names.anchor first (same.perm.subset left) one inside second (same.perm.subset right)
      relay := fun first left second right =>
        feed.names.relay first (same.others.subset left) second (same.others.subset right)
      transfer := fun first left second right =>
        feed.names.transfer first (same.others.subset left) second (same.others.subset right)
      arc := fun first second third fourth left right =>
        feed.names.arc first second third fourth (same.linked left) (same.linked right) }
  slots := fun first left one inside second right =>
    feed.slots first (same.perm.subset left) one inside second (same.perm.subset right)
  functions := fun card member => feed.functions card (same.perm.subset member)
  wired := fun connection member parties found =>
    have known := same.others.subset member
    feed.wired connection known parties (same.parties_eq known ▸ found)
  single := fun first left second right =>
    feed.single first (same.others.subset left) second (same.others.subset right)
  acyclic := fun card cycle => feed.acyclic card (cycle.lift id fun _ _ => same.drives)

/-- A circuit that shows cards and connections in the one order shows them in the other. -/
theorem draws (draws : net.Draws cards' connections' channel connections') :
    net.Draws cards connections channel connections := by
  have shows := draws.congr (fun part => ⟨same.present, same.symm.present⟩)
    fun first second => ⟨same.linked, same.symm.linked⟩
  have action : ∀ part, Present cards connections part →
      part.action? cards' channel = part.action? cards channel := by
    intro part present
    cases present with
    | transfer member => rw [Part.action?, Part.action?, same.parties_eq member]
    | _ => rfl
  exact {
    plain := shows.plain
    apart := shows.apart
    present := fun _ present => present
    links := fun _ _ linked => linked
    ends := shows.ends
    filled := shows.filled
    place := shows.place
    transition := by
      intro id done
      rw [shows.transition]
      refine exists_congr fun part => and_congr_right fun present => ?_
      rw [action part present]
    arc := shows.arc }

end Rearranged

/-! ## Circuits that are alike -/

/-- Circuits with the same nodes and arcs, which may have come in in different orders. -/
structure Circuit.Alike (first second : Circuit) : Prop where
  places : first.places.names.Perm second.places.names
  transitions : first.transitions.names.Perm second.transitions.names
  contents : first.content? = second.content?
  actions : first.transitions.get? = second.transitions.get?
  joins : first.Joins = second.Joins
  entries : first.entryPlaces.Perm second.entryPlaces
  exits : first.exitPlaces.Perm second.exitPlaces

/-- Circuits that show the same cards and connections are alike. -/
theorem Circuit.Draws.alike {cards : List Card} {connections laid : List Connection}
    {channel : Nat} {first second : Circuit} (left : first.Draws cards connections channel laid)
    (right : second.Draws cards connections channel laid) : first.Alike second := by
  have contents : first.content? = second.content? := by
    funext id
    exact Option.ext fun content => (left.place id content).trans (right.place id content).symm
  have actions : first.transitions.get? = second.transitions.get? := by
    funext id
    exact Option.ext fun action =>
      (left.transition id action).trans (right.transition id action).symm
  have joins : first.Joins = second.Joins := by
    funext source target
    exact propext ((left.arc source target).trans (right.arc source target).symm)
  have places : ∀ id, id ∈ first.places.names ↔ id ∈ second.places.names :=
    fun id => left.mem_places.trans right.mem_places.symm
  have ends : ∀ ids others : List String, ids.Nodup → others.Nodup →
      (∀ id, id ∈ ids ↔ id ∈ others) → ids.Perm others :=
    fun ids others one two same => (List.perm_ext_iff_of_nodup one two).mpr same
  refine ⟨ends _ _ first.places.nodup_names second.places.nodup_names places,
    ends _ _ first.transitions.nodup_names second.transitions.nodup_names
      fun id => left.mem_transitions.trans right.mem_transitions.symm, contents, actions, joins,
    ends _ _ (first.places.nodup_names.filter _) (second.places.nodup_names.filter _) fun id => ?_,
    ends _ _ (first.places.nodup_names.filter _) (second.places.nodup_names.filter _) fun id => ?_⟩
  · exact left.plain.mem_entryPlaces.trans
      (by rw [right.plain.mem_entryPlaces, places, joins])
  · exact left.plain.mem_exitPlaces.trans
      (by rw [right.plain.mem_exitPlaces, places, joins])

/-- The contents of all places, by the names of the places. -/
theorem Circuit.contents_eq (net : Circuit) :
    net.contents = net.places.names.filterMap net.content? := by
  rw [contents, Registry.values_eq, List.filterMap_filterMap]
  rfl

namespace Circuit.Alike

variable {first second : Circuit} (alike : first.Alike second)

include alike

theorem size_transitions : first.transitions.size = second.transitions.size := by
  have lengths := alike.transitions.length_eq
  rwa [Registry.names, Registry.names, List.length_map, List.length_map] at lengths

theorem feeds_eq : first.Feeds = second.Feeds := by
  funext one two
  rw [Net.Feeds, Net.Feeds, alike.joins]

theorem collectsEvents_eq : first.collectsEvents = second.collectsEvents := by
  funext id
  rw [collectsEvents, collectsEvents, alike.contents]

theorem applyDefault_eq : first.applyDefault = second.applyDefault := by
  funext board id
  rw [applyDefault, applyDefault, alike.contents]

theorem seedPlaces_perm : first.seedPlaces.Perm second.seedPlaces := by
  rw [seedPlaces, seedPlaces, alike.collectsEvents_eq]
  exact alike.entries.filter _

theorem contentsOf_perm {ids others : List String} (perm : ids.Perm others) :
    (first.contentsOf ids).Perm (second.contentsOf others) := by
  rw [contentsOf, contentsOf, alike.contents]
  exact perm.filterMap _

theorem contents_perm : first.contents.Perm second.contents := by
  rw [contents_eq, contents_eq, alike.contents]
  exact alike.places.filterMap _

end Circuit.Alike

/-! ## Values of anchors -/

/-- Different anchors are brought to their defaults in either order. -/
theorem Board.resetAnchor_comm {first second : Anchor}
    (apart : first.slot = second.slot → first = second) (board : Board) :
    (board.resetAnchor first).resetAnchor second = (board.resetAnchor second).resetAnchor first := by
  unfold resetAnchor
  by_cases same : first.slot = second.slot
  · rw [apart same]
  · cases first.default with
    | none => cases second.default <;> rfl
    | some one =>
        cases second.default with
        | none => rfl
        | some two =>
            exact congrArg (fun values => { board with values := values })
              (insert_comm board.values same one two)

/-- One change is made of two records in either order. -/
theorem Board.modifyRecord_comm (board : Board) (first second : Nat)
    (change : CardRecord → CardRecord) :
    (board.modifyRecord first change).modifyRecord second change =
      (board.modifyRecord second change).modifyRecord first change := by
  by_cases same : first = second
  · rw [same]
  · refine congrArg (fun records => { board with records := records }) ?_
    rw [record_modifyRecord, record_modifyRecord, if_neg same, if_neg (Ne.symm same)]
    exact insert_comm board.records same _ _

namespace Content

theorem reset_of_anchor? {content : Content} {anchor : Anchor}
    (shows : content.anchor? = some anchor) (board : Board) :
    content.reset board = board.resetAnchor anchor := by
  cases content with
  | anchor | event => cases shows; rfl
  | trigger | relay => cases shows

/-- Contents are reset in either order, if no two of them show different anchors of one slot. -/
theorem reset_comm {first second : Content}
    (apart : ∀ one ∈ first.anchor?, ∀ two ∈ second.anchor?, one.slot = two.slot → one = two)
    (board : Board) : second.reset (first.reset board) = first.reset (second.reset board) := by
  have record : ∀ (card : Card) (anchor : Anchor) (board : Board),
      (Content.trigger card).reset (board.resetAnchor anchor) =
        ((Content.trigger card).reset board).resetAnchor anchor := by
    intro card anchor board
    unfold Board.resetAnchor
    split <;> rfl
  cases left : first.anchor? with
  | some one =>
      simp only [reset_of_anchor? left]
      cases right : second.anchor? with
      | some two =>
          simp only [reset_of_anchor? right]
          exact Board.resetAnchor_comm (apart one left two right) board
      | none =>
          cases second with
          | anchor | event => cases right
          | trigger card => exact record card one board
          | relay => rfl
  | none =>
      cases first with
      | anchor | event => cases left
      | relay => rfl
      | trigger card =>
          cases right : second.anchor? with
          | some two =>
              simp only [reset_of_anchor? right]
              exact (record card two board).symm
          | none =>
              cases second with
              | anchor | event => cases right
              | relay => rfl
              | trigger other => exact board.modifyRecord_comm card.slot other.slot _

theorem anchor?_of_settable? {content : Content} {anchor : Anchor}
    (settable : content.settable? = some anchor) : content.anchor? = some anchor := by
  cases content with
  | anchor => exact settable
  | event | trigger | relay => cases settable

end Content

theorem Endpoint.place_outputKey (endpoint : Endpoint) :
    endpoint.place = "place_" ++ endpoint.outputKey := by
  simp only [place, outputKey, String.append_assoc]
  rfl

section

variable {cards : List Card} {connections laid : List Connection} {channel : Nat}

namespace Circuit

variable {first second : Circuit}

/-- No two places show different anchors of one slot. -/
theorem Draws.anchor_eq {net : Circuit} (draws : net.Draws cards connections channel laid)
    (slots : DistinctSlots cards) {one two : String} {left right : Content}
    (foundLeft : net.content? one = some left) (foundRight : net.content? two = some right) :
    ∀ anchor ∈ left.anchor?, ∀ other ∈ right.anchor?, anchor.slot = other.slot → anchor = other := by
  intro anchor shows other shows' same
  obtain ⟨card, known, slot, -⟩ := draws.anchor_of_content foundLeft shows
  obtain ⟨card', known', slot', -⟩ := draws.anchor_of_content foundRight shows'
  exact (slots card known anchor slot card' known' other slot' same).2

theorem Alike.reset_eq (alike : first.Alike second)
    (draws : first.Draws cards connections channel laid) (slots : DistinctSlots cards)
    (board : Board) :
    first.contents.foldl (fun board content => content.reset board) board =
      second.contents.foldl (fun board content => content.reset board) board := by
  refine alike.contents_perm.foldl_eq' (fun one left two right board => ?_) board
  obtain ⟨_, foundLeft⟩ := mem_contents.mp left
  obtain ⟨_, foundRight⟩ := mem_contents.mp right
  exact Content.reset_comm (draws.anchor_eq slots foundLeft foundRight) board

theorem Alike.defaults_eq (alike : first.Alike second)
    (draws : first.Draws cards connections channel laid) (slots : DistinctSlots cards)
    (board : Board) :
    first.seedPlaces.foldl first.applyDefault board =
      second.seedPlaces.foldl second.applyDefault board := by
  rw [← alike.applyDefault_eq]
  refine alike.seedPlaces_perm.foldl_eq' (fun one _ two _ board => ?_) board
  unfold applyDefault
  cases left : (first.content? one).bind Content.settable? with
  | none => rfl
  | some anchor =>
      cases right : (first.content? two).bind Content.settable? with
      | none => rfl
      | some other =>
          obtain ⟨_, foundLeft, settable⟩ := Option.bind_eq_some_iff.mp left
          obtain ⟨_, foundRight, settable'⟩ := Option.bind_eq_some_iff.mp right
          exact Board.resetAnchor_comm (draws.anchor_eq slots foundLeft foundRight anchor
            (Content.anchor?_of_settable? settable) other
            (Content.anchor?_of_settable? settable')) board

/-- The key of an output is read off the name of its place. -/
def Keyed (net : Circuit) : Prop :=
  ∀ id content key, net.content? id = some content → content.outputKey? = some key →
    id = "place_" ++ key

theorem Draws.keyed {net : Circuit} (draws : net.Draws cards connections channel laid) :
    net.Keyed := by
  intro id content key found keyed
  obtain ⟨part, -, rfl, holds⟩ := (draws.place id content).mp found
  cases part with
  | anchor card slot =>
      cases holds
      cases keyed
      exact Endpoint.place_outputKey _
  | event | start | relay =>
      cases holds
      cases keyed
  | internal | split | transfer => cases holds

end Circuit

/-- What a content adds to the outputs, with its key. -/
def Content.output? (content : Content) (board : Board) : Option (String × Value) :=
  match content.outputKey?, content.value? board with
  | some key, some value => some (key, value)
  | _, _ => none

theorem Content.outputKey?_of_output? {content : Content} {board : Board} {pair : String × Value}
    (shown : content.output? board = some pair) : content.outputKey? = some pair.1 := by
  unfold output? at shown
  split at shown
  · next keyed _ =>
      cases shown
      exact keyed
  · cases shown

namespace Bench

variable {first second : Bench}

/-- A run starts from the same board. -/
theorem board_opened_alike (alike : first.graph.net.Alike second.graph.net)
    (draws : first.graph.net.Draws cards connections channel laid) (slots : DistinctSlots cards)
    (board : first.board = second.board) (channels : first.graph.channel = second.graph.channel)
    (inputs : Values) : (first.opened inputs).board = (second.opened inputs).board := by
  have supplied : (first.supply inputs).board = (second.supply inputs).board := by
    rw [supply, supply, board, channels]
  rw [board_opened, board_opened, alike.reset_eq draws slots, alike.defaults_eq draws slots,
    supplied]

/-- A run depends on the same values. -/
theorem entryValues_alike (alike : first.graph.net.Alike second.graph.net)
    (board : first.board = second.board) : first.entryValues = second.entryValues := by
  rw [entryValues, entryValues, board]
  refine Values.ofPairs_perm ((alike.contentsOf_perm alike.entries).map _) ?_
  rw [List.map_map]
  exact (Circuit.contentsOf_sublist ..).nodup (first.graph.net.places.nodup_names.filter _)

/-- The outputs of a bench, place by place. -/
def outputPairs (bench : Bench) : List (String × Value) :=
  (bench.graph.net.contentsOf bench.graph.net.exitPlaces).filterMap fun entry =>
    entry.2.output? bench.board

theorem outputs_eq (bench : Bench) : bench.outputs = Values.ofPairs bench.outputPairs := rfl

/-- Outputs of different places have different keys. -/
theorem nodup_outputPairs {bench : Bench} (keyed : bench.graph.net.Keyed) :
    (bench.outputPairs.map Prod.fst).Nodup := by
  have named : ∀ id key, key ∈ (((bench.graph.net.content? id).map fun content =>
      (id, content)).bind fun entry => entry.2.output? bench.board).map Prod.fst →
        id = "place_" ++ key := by
    intro id key shown
    obtain ⟨pair, chosen, rfl⟩ := Option.map_eq_some_iff.mp shown
    obtain ⟨entry, held, picked⟩ := Option.bind_eq_some_iff.mp chosen
    obtain ⟨content, found, rfl⟩ := Option.map_eq_some_iff.mp held
    exact keyed id content _ found (Content.outputKey?_of_output? picked)
  rw [outputPairs, Circuit.contentsOf, List.filterMap_filterMap, List.map_filterMap]
  exact (bench.graph.net.places.nodup_names.filter _).filterMap fun one two key left right =>
    (named one key left).trans (named two key right).symm

/-- The outputs are the same. -/
theorem outputs_alike (alike : first.graph.net.Alike second.graph.net)
    (draws : first.graph.net.Draws cards connections channel laid)
    (board : first.board = second.board) : first.outputs = second.outputs := by
  rw [outputs_eq, outputs_eq]
  refine Values.ofPairs_perm ?_ (nodup_outputPairs draws.keyed)
  rw [outputPairs, outputPairs, board]
  exact (alike.contentsOf_perm alike.exits).filterMap _

end Bench

end

end CardNet
