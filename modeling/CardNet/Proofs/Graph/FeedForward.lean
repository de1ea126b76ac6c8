import CardNet.Proofs.Graph.Access
import CardNet.Proofs.Graph.Assembly
import CardNet.Proofs.Net.MarkedGraph

/-!
# Graphs without cycles

Function cards are joined without a cycle when each connection leads from an output to an input,
no input gets values from two connections, and no card drives itself in the end (`FeedForward`).
The circuit of such a graph is an acyclic marked graph (`FeedForward.exists_markedGraph`), and
transitions of which neither depends on the other do not touch each other's anchors
(`Circuit.Draws.actions_apart`).
-/

namespace CardNet

/-- A connection leads from one card to another. -/
def Drives (cards : List Card) (connections : List Connection) (first second : Card) : Prop :=
  ∃ connection ∈ connections, ∃ parties, connection.parties cards = .ok parties ∧
    parties.sourceCard = first ∧ parties.targetCard = second

/-- Function cards with anchors of their own, and connections from outputs to inputs that make no
cycle and of which no two lead to one input; all of them with distinct names. A connection that
names no card or anchor is left out. -/
structure FeedForward (cards : List Card) (connections : List Connection) : Prop where
  names : DistinctNames cards connections
  slots : DistinctSlots cards
  functions : ∀ card ∈ cards, ∃ run, card.work = .function run
  wired : ∀ connection ∈ connections, ∀ parties, connection.parties cards = .ok parties →
    parties.source.kind = .output ∧ parties.target.kind = .input
  single : ∀ first ∈ connections, ∀ second ∈ connections,
    first.target = second.target → first = second
  acyclic : ∀ card, ¬Relation.TransGen (Drives cards connections) card card

/-- How far down a part stands, by the depth of its card. -/
def Part.level (cards : List Card) (depth : Card → Nat) : Part → Nat
  | anchor card slot => if slot.kind = .output then 7 * depth card + 2 else 7 * depth card
  | event card _ => 7 * depth card
  | start card => 7 * depth card
  | internal card => 7 * depth card + 1
  | split source => above source + 3
  | relay connection => above connection.source + 4
  | transfer connection => above connection.source + 5
where
  /-- Seven times the depth of the card at an end of a connection. -/
  above (source : Endpoint) : Nat :=
    7 * ((cards.find? fun card => card.id == source.card).map depth).getD 0

namespace FeedForward

variable {cards : List Card} {connections : List Connection}

theorem wires (feed : FeedForward cards connections) {connection : Connection}
    (member : connection ∈ connections) {parties : Connection.Parties}
    (found : connection.parties cards = .ok parties) : connection.Wires cards parties := by
  obtain ⟨source, target⟩ := feed.wired connection member parties found
  refine ⟨found, ?_, ?_⟩
  · rw [source]
    decide
  · rw [target]
    decide

theorem eventless (feed : FeedForward cards connections) : Eventless cards connections :=
  fun _ member _ found => feed.wires member found

private theorem above_eq {depth : Card → Nat} {connection : Connection}
    {parties : Connection.Parties} (wires : connection.Wires cards parties) :
    Part.level.above cards depth connection.source = 7 * depth parties.sourceCard := by
  rw [Part.level.above, Connection.find?_sourceCard wires.found]
  rfl

/-- Links lead downwards. -/
theorem level_lt (feed : FeedForward cards connections) {depth : Card → Nat}
    (deeper : ∀ first second, Drives cards connections first second → depth first < depth second)
    {first second : Part} (linked : Linked cards connections first second) :
    first.level cards depth < second.level cards depth := by
  cases linked with
  | start => exact Nat.lt_succ_self _
  | input _ input =>
      simp only [Part.level, (Card.mem_anchorsOf.mp input).2, reduceCtorEq, ↓reduceIte]
      omega
  | output _ output =>
      simp only [Part.level, (Card.mem_anchorsOf.mp output).2, ↓reduceIte]
      omega
  | hand member wires =>
      have kind := (feed.wired _ member _ wires.found).1
      simp only [Part.level, kind, ↓reduceIte, above_eq wires]
      omega
  | spread => exact Nat.lt_succ_self _
  | take => exact Nat.lt_succ_self _
  | @bring connection parties member wires =>
      have kind := (feed.wired _ member _ wires.found).2
      have drives := deeper _ _ ⟨connection, member, parties, wires.found, rfl, rfl⟩
      simp only [Part.level, kind, reduceCtorEq, ↓reduceIte, above_eq wires]
      omega

/-- Only one part leads to the part of a place. -/
theorem left_unique (feed : FeedForward cards connections) {place first second : Part}
    (isPlace : place.isPlace = true) (left : Linked cards connections first place)
    (right : Linked cards connections second place) : first = second := by
  cases place with
  | anchor card slot =>
      rcases left.into_anchor with ⟨rfl, output⟩ | ⟨one, member, parties, wires, rfl, rfl, rfl⟩
      · rcases right.into_anchor with ⟨rfl, -⟩ | ⟨two, other, parties, wires, rfl, rfl, rfl⟩
        · rfl
        · have kind := (feed.wired two other parties wires.found).2
          rw [(Card.mem_anchorsOf.mp output).2] at kind
          cases kind
      · rcases right.into_anchor with ⟨rfl, output⟩ | ⟨two, other, parties', wires', rfl, card, slot⟩
        · have kind := (feed.wired one member parties wires.found).2
          rw [(Card.mem_anchorsOf.mp output).2] at kind
          cases kind
        · have same : one.target = two.target := by
            rw [wires.resolved.targetEnd, wires'.resolved.targetEnd, card, slot]
          rw [feed.single one member two other same]
  | event => cases left
  | start => cases left
  | relay connection =>
      cases left
      cases right
      rfl
  | internal => cases isPlace
  | split => cases isPlace
  | transfer => cases isPlace

/-- The part of a place leads to one part only. -/
theorem right_unique (feed : FeedForward cards connections) {place first second : Part}
    (isPlace : place.isPlace = true) (left : Linked cards connections place first)
    (right : Linked cards connections place second) : first = second := by
  cases place with
  | anchor card slot =>
      rcases left.from_anchor with ⟨rfl, input⟩ | ⟨one, member, parties, wires, rfl, rfl, rfl⟩
      · rcases right.from_anchor with ⟨rfl, -⟩ | ⟨two, other, parties, wires, rfl, rfl, rfl⟩
        · rfl
        · have kind := (feed.wired two other parties wires.found).1
          rw [(Card.mem_anchorsOf.mp input).2] at kind
          cases kind
      · rcases right.from_anchor with ⟨rfl, input⟩ | ⟨two, other, parties', wires', rfl, card, slot⟩
        · have kind := (feed.wired one member parties wires.found).1
          rw [(Card.mem_anchorsOf.mp input).2] at kind
          cases kind
        · rw [wires.resolved.sourceEnd, wires'.resolved.sourceEnd, card, slot]
  | event => cases left
  | start =>
      cases left
      cases right
      rfl
  | relay connection =>
      cases left
      cases right
      rfl
  | internal => cases isPlace
  | split => cases isPlace
  | transfer => cases isPlace

/-- Something leads to the part of a transition. -/
theorem exists_left {part : Part} (present : Present cards connections part)
    (transition : part.isPlace = false) : ∃ place, Linked cards connections place part := by
  cases present with
  | anchor => cases transition
  | event => cases transition
  | start => cases transition
  | relay => cases transition
  | @internal card known =>
      cases inputs : card.anchorsOf .input with
      | nil => exact ⟨_, .start known inputs⟩
      | cons slot rest => exact ⟨_, .input known (inputs ▸ List.mem_cons_self ..)⟩
  | split member wires => exact ⟨_, .hand member wires⟩
  | transfer member wires => exact ⟨_, .take member wires⟩

variable {net : Circuit} {channel : Nat}

/-- The circuit of cards that are joined without a cycle is an acyclic marked graph. -/
theorem exists_markedGraph (feed : FeedForward cards connections)
    (draws : net.Draws cards connections channel connections) :
    ∃ rank, net.MarkedGraph rank := by
  classical
  obtain ⟨depth, deeper⟩ := exists_depth
    (fun _ _ ⟨_, _, _, found, same, _⟩ =>
      same ▸ (Connection.resolved_of_parties found).sourceCard) feed.acyclic
  -- A name has the level of the part that it belongs to.
  obtain ⟨rank, level⟩ : ∃ rank : String → Nat, ∀ part, Present cards connections part →
      rank part.name = part.level cards depth := by
    refine ⟨fun name => if known : ∃ part, Present cards connections part ∧ part.name = name
      then known.choose.level cards depth else 0, fun part present => ?_⟩
    have known : ∃ other, Present cards connections other ∧ other.name = part.name :=
      ⟨part, present, rfl⟩
    have same := Part.eq_of_name feed.names known.choose_spec.1 present known.choose_spec.2
    exact (dif_pos known).trans (congrArg (Part.level cards depth) same)
  refine ⟨rank, draws.plain, ?_, ?_, ?_, ?_, ?_, ?_, ?_⟩
  · intro place transition joined member
    rcases draws.joins_cases joined with ⟨known, -⟩ | ⟨-, absurd⟩
    · exact known
    · exact (draws.apart _ absurd member).elim
  · intro place transition joined member
    rcases draws.joins_cases joined with ⟨-, known⟩ | ⟨absurd, -⟩
    · exact known
    · exact (draws.apart _ member absurd).elim
  · intro transition member
    obtain ⟨part, present, rfl, kind⟩ := draws.mem_transitions.mp member
    obtain ⟨place, linked⟩ := exists_left present kind
    exact ⟨place.name, (draws.arc _ _).mpr ⟨place, part, linked, rfl, rfl⟩⟩
  · intro place member first second left right
    obtain ⟨part, present, rfl, isPlace⟩ := draws.mem_places.mp member
    obtain ⟨one, end', linked, rfl, same⟩ := (draws.arc _ _).mp left
    obtain rfl := Part.eq_of_name feed.names linked.right present same
    obtain ⟨two, end', linked', rfl, same⟩ := (draws.arc _ _).mp right
    obtain rfl := Part.eq_of_name feed.names linked'.right present same
    rw [feed.left_unique isPlace linked linked']
  · intro place member transition joined
    rcases draws.joins_cases joined with ⟨-, absurd⟩ | ⟨known, -⟩
    · exact (draws.apart _ member absurd).elim
    · exact known
  · intro place member first second left right
    obtain ⟨part, present, rfl, isPlace⟩ := draws.mem_places.mp member
    obtain ⟨start, one, linked, same, rfl⟩ := (draws.arc _ _).mp left
    obtain rfl := Part.eq_of_name feed.names linked.left present same
    obtain ⟨start, two, linked', same, rfl⟩ := (draws.arc _ _).mp right
    obtain rfl := Part.eq_of_name feed.names linked'.left present same
    rw [feed.right_unique isPlace linked linked']
  · intro source target joined
    obtain ⟨first, second, linked, rfl, rfl⟩ := (draws.arc _ _).mp joined
    rw [level _ linked.left, level _ linked.right]
    exact feed.level_lt deeper linked

end FeedForward

namespace Circuit.Draws

variable {net : Circuit} {cards : List Card} {connections laid : List Connection} {channel : Nat}
  {rank : String → Nat} {first second : String} {one two : Action}

private theorem not_reads_written (draws : net.Draws cards connections channel laid)
    (distinct : DistinctNames cards connections) (slots : DistinctSlots cards)
    (left : net.transitions.get? first = some one)
    (right : net.transitions.get? second = some two)
    (free : ¬Relation.TransGen net.Feeds first second) :
    ∀ written ∈ one.writes, ∀ read ∈ two.reads, written.slot ≠ read.slot := by
  intro written writes read reads same
  obtain ⟨card, known, member, supplies⟩ := draws.supplies distinct right reads
  have joined := (draws.writes_iff distinct slots left known member).mp ⟨written, writes, same⟩
  rcases supplies with next | ⟨split, relay, hand, spread, take, -⟩
  · exact free (.single ⟨_, joined, next⟩)
  · exact free ((Relation.TransGen.single ⟨_, joined, hand⟩).tail ⟨relay, spread, take⟩)

/-- Transitions of which neither depends on the other do not touch each other's anchors. -/
theorem actions_apart (draws : net.Draws cards connections channel laid)
    (distinct : DistinctNames cards connections) (slots : DistinctSlots cards)
    (graph : net.MarkedGraph rank) (left : net.transitions.get? first = some one)
    (right : net.transitions.get? second = some two) (differ : first ≠ second)
    (forth : ¬Relation.TransGen net.Feeds first second)
    (back : ¬Relation.TransGen net.Feeds second first) : one.Apart two where
  reads := draws.not_reads_written distinct slots left right forth
  writes := by
    intro written writes other others same
    obtain ⟨card, known, member⟩ := draws.exists_card_of_writes right others
    have joined := (draws.writes_iff distinct slots left known member).mp ⟨written, writes, same⟩
    have joined' := (draws.writes_iff distinct slots right known member).mp ⟨other, others, rfl⟩
    rcases draws.joins_cases joined with ⟨absurd, -⟩ | ⟨-, place⟩
    · exact draws.apart _ absurd (Registry.mem_names_of_get? left)
    · exact differ (graph.producer _ place _ _ joined joined')
  readsBack := fun read reads written writes same =>
    draws.not_reads_written distinct slots right left back written writes read reads same.symm

end Circuit.Draws

/-! ## Checking that there is no cycle -/

/-- The names of the ends of all links that cards and connections bring in. -/
def linkNames (cards : List Card) (connections : List Connection) : List (String × String) :=
  (allItems cards connections).filterMap fun
    | .link first second => some (first.name, second.name)
    | .part _ => none

/-- Names are distinct when lists of them have no repetition. -/
theorem DistinctNames.of_lists {cards : List Card} {connections : List Connection}
    (quiet : Eventless cards connections)
    (card : (cards.map Card.internalTransition).Nodup)
    (anchor : (cards.flatMap fun card => card.anchors.map card.anchorPlace).Nodup)
    (relay : (connections.map Connection.splitPlace).Nodup)
    (transfer : (connections.map Connection.transfer).Nodup)
    (arc : ∀ one ∈ linkNames cards connections, ∀ two ∈ linkNames cards connections,
      arcName one.1 one.2 = arcName two.1 two.2 → one = two) :
    DistinctNames cards connections where
  card := fun _ first _ second same => List.inj_on_of_nodup_map card first second same
  anchor := Card.eq_of_anchorPlace anchor
  relay := fun _ first _ second same => List.inj_on_of_nodup_map relay first second same
  transfer := fun _ first _ second same => List.inj_on_of_nodup_map transfer first second same
  arc := by
    intro first second third fourth left right same
    have listed : ∀ {one two}, Linked cards connections one two →
        (one.name, two.name) ∈ linkNames cards connections := fun {one two} linked =>
      List.mem_filterMap.mpr ⟨.link one two, (mem_allItems_link quiet).mpr linked, rfl⟩
    exact Prod.mk.inj (arc _ (listed left) _ (listed right) same)

/-- Anchors have slots of their own when the list of all slots has no repetition. -/
theorem DistinctSlots.of_nodup {cards : List Card}
    (nodup : (cards.flatMap fun card => card.anchors.map Anchor.slot).Nodup) :
    DistinctSlots cards := by
  intro first known one inside second known' two inside' same
  have pairs : (cards.flatMap fun card => card.anchors.map Anchor.slot) =
      (cards.flatMap fun card => card.anchors.map fun slot => (card, slot)).map
        fun pair => pair.2.slot := by
    simp [List.map_flatMap, Function.comp_def]
  rw [pairs] at nodup
  have member : ∀ card ∈ cards, ∀ slot ∈ card.anchors,
      (card, slot) ∈ cards.flatMap fun card => card.anchors.map fun slot => (card, slot) :=
    fun card known slot inside => List.mem_flatMap.mpr ⟨card, known, List.mem_map_of_mem inside⟩
  exact Prod.mk.inj (List.inj_on_of_nodup_map nodup (member first known one inside)
    (member second known' two inside') same)

/-- There is no cycle when every connection leads to a card of greater depth. -/
theorem not_transGen_drives {cards : List Card} {connections : List Connection}
    {depth : Card → Nat}
    (deeper : ∀ connection ∈ connections, ∀ parties, connection.parties cards = .ok parties →
      depth parties.sourceCard < depth parties.targetCard) (card : Card) :
    ¬Relation.TransGen (Drives cards connections) card card := by
  have descends : ∀ {first second}, Relation.TransGen (Drives cards connections) first second →
      depth first < depth second := by
    intro first second path
    induction path with
    | single drives =>
        obtain ⟨connection, member, parties, found, rfl, rfl⟩ := drives
        exact deeper connection member parties found
    | tail _ drives ih =>
        obtain ⟨connection, member, parties, found, rfl, rfl⟩ := drives
        exact Nat.lt_trans ih (deeper connection member parties found)
  exact fun cycle => Nat.lt_irrefl _ (descends cycle)

/-- Whether a connection that is not left out leads from an output to an input of a card of
greater depth. -/
def Connection.descends (cards : List Card) (depth : Card → Nat) (connection : Connection) :
    Bool :=
  match connection.parties cards with
  | .ok parties =>
      parties.source.kind = .output && parties.target.kind = .input &&
        depth parties.sourceCard < depth parties.targetCard
  | .error _ => true

/-- Lists of names and a depth show that there is no cycle. -/
theorem FeedForward.of_lists {cards : List Card} {connections : List Connection}
    (depth : Card → Nat)
    (descends : connections.all (Connection.descends cards depth) = true)
    (functions : ∀ card ∈ cards, ∃ run, card.work = .function run)
    (slots : (cards.flatMap fun card => card.anchors.map Anchor.slot).Nodup)
    (single : (connections.map Connection.target).Nodup)
    (card : (cards.map Card.internalTransition).Nodup)
    (anchor : (cards.flatMap fun card => card.anchors.map card.anchorPlace).Nodup)
    (relay : (connections.map Connection.splitPlace).Nodup)
    (transfer : (connections.map Connection.transfer).Nodup)
    (arc : ∀ one ∈ linkNames cards connections, ∀ two ∈ linkNames cards connections,
      arcName one.1 one.2 = arcName two.1 two.2 → one = two) :
    FeedForward cards connections := by
  have falls : ∀ connection ∈ connections, ∀ parties, connection.parties cards = .ok parties →
      (parties.source.kind = .output ∧ parties.target.kind = .input) ∧
        depth parties.sourceCard < depth parties.targetCard := by
    intro connection member parties found
    have holds := List.all_eq_true.mp descends connection member
    rw [Connection.descends, found] at holds
    simpa using holds
  have quiet : Eventless cards connections := by
    intro connection member parties found
    obtain ⟨⟨source, target⟩, -⟩ := falls connection member parties found
    exact ⟨found, by rw [source]; decide, by rw [target]; decide⟩
  exact {
    names := .of_lists quiet card anchor relay transfer arc
    slots := .of_nodup slots
    functions := functions
    wired := fun connection member parties found => (falls connection member parties found).1
    single := fun first left second right same =>
      List.inj_on_of_nodup_map single left right same
    acyclic := not_transGen_drives fun connection member parties found =>
      (falls connection member parties found).2 }

/-! ## A triangle of cards -/

namespace Triangle

/-- A card that lists the values of its arguments on its output. -/
def design (id : String) (inputs : List String) : CardDesign where
  id := id
  title := "list"
  anchors := inputs.map (⟨·, .input, none, none, false⟩) ++ [⟨"out", .output, none, none, false⟩]
  delay := 0
  work := .function fun arguments =>
    .ok ((∅ : Values).insert "out" (.list (arguments.toList.map Prod.snd)))
  runtime := none

/-- A source, a card behind it, and a card behind both. -/
def seated : List Card × Board :=
  Board.empty.seatAll [design "a" [], design "b" ["in"], design "c" ["one", "two"]]

/-- The three connections between them. -/
def config : GraphConfig where
  name := "triangle"
  connections := [⟨⟨"a", "out"⟩, ⟨"b", "in"⟩⟩, ⟨⟨"a", "out"⟩, ⟨"c", "one"⟩⟩,
    ⟨⟨"b", "out"⟩, ⟨"c", "two"⟩⟩]

theorem feedForward : FeedForward seated.1 config.connections := by
  refine .of_lists (fun card => if card.id = "a" then 0 else if card.id = "b" then 1 else 2)
    (by decide +kernel) ?_ (by decide +kernel) (by decide +kernel) (by decide +kernel)
    (by decide +kernel) (by decide +kernel) (by decide +kernel) (by decide +kernel)
  intro card member
  simp only [seated, Board.seatAll, Board.seat, design, List.mem_cons, List.not_mem_nil,
    or_false] at member
  rcases member with rfl | rfl | rfl <;> exact ⟨_, rfl⟩

end Triangle

end CardNet
