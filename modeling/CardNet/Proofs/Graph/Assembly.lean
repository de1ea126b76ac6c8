import CardNet.Proofs.Graph.Layout

/-!
# Assembling a graph

The blueprints of cards and connections bring in just the parts and links of these cards and
connections (`Card.blueprint_eq`, `Connection.layout_eq`). So, as long as names are distinct and
no connection touches an event, building a graph cannot fail before its plans are made
(`Graph.build_eq`): the circuit shows all parts of the cards and connections and all links
between them (`mem_items_part`, `mem_items_link`), and nothing depends on the mode.
-/

namespace CardNet

open Item

variable {cards : List Card} {connections : List Connection} {channel : Nat}
  {has : Part → Prop} {linked : Part → Part → Prop} {net : Circuit}

/-! ## Cards -/

namespace Card

/-- What comes before the transition of a card, and the transition itself. -/
def inputItems (card : Card) : List Item :=
  if (card.anchorsOf .input).isEmpty then
    [.part (.start card), .part (.internal card), .link (.start card) (.internal card)]
  else
    .part (.internal card) :: (card.anchorsOf .input).flatMap fun slot =>
      [.part (.anchor card slot), .link (.anchor card slot) (.internal card)]

/-- What a card brings in. -/
def items (card : Card) : List Item :=
  card.inputItems ++
    (card.anchorsOf .output).flatMap (fun slot =>
      [.part (.anchor card slot), .link (.internal card) (.anchor card slot)]) ++
    (card.anchorsOf .event).map fun slot => .part (.event card slot)

theorem blueprint_eq (cards : List Card) (card : Card) (channel : Nat) :
    card.blueprint channel = card.items.map (Item.edit cards channel) := by
  have inputs : card.inputEdits channel = card.inputItems.map (Item.edit cards channel) := by
    unfold inputEdits inputItems
    cases none : (card.anchorsOf .input).isEmpty with
    | true =>
        simp only [List.map_cons, List.map_nil, edit_part, edit_link, Part.edit_start,
          Part.edit_internal, action, none, ↓reduceIte]
        rfl
    | false =>
        simp only [List.map_cons, List.map_nil, List.map_flatMap, edit_part, edit_link,
          Part.edit_anchor, Part.edit_internal, action, none, Bool.false_eq_true, ↓reduceIte]
        rfl
  rw [blueprint, items, inputs]
  simp only [List.map_append, List.map_flatMap, List.map_cons, List.map_nil, List.map_map,
    Function.comp_def, edit_part, edit_link, Part.edit_anchor, Part.edit_event]
  rfl

theorem allFit_items {card : Card} (member : card ∈ cards) :
    AllFit cards connections has card.items := by
  refine allFit_append (allFit_append ?_ (allFit_flatMap ?_)) ?_
  · unfold inputItems
    split
    · next none =>
        have empty := List.isEmpty_iff.mp none
        exact ⟨.start member empty, .internal member,
          ⟨.start member empty, .inl (.inr rfl), .inr rfl⟩, trivial⟩
    · refine ⟨.internal member, allFit_flatMap fun slot input => ?_⟩
      have link : Linked cards connections (.anchor card slot) (.internal card) :=
        .input member input
      exact ⟨link.left, ⟨link, .inr rfl, .inl (.inr rfl)⟩, trivial⟩
  · intro slot output
    have link : Linked cards connections (.internal card) (.anchor card slot) :=
      .output member output
    refine ⟨link.right, ⟨link, .inl (.inr ?_), .inr rfl⟩, trivial⟩
    unfold inputItems
    split <;> simp
  · rw [List.map_eq_flatMap]
    refine allFit_flatMap fun slot event => ⟨?_, trivial⟩
    obtain ⟨anchor, kind⟩ := mem_anchorsOf.mp event
    exact .event member anchor kind

end Card

/-! ## Connections -/

namespace Connection

variable {connection : Connection} {parties : Parties}

/-- What a connection brings in, without the cards that it joins. -/
def items (connection : Connection) (parties : Parties) : List Item :=
  let source := Part.anchor parties.sourceCard parties.source
  let target := Part.anchor parties.targetCard parties.target
  [.part source, .part target, .part (.split connection.source), .part (.relay connection),
    .part (.transfer connection), .link source (.split connection.source),
    .link (.split connection.source) (.relay connection),
    .link (.relay connection) (.transfer connection), .link (.transfer connection) target]

/-- What a connection brings in together with its cards; nothing when it is left out. -/
def allItems (connection : Connection) (cards : List Card) : List Item :=
  match connection.parties cards with
  | .ok parties => connection.items parties ++ parties.sourceCard.items ++ parties.targetCard.items
  | .error _ => []

theorem blueprint_eq (wires : connection.Wires cards parties) (channel : Nat) :
    connection.blueprint parties.source parties.target =
      (connection.items parties).map (Item.edit cards channel) := by
  have ends := wires.resolved
  have hands : connection.handOver parties.source = connection.splitTransition :=
    if_neg wires.source
  have starts : connection.sourcePlace parties.source = connection.source.place :=
    if_neg wires.source
  have source : connection.source.place =
      Endpoint.place ⟨parties.sourceCard.id, parties.source.id⟩ := by rw [ends.sourceEnd]
  have target : connection.target.place =
      Endpoint.place ⟨parties.targetCard.id, parties.target.id⟩ := by rw [ends.targetEnd]
  have sourceCard : connection.source.card = parties.sourceCard.id := by rw [ends.sourceEnd]
  have targetCard : connection.target.card = parties.targetCard.id := by rw [ends.targetEnd]
  rw [blueprint, hands, starts, sourceEdits, if_neg wires.source, source, target, sourceCard,
    targetCard]
  simp only [items, List.map_cons, List.map_nil, edit_part, edit_link, Part.edit_anchor,
    Part.edit_split, Part.edit_relay, Part.edit_transfer channel wires.found]
  rfl

theorem layout_eq (wires : connection.Wires cards parties) (channel : Nat) :
    connection.layout parties channel =
      (connection.allItems cards).map (Item.edit cards channel) := by
  rw [layout, blueprint_eq wires channel, Card.blueprint_eq cards, Card.blueprint_eq cards,
    allItems, wires.found]
  simp

theorem allFit_items (member : connection ∈ connections)
    (wires : connection.Wires cards parties) :
    AllFit cards connections has (connection.items parties) := by
  have hand : Linked cards connections _ _ := .hand member wires
  have bring : Linked cards connections _ _ := .bring member wires
  refine ⟨hand.left, bring.right, .split member wires, .relay member wires,
    .transfer member wires, ⟨hand, ?_⟩, ⟨.spread member wires, ?_⟩, ⟨.take member wires, ?_⟩,
    ⟨bring, ?_⟩, trivial⟩ <;> simp [Item.parts]

theorem allFit_allItems (has : Part → Prop) (member : connection ∈ connections)
    (quiet : ∀ parties, connection.parties cards = .ok parties →
      connection.Wires cards parties) :
    AllFit cards connections has (connection.allItems cards) := by
  unfold allItems
  split
  · next parties found =>
      have ends := (quiet parties found).resolved
      exact allFit_append (allFit_append (allFit_items member (quiet parties found))
        (Card.allFit_items ends.sourceCard)) (Card.allFit_items ends.targetCard)
  · trivial

end Connection

/-! ## Everything together -/

/-- What cards and connections bring in. -/
def allItems (cards : List Card) (connections : List Connection) : List Item :=
  connections.flatMap (Connection.allItems · cards) ++ cards.flatMap Card.items

/-- No connection of known cards and anchors touches an event. -/
def Eventless (cards : List Card) (connections : List Connection) : Prop :=
  ∀ connection ∈ connections, ∀ parties, connection.parties cards = .ok parties →
    connection.Wires cards parties

theorem allFit_allItems (has : Part → Prop) (quiet : Eventless cards connections) :
    AllFit cards connections has (allItems cards connections) :=
  allFit_append (allFit_flatMap fun connection member =>
      Connection.allFit_allItems has member (quiet connection member))
    (allFit_flatMap fun _ member => Card.allFit_items member)

/-- The parts of cards and connections are those that they bring in. -/
theorem mem_allItems_part (quiet : Eventless cards connections) {part : Part} :
    .part part ∈ allItems cards connections ↔ Present cards connections part := by
  refine ⟨present_of_mem (allFit_allItems (fun _ => False) quiet), fun present => ?_⟩
  have ofCard : ∀ {card}, card ∈ cards → .part part ∈ card.items →
      .part part ∈ allItems cards connections := fun member inside =>
    List.mem_append_right _ (List.mem_flatMap.mpr ⟨_, member, inside⟩)
  have ofConnection : ∀ {connection parties}, connection ∈ connections →
      connection.Wires cards parties → .part part ∈ connection.items parties →
      .part part ∈ allItems cards connections := by
    intro connection parties member wires inside
    refine List.mem_append_left _ (List.mem_flatMap.mpr ⟨_, member, ?_⟩)
    rw [Connection.allItems, wires.found]
    exact List.mem_append_left _ (List.mem_append_left _ inside)
  cases present with
  | @anchor card slot member inside kind =>
      refine ofCard member ?_
      rcases slot with ⟨_, _, _ | _ | _, _, _⟩
      · have input := Card.mem_anchorsOf.mpr ⟨inside, rfl⟩
        have some : (card.anchorsOf .input).isEmpty = false :=
          List.isEmpty_eq_false_iff_exists_mem.mpr ⟨_, input⟩
        simp [Card.items, Card.inputItems, some, input]
      · have output := Card.mem_anchorsOf.mpr ⟨inside, rfl⟩
        simp [Card.items, output]
      · exact absurd rfl kind
  | event member inside kind =>
      have event := Card.mem_anchorsOf.mpr ⟨inside, kind⟩
      exact ofCard member (by simp [Card.items, event])
  | start member none =>
      exact ofCard member (by simp [Card.items, Card.inputItems, none])
  | internal member =>
      refine ofCard member ?_
      simp only [Card.items, Card.inputItems]
      split <;> simp
  | split member wires => exact ofConnection member wires (by simp [Connection.items])
  | relay member wires => exact ofConnection member wires (by simp [Connection.items])
  | transfer member wires => exact ofConnection member wires (by simp [Connection.items])

/-- The links of cards and connections are those that they bring in. -/
theorem mem_allItems_link (quiet : Eventless cards connections) {first second : Part} :
    .link first second ∈ allItems cards connections ↔
      Linked cards connections first second := by
  refine ⟨linked_of_mem (allFit_allItems (fun _ => False) quiet), fun link => ?_⟩
  have ofCard : ∀ {card}, card ∈ cards → .link first second ∈ card.items →
      .link first second ∈ allItems cards connections := fun member inside =>
    List.mem_append_right _ (List.mem_flatMap.mpr ⟨_, member, inside⟩)
  have ofConnection : ∀ {connection parties}, connection ∈ connections →
      connection.Wires cards parties → .link first second ∈ connection.items parties →
      .link first second ∈ allItems cards connections := by
    intro connection parties member wires inside
    refine List.mem_append_left _ (List.mem_flatMap.mpr ⟨_, member, ?_⟩)
    rw [Connection.allItems, wires.found]
    exact List.mem_append_left _ (List.mem_append_left _ inside)
  cases link with
  | start member none => exact ofCard member (by simp [Card.items, Card.inputItems, none])
  | @input card slot member input =>
      have some : (card.anchorsOf .input).isEmpty = false :=
        List.isEmpty_eq_false_iff_exists_mem.mpr ⟨_, input⟩
      exact ofCard member (by simp [Card.items, Card.inputItems, some, input])
  | output member output => exact ofCard member (by simp [Card.items, output])
  | hand member wires => exact ofConnection member wires (by simp [Connection.items])
  | spread member wires => exact ofConnection member wires (by simp [Connection.items])
  | take member wires => exact ofConnection member wires (by simp [Connection.items])
  | bring member wires => exact ofConnection member wires (by simp [Connection.items])

/-! ## Building -/

namespace Bench

/-- A graph with another circuit and what comes with its connections. -/
def relaid (bench : Bench) (net : Circuit) (registry : Registry Connection)
    (warnings : List Warning) : Bench :=
  { bench with graph :=
      { bench.graph with net := net, connections := registry, warnings := warnings } }

/-- A connection that touches no event is laid out without fail. -/
theorem connect_eq (shows : net.Shows cards connections channel has linked)
    (distinct : DistinctNames cards connections) {connection : Connection}
    (member : connection ∈ connections)
    (quiet : ∀ parties, connection.parties cards = .ok parties →
      connection.Wires cards parties) :
    ∃ after : Circuit,
      (∀ bench : Bench, bench.graph.net = net → bench.graph.cards = cards →
        bench.graph.channel = channel → ∃ warnings, bench.connect connection =
          (.ok connection.id, bench.relaid after
            (bench.graph.connections.insert connection.id connection) warnings)) ∧
      after.Shows cards connections channel
        (fun part => has part ∨ .part part ∈ connection.allItems cards)
        (fun first second => linked first second ∨
          .link first second ∈ connection.allItems cards) := by
  cases found : connection.parties cards with
  | error reason =>
      refine ⟨net, ?_, shows.congr ?_ ?_⟩
      · rintro bench rfl rfl -
        rw [connect, found]
        exact ⟨_, rfl⟩
      · simp [Connection.allItems, found]
      · simp [Connection.allItems, found]
  | ok parties =>
      have fit := Connection.allFit_allItems has member quiet
      obtain ⟨after, applies, shown⟩ := shows.applyAll distinct fit
      refine ⟨after, ?_, shown⟩
      rintro bench same rfl rfl
      rw [connect, found]
      dsimp only
      rw [Connection.layout_eq (quiet parties found), applies bench same]
      exact ⟨bench.graph.warnings, rfl⟩

/-- Connections that touch no events are laid out without fail. -/
theorem connectAll_eq (shows : net.Shows cards connections channel has linked)
    (distinct : DistinctNames cards connections) {added : List Connection}
    (member : ∀ connection ∈ added, connection ∈ connections) (quiet : Eventless cards added) :
    ∃ after : Circuit,
      (∀ bench : Bench, bench.graph.net = net → bench.graph.cards = cards →
        bench.graph.channel = channel → ∃ registry warnings,
          bench.connectAll added = (.ok (), bench.relaid after registry warnings) ∧
          ∀ id connection, registry.get? id = some connection →
            bench.graph.connections.get? id = some connection ∨ connection ∈ added) ∧
      after.Shows cards connections channel
        (fun part => has part ∨ .part part ∈ added.flatMap (Connection.allItems · cards))
        (fun first second => linked first second ∨
          .link first second ∈ added.flatMap (Connection.allItems · cards)) := by
  induction added generalizing net has linked with
  | nil =>
      refine ⟨net, ?_, shows.congr (by simp) (by simp)⟩
      rintro bench rfl - -
      exact ⟨bench.graph.connections, bench.graph.warnings, rfl, fun _ _ held => .inl held⟩
  | cons connection rest ih =>
      obtain ⟨middle, connects, shown⟩ := connect_eq shows distinct
        (member connection (List.mem_cons_self ..)) (quiet connection (List.mem_cons_self ..))
      obtain ⟨after, others, last⟩ := ih shown
        (fun other inRest => member other (List.mem_cons_of_mem _ inRest))
        (fun other inRest => quiet other (List.mem_cons_of_mem _ inRest))
      refine ⟨after, ?_, last.congr ?_ ?_⟩
      · intro bench sameNet sameCards sameChannel
        obtain ⟨warnings, connected⟩ := connects bench sameNet sameCards sameChannel
        obtain ⟨registry, all, done, known⟩ := others (bench.relaid middle
          (bench.graph.connections.insert connection.id connection) warnings) rfl sameCards
          sameChannel
        refine ⟨registry, all, ?_, fun id other held => ?_⟩
        · rw [connectAll, connected]
          exact done
        · rcases known id other held with old | inRest
          · change (bench.graph.connections.insert _ _).get? id = _ at old
            rw [Registry.get?_insert] at old
            split at old
            · exact .inr (Option.some.inj old ▸ List.mem_cons_self ..)
            · exact .inl old
          · exact .inr (List.mem_cons_of_mem _ inRest)
      · simp [or_assoc]
      · simp [or_assoc]

end Bench

namespace Graph

/-- What making the plans does to a graph. -/
theorem compile_spec {graph after : Graph} {result : Except Failure Unit}
    (compiled : graph.compile = (result, after)) :
    (∃ paths plan, after = { graph with paths := paths, plan := plan }) ∧
      (result = .ok () → graph.net.entryPlaces = [] ∧ after.plan = none ∨
        ∃ plan, after.plan = some plan ∧
          Plan.ofEntries graph.net graph.net.entryPlaces = .ok plan) := by
  unfold compile at compiled
  dsimp only at compiled
  split at compiled
  · obtain ⟨rfl, rfl⟩ := Prod.mk.inj compiled
    exact ⟨⟨_, _, rfl⟩, by simp⟩
  · split at compiled
    · next none =>
        obtain ⟨rfl, rfl⟩ := Prod.mk.inj compiled
        exact ⟨⟨_, _, rfl⟩, fun _ => .inl ⟨List.isEmpty_iff.mp none, rfl⟩⟩
    · split at compiled
      · obtain ⟨rfl, rfl⟩ := Prod.mk.inj compiled
        exact ⟨⟨_, _, rfl⟩, by simp⟩
      · next plan found =>
          obtain ⟨rfl, rfl⟩ := Prod.mk.inj compiled
          exact ⟨⟨_, _, rfl⟩, fun _ => .inr ⟨plan, rfl, found⟩⟩

theorem recompile_visual {graph : Graph} (mode : graph.mode = .visual) :
    graph.recompile = (.ok (), graph) := by
  rw [recompile, mode]

theorem recompile_function {graph : Graph} (mode : graph.mode = .function) :
    graph.recompile = graph.compile := by
  rw [recompile, mode]

/-- Making the plans where the mode needs them concerns the plans alone. -/
theorem recompile_frame {graph after : Graph} {result : Except Failure Unit}
    (recompiled : graph.recompile = (result, after)) :
    ∃ paths plan, after = { graph with paths := paths, plan := plan } := by
  obtain visual | function : graph.mode = .visual ∨ graph.mode = .function := by
    cases graph.mode <;> decide
  · rw [recompile_visual visual] at recompiled
    cases recompiled
    exact ⟨graph.paths, graph.plan, rfl⟩
  · rw [recompile_function function] at recompiled
    exact (compile_spec recompiled).1

/-- A graph before it is seeded. -/
def assembled (mode : Mode) (net : Circuit) (cards : List Card) (channel : Nat) (supplies : Bool)
    (registry : Registry Connection) (warnings : List Warning) : Graph :=
  { blank mode net cards channel supplies with connections := registry, warnings := warnings }

/-- The board on which a graph is assembled. -/
def groundwork (board : Board) (globals : Option Values) : Board :=
  board.allocate.2.modifyChannel board.nextSlot fun _ =>
    ⟨globals.getD ∅, globals.getD ∅, []⟩

/-- How building ends once the plans were to be made. -/
def ofRecompiled : Except Failure Unit × Bench → Except Failure Graph × Board
  | (.ok (), bench) => (.ok bench.graph, bench.board)
  | (.error failure, bench) => (.error failure, bench.graph.release bench.board)

private theorem not_isBlankText (rest : String) :
    Text.isBlankText ("PetriNet_" ++ rest) = false := by
  unfold Text.isBlankText
  rw [String.toList_append]
  rfl

/-- The name that a circuit gets is never blank. -/
theorem create_eq (name : String) :
    Net.create (κ := Content) (α := Action) s!"PetriNet_{name}" =
      .ok ⟨s!"PetriNet_{name}", .empty, .empty, .empty, .empty, .empty⟩ :=
  if_neg (by
    change ¬Text.isBlankText ("PetriNet_" ++ name) = true
    rw [not_isBlankText]
    decide)

/-- A graph that is to be built, with its channel and before anything is laid out. -/
def vacant (mode : Mode) (config : GraphConfig) (cards : List Card) (globals : Option Values)
    (board : Board) : Bench :=
  ⟨.blank mode ⟨s!"PetriNet_{config.name}", .empty, .empty, .empty, .empty, .empty⟩ cards
    board.nextSlot globals.isSome, groundwork board globals⟩

theorem build_eq_construct (mode : Mode) (config : GraphConfig) (cards : List Card)
    (globals : Option Values) (board : Board) : build mode config cards globals board =
      ofRecompiled ((vacant mode config cards globals board).construct config.connections) := by
  rw [build, create_eq]
  rfl

/-- Building a graph that has no connections to events comes down to seeding it and making its
plans. -/
theorem build_eq {config : GraphConfig} (distinct : DistinctNames cards connections)
    (member : ∀ connection ∈ config.connections, connection ∈ connections)
    (quiet : Eventless cards config.connections) (board : Board) :
    ∃ net : Circuit,
      net.Shows cards connections board.nextSlot (Present cards config.connections)
        (Linked cards config.connections) ∧
      ∀ (mode : Mode) (globals : Option Values), ∃ registry warnings,
        (∀ id connection, registry.get? id = some connection →
          connection ∈ config.connections) ∧
        build mode config cards globals board = ofRecompiled
          (Bench.mk (assembled mode net cards board.nextSlot globals.isSome registry warnings)
            (groundwork board globals)).seed.recompile := by
  have start := Circuit.Shows.blank s!"PetriNet_{config.name}" cards connections board.nextSlot
  obtain ⟨middle, connects, shown⟩ := Bench.connectAll_eq start distinct member quiet
  have fit : AllFit cards connections
      (fun part => False ∨ .part part ∈ config.connections.flatMap (Connection.allItems · cards))
      (cards.flatMap Card.items) := allFit_flatMap fun _ member => Card.allFit_items member
  obtain ⟨net, applies, last⟩ := shown.applyAll distinct fit
  refine ⟨net, last.congr ?_ ?_, fun mode globals => ?_⟩
  · intro part
    rw [← mem_allItems_part quiet, allItems, List.mem_append]
    simp
  · intro first second
    rw [← mem_allItems_link quiet, allItems, List.mem_append]
    simp
  · obtain ⟨registry, warnings, connected, known⟩ := connects
      ⟨blank mode ⟨s!"PetriNet_{config.name}", .empty, .empty, .empty, .empty, .empty⟩ cards
        board.nextSlot globals.isSome, groundwork board globals⟩ rfl rfl rfl
    refine ⟨registry, warnings, ?_, ?_⟩
    · intro id connection held
      exact (known id connection held).resolve_left (by simp [blank])
    · have blueprints : (cards.flatMap fun card => card.blueprint board.nextSlot) =
          (cards.flatMap Card.items).map (Item.edit cards board.nextSlot) := by
        rw [List.map_flatMap]
        exact congrArg (cards.flatMap ·) (funext fun card => card.blueprint_eq cards _)
      have constructed : (vacant mode config cards globals board).construct config.connections =
          (Bench.mk (assembled mode net cards board.nextSlot globals.isSome registry warnings)
            (groundwork board globals)).seed.recompile := by
        rw [Bench.construct, vacant, connected]
        dsimp only [Bench.relaid, blank]
        rw [blueprints, applies _ rfl]
        rfl
      rw [build_eq_construct, constructed]

end Graph

end CardNet
