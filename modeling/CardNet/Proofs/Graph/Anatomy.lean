import CardNet.Proofs.Graph.Outlets
import CardNet.Proofs.Graph.Rebuilding

/-!
# What a built circuit consists of

As long as no generated ids clash, it does not matter for the circuit of a graph in which order
cards and connections are listed, and how often: it has just the places, transitions and arcs that
the cards and the connections between known anchors ask for (`Graph.Anatomy`), and building it
cannot fail (`Graph.exists_build_anatomy`). So the entry and exit places can be told from the
description of the graph alone.
-/

namespace CardNet

variable {cards : List Card} {connections : List Connection} {channel : Nat}

/-! ## Descriptions -/

/-- The warning for a connection that is left out. -/
def Connection.warning? (cards : List Card) (connection : Connection) : Option Warning :=
  match connection.parties cards with
  | .error reason => some ⟨connection, reason⟩
  | .ok _ => none

/-- Connections that are not left out lead from outputs and events to inputs. -/
def Directed (cards : List Card) (connections : List Connection) : Prop :=
  ∀ connection ∈ connections, ∀ parties, connection.parties cards = .ok parties →
    parties.source.kind ≠ .input ∧ parties.target.kind = .input

/-- A connection leads to an anchor of a card. -/
def Fed (cards : List Card) (connections : List Connection) (card : Card) (anchor : Anchor) :
    Prop :=
  ∃ connection ∈ connections, ∃ parties, connection.parties cards = .ok parties ∧
    parties.targetCard = card ∧ parties.target = anchor

/-- A connection starts from an anchor of a card. -/
def Tapped (cards : List Card) (connections : List Connection) (card : Card) (anchor : Anchor) :
    Prop :=
  ∃ connection ∈ connections, ∃ parties, connection.parties cards = .ok parties ∧
    parties.sourceCard = card ∧ parties.source = anchor

/-- A graph that consists of just what some cards and connections ask for. -/
structure Graph.Anatomy (graph : Graph) (cards : List Card) (connections : List Connection) :
    Prop where
  /-- Each occurrence of a connection that is left out has its warning. -/
  warnings : graph.warnings = connections.filterMap (Connection.warning? cards)
  /-- The places of anchors and events, the start places, and the places before transfers. -/
  places : ∀ id, id ∈ graph.net.places.names ↔
    (∃ card ∈ cards, ∃ anchor ∈ card.anchors, card.anchorPlace anchor = id) ∨
    (∃ card ∈ cards, card.anchorsOf .input = [] ∧ card.startPlace = id) ∨
    ∃ connection ∈ connections, connection.Resolves cards ∧ connection.splitPlace = id
  /-- The calls of cards, what hands on from the anchors that connections start from, and the
  transfers. -/
  transitions : ∀ id, id ∈ graph.net.transitions.names ↔
    (∃ card ∈ cards, card.internalTransition = id) ∨
    ∃ connection ∈ connections, ∃ parties, connection.parties cards = .ok parties ∧
      (connection.handOver parties.source = id ∨ connection.transfer = id)
  arcs : ∀ arc, arc ∈ graph.net.arcs.values ↔
    arc.weight = 1 ∧ Leads cards connections arc.source arc.target
  /-- No arc is there twice. -/
  once : graph.net.arcs.values.Nodup
  /-- What each place holds and what each transition does. -/
  stands : ∀ site fixture, graph.net.fixture? site = some fixture ↔
    Stands cards connections graph.channel site fixture
  /-- Start places, events, and inputs that no connection leads to. -/
  entries : ∀ id, id ∈ graph.net.entryPlaces ↔
    (∃ card ∈ cards, card.anchorsOf .input = [] ∧ card.startPlace = id) ∨
    ∃ card ∈ cards, ∃ anchor ∈ card.anchors, card.anchorPlace anchor = id ∧
      (anchor.kind = .event ∨ anchor.kind = .input ∧ ¬Fed cards connections card anchor)
  /-- Outputs and events that no connection starts from. -/
  exits : ∀ id, id ∈ graph.net.exitPlaces ↔
    ∃ card ∈ cards, ∃ anchor ∈ card.anchors, card.anchorPlace anchor = id ∧
      anchor.kind ≠ .input ∧ ¬Tapped cards connections card anchor

theorem Directed.inward (directed : Directed cards connections) : Inward cards connections := by
  intro connection member parties found
  rw [(directed connection member parties found).2]
  decide

/-! ## Warnings -/

namespace Bench

variable {bench after : Bench} {connection : Connection}

private theorem cards_connect {id : String} (connected : bench.connect connection = (.ok id, after)) :
    after.graph.cards = bench.graph.cards := by
  obtain ⟨-, grown, warnings, grows, rfl⟩ := grows_of_connect connected
  change grown.graph.cards = _
  rw [grows.graph]

/-- A connection that is left out adds a warning. -/
theorem warnings_connect {id : String} (connected : bench.connect connection = (.ok id, after)) :
    after.graph.warnings =
      bench.graph.warnings ++ (connection.warning? bench.graph.cards).toList := by
  unfold connect at connected
  dsimp only at connected
  split at connected
  · next reason left =>
      cases connected
      rw [Connection.warning?, left]
      rfl
  · next parties found =>
      rw [Connection.warning?, found]
      split at connected
      · cases connected
      · next grown applied =>
          cases connected
          exact (congrArg Graph.warnings (grows_of_applyAll applied).graph).trans
            (List.append_nil _).symm

/-- Connections that are left out add a warning each, in order. -/
theorem warnings_connectAll (connected : bench.connectAll connections = (.ok (), after)) :
    after.graph.warnings =
      bench.graph.warnings ++ connections.filterMap (Connection.warning? bench.graph.cards) := by
  induction connections generalizing bench with
  | nil =>
      cases connected
      simp
  | cons connection rest ih =>
      rw [connectAll] at connected
      split at connected
      · next id middle first =>
          rw [ih connected, warnings_connect first, cards_connect first, List.append_assoc]
          cases warned : connection.warning? bench.graph.cards <;>
            simp [warned]
      · cases connected

end Bench

/-- A graph that was built has a warning for each connection that was left out. -/
theorem Graph.warnings_of_build {graph : Graph} {mode : Mode} {config : GraphConfig}
    {globals : Option Values} {board after : Board}
    (built : build mode config cards globals board = (.ok graph, after)) :
    graph.warnings = config.connections.filterMap (Connection.warning? cards) := by
  rw [build, create_eq] at built
  dsimp only at built
  split at built
  · next bench constructed =>
      cases built
      unfold Bench.construct at constructed
      split at constructed
      · cases constructed
      · next middle connected =>
          have warned := Bench.warnings_connectAll connected
          dsimp only at constructed
          split at constructed
          · cases constructed
          · next laid applied =>
              have recompiled : laid.seed.graph.recompile = (.ok (), bench.graph) :=
                congrArg (fun done : Except Failure Unit × Bench => (done.1, done.2.graph))
                  constructed
              obtain ⟨paths, plan, same⟩ := recompile_frame recompiled
              rw [same]
              exact (congrArg Graph.warnings (Bench.grows_of_applyAll applied).graph).trans
                (warned.trans (List.nil_append _))
  · cases built

/-! ## Ends of arcs -/

namespace Connection

variable {connection : Connection} {parties : Parties}

/-- A connection starts from the place of its source. -/
theorem sourcePlace_of_parties (found : connection.parties cards = .ok parties) :
    connection.sourcePlace parties.source = parties.sourceCard.anchorPlace parties.source := by
  unfold sourcePlace Card.anchorPlace
  rw [(resolved_of_parties found).sourceEnd]

end Connection

namespace Leads

variable {card : Card} {anchor : Anchor}

/-- Nothing leads to a start place. -/
theorem not_startPlace (source : String) (card : Card) :
    ¬Leads cards connections source card.startPlace := by
  intro leads
  generalize named : card.startPlace = target at leads
  cases leads with
  | output | bring =>
      have read := congrArg Family.read named
      simp at read
  | spread =>
      have read := congrArg Family.read named
      simp at read
  | begin | input | hand | take =>
      have places := congrArg namesPlace named
      simp at places

/-- What leads to an input is a transfer of a connection to it. -/
theorem to_input_iff (clear : ClearNames cards connections) (member : card ∈ cards)
    (own : anchor ∈ card.anchors) (kind : anchor.kind = .input)
    (directed : Directed cards connections) :
    (∃ source, Leads cards connections source (card.anchorPlace anchor)) ↔
      Fed cards connections card anchor := by
  have quiet : anchor.kind ≠ .event := by rw [kind]; decide
  have here : card.anchorPlace anchor = Endpoint.place ⟨card.id, anchor.id⟩ := if_neg quiet
  constructor
  · rintro ⟨source, leads⟩
    rw [here] at leads
    generalize named : Endpoint.place ⟨card.id, anchor.id⟩ = target at leads
    cases leads with
    | @output other slot known output =>
        obtain ⟨inside, other⟩ := Card.mem_anchorsOf.mp output
        obtain ⟨rfl, rfl⟩ := clear.anchor_of_place member own quiet known inside
          (by rw [other]; decide) named
        rw [kind] at other
        cases other
    | @bring connection parties known found =>
        have ends := Connection.resolved_of_parties found
        rw [ends.targetEnd] at named
        obtain ⟨rfl, rfl⟩ := clear.anchor_of_place member own quiet ends.targetCard ends.target
          (directed.inward connection known parties found) named
        exact ⟨connection, known, parties, found, rfl, rfl⟩
    | spread =>
        have read := congrArg Family.read named
        simp at read
    | begin | input | hand | take =>
        have places := congrArg namesPlace named
        simp at places
  · rintro ⟨connection, known, parties, found, rfl, rfl⟩
    have leads : Leads cards connections _ _ := .bring known found
    rw [(Connection.resolved_of_parties found).targetEnd] at leads
    exact ⟨_, here ▸ leads⟩

/-- What an output or an event leads to is what hands on to the connections that start from
it. -/
theorem from_source_iff (clear : ClearNames cards connections) (member : card ∈ cards)
    (own : anchor ∈ card.anchors) (kind : anchor.kind ≠ .input) :
    (∃ target, Leads cards connections (card.anchorPlace anchor) target) ↔
      Tapped cards connections card anchor := by
  constructor
  · rintro ⟨target, leads⟩
    generalize named : card.anchorPlace anchor = source at leads
    cases leads with
    | begin =>
        unfold Card.anchorPlace at named
        split at named
        all_goals
          have read := congrArg Family.read named
          simp at read
    | @input other slot known input =>
        obtain ⟨inside, other⟩ := Card.mem_anchorsOf.mp input
        have quiet : slot.kind ≠ .event := by rw [other]; decide
        obtain ⟨rfl, rfl⟩ := clear.anchor _ member _ own _ known _ inside
          (named.trans (if_neg quiet).symm)
        exact absurd other kind
    | @hand connection parties known found =>
        have ends := Connection.resolved_of_parties found
        rw [Connection.sourcePlace_of_parties found] at named
        obtain ⟨rfl, rfl⟩ := clear.anchor _ member _ own _ ends.sourceCard _ ends.source named
        exact ⟨connection, known, parties, found, rfl, rfl⟩
    | take => exact absurd named (card.anchorPlace_ne_splitPlace anchor _)
    | output | spread | bring =>
        unfold Card.anchorPlace at named
        split at named
        all_goals
          have places := congrArg namesPlace named
          simp at places
  · rintro ⟨connection, known, parties, found, rfl, rfl⟩
    have leads : Leads cards connections _ _ := .hand known found
    rw [Connection.sourcePlace_of_parties found] at leads
    exact ⟨_, leads⟩

end Leads

/-! ## Built graphs -/

namespace Graph.Built

variable {graph : Graph}

private theorem stood (built : graph.Built cards connections channel)
    (inward : Inward cards connections) (clear : ClearNames cards connections) {id : String} :
    id ∈ graph.net.places.names ↔
      ∃ fixture, Stands cards connections channel (.place id) fixture := by
  constructor
  · intro member
    obtain ⟨fixture, held⟩ := Option.ne_none_iff_exists'.mp
      (mt Circuit.fixture?_place_eq_none.mp (not_not.mpr member))
    exact ⟨fixture, (built.stands_iff inward clear).mp held⟩
  · rintro ⟨fixture, stands⟩
    exact Circuit.mem_places_of_held ((built.stands_iff inward clear).mpr stands)

/-- The places of a built graph. -/
theorem mem_places_iff (built : graph.Built cards connections channel)
    (inward : Inward cards connections) (clear : ClearNames cards connections) (id : String) :
    id ∈ graph.net.places.names ↔
      (∃ card ∈ cards, ∃ anchor ∈ card.anchors, card.anchorPlace anchor = id) ∨
      (∃ card ∈ cards, card.anchorsOf .input = [] ∧ card.startPlace = id) ∨
      ∃ connection ∈ connections, connection.Resolves cards ∧ connection.splitPlace = id := by
  rw [built.stood inward clear]
  constructor
  · rintro ⟨fixture, stands⟩
    cases stands with
    | anchor member own kind => exact .inl ⟨_, member, _, own, if_neg kind⟩
    | event member own kind => exact .inl ⟨_, member, _, own, if_pos kind⟩
    | start member none => exact .inr (.inl ⟨_, member, none, rfl⟩)
    | relay member found => exact .inr (.inr ⟨_, member, ⟨_, found⟩, rfl⟩)
  · rintro (⟨card, member, anchor, own, rfl⟩ | ⟨card, member, none, rfl⟩ |
      ⟨connection, member, ⟨parties, found⟩, rfl⟩)
    · by_cases kind : anchor.kind = .event
      · rw [Card.anchorPlace, if_pos kind]
        exact ⟨_, .event member own kind⟩
      · rw [Card.anchorPlace, if_neg kind]
        exact ⟨_, .anchor member own kind⟩
    · exact ⟨_, .start member none⟩
    · exact ⟨_, .relay member found⟩

/-- The transitions of a built graph. -/
theorem mem_transitions_iff (built : graph.Built cards connections channel)
    (inward : Inward cards connections) (clear : ClearNames cards connections) (id : String) :
    id ∈ graph.net.transitions.names ↔
      (∃ card ∈ cards, card.internalTransition = id) ∨
      ∃ connection ∈ connections, ∃ parties, connection.parties cards = .ok parties ∧
        (connection.handOver parties.source = id ∨ connection.transfer = id) := by
  have held : id ∈ graph.net.transitions.names ↔
      ∃ fixture, Stands cards connections channel (.transition id) fixture := by
    constructor
    · intro member
      obtain ⟨fixture, held⟩ := Option.ne_none_iff_exists'.mp
        (mt Circuit.fixture?_transition_eq_none.mp (not_not.mpr member))
      exact ⟨fixture, (built.stands_iff inward clear).mp held⟩
    · rintro ⟨fixture, stands⟩
      exact Circuit.mem_transitions_of_held ((built.stands_iff inward clear).mpr stands)
  rw [held]
  constructor
  · rintro ⟨fixture, stands⟩
    cases stands with
    | call member => exact .inl ⟨_, member, rfl⟩
    | handOver member found => exact .inr ⟨_, member, _, found, .inl rfl⟩
    | transfer member found => exact .inr ⟨_, member, _, found, .inr rfl⟩
  · rintro (⟨card, member, rfl⟩ | ⟨connection, member, parties, found, rfl | rfl⟩)
    · exact ⟨_, .call member⟩
    · exact ⟨_, .handOver member found⟩
    · exact ⟨_, .transfer member found⟩

/-- The entry places of a built graph. -/
theorem mem_entryPlaces_iff (built : graph.Built cards connections channel)
    (directed : Directed cards connections) (clear : ClearNames cards connections) (id : String) :
    id ∈ graph.net.entryPlaces ↔
      (∃ card ∈ cards, card.anchorsOf .input = [] ∧ card.startPlace = id) ∨
      ∃ card ∈ cards, ∃ anchor ∈ card.anchors, card.anchorPlace anchor = id ∧
        (anchor.kind = .event ∨ anchor.kind = .input ∧ ¬Fed cards connections card anchor) := by
  simp only [built.plain.mem_entryPlaces, built.mem_places_iff directed.inward clear,
    built.joins_iff clear, ← not_exists]
  constructor
  · rintro ⟨⟨card, member, anchor, own, rfl⟩ | ⟨card, member, none, rfl⟩ |
      ⟨connection, member, ⟨parties, found⟩, rfl⟩, free⟩
    · refine .inr ⟨card, member, anchor, own, rfl, ?_⟩
      cases kind : anchor.kind with
      | event => exact .inl rfl
      | input =>
          exact .inr ⟨rfl, fun fed => free ((Leads.to_input_iff clear member own kind directed).mpr fed)⟩
      | output =>
          refine absurd ⟨card.internalTransition, ?_⟩ free
          rw [Card.anchorPlace, if_neg (by rw [kind]; decide)]
          exact .output member (Card.mem_anchorsOf.mpr ⟨own, kind⟩)
    · exact .inl ⟨card, member, none, rfl⟩
    · exact absurd ⟨_, .spread member found⟩ free
  · rintro (⟨card, member, none, rfl⟩ | ⟨card, member, anchor, own, rfl, event | ⟨kind, unfed⟩⟩)
    · refine ⟨.inr (.inl ⟨card, member, none, rfl⟩), ?_⟩
      rintro ⟨source, leads⟩
      exact Leads.not_startPlace source card leads
    · refine ⟨.inl ⟨card, member, anchor, own, rfl⟩, ?_⟩
      rintro ⟨source, leads⟩
      exact leads.target_ne_eventPlace ⟨card.id, anchor.id⟩ (if_pos event)
    · exact ⟨.inl ⟨card, member, anchor, own, rfl⟩,
        fun leads => unfed ((Leads.to_input_iff clear member own kind directed).mp leads)⟩

/-- The exit places of a built graph. -/
theorem mem_exitPlaces_iff (built : graph.Built cards connections channel)
    (inward : Inward cards connections) (clear : ClearNames cards connections) (id : String) :
    id ∈ graph.net.exitPlaces ↔
      ∃ card ∈ cards, ∃ anchor ∈ card.anchors, card.anchorPlace anchor = id ∧
        anchor.kind ≠ .input ∧ ¬Tapped cards connections card anchor := by
  simp only [built.plain.mem_exitPlaces, built.mem_places_iff inward clear,
    built.joins_iff clear, ← not_exists]
  constructor
  · rintro ⟨⟨card, member, anchor, own, rfl⟩ | ⟨card, member, none, rfl⟩ |
      ⟨connection, member, ⟨parties, found⟩, rfl⟩, free⟩
    · have kind : anchor.kind ≠ .input := by
        intro kind
        refine free ⟨card.internalTransition, ?_⟩
        rw [Card.anchorPlace, if_neg (by rw [kind]; decide)]
        exact .input member (Card.mem_anchorsOf.mpr ⟨own, kind⟩)
      exact ⟨card, member, anchor, own, rfl, kind,
        fun tapped => free ((Leads.from_source_iff clear member own kind).mpr tapped)⟩
    · exact absurd ⟨_, .begin member none⟩ free
    · exact absurd ⟨_, .take member found⟩ free
  · rintro ⟨card, member, anchor, own, rfl, kind, untapped⟩
    exact ⟨.inl ⟨card, member, anchor, own, rfl⟩,
      fun leads => untapped ((Leads.from_source_iff clear member own kind).mp leads)⟩

end Graph.Built

namespace Graph

/-- A graph that was built consists of just what its cards and connections ask for. -/
theorem anatomy_of_build {graph : Graph} {mode : Mode} {config : GraphConfig}
    {globals : Option Values} {board after : Board} (directed : Directed cards config.connections)
    (clear : ClearNames cards config.connections)
    (succeeded : build mode config cards globals board = (.ok graph, after)) :
    graph.Anatomy cards config.connections := by
  have built := (built_of_build succeeded).1
  refine ⟨warnings_of_build succeeded, built.mem_places_iff directed.inward clear,
    built.mem_transitions_iff directed.inward clear, fun arc => ?_,
    built.plain.indexed.nodup_values, fun site fixture => ?_,
    built.mem_entryPlaces_iff directed clear, built.mem_exitPlaces_iff directed.inward clear⟩
  · rw [← built.joins_iff clear]
    constructor
    · intro member
      exact ⟨built.plain.weight arc member, built.plain.eq_of_mem member ▸ member⟩
    · rintro ⟨weight, joined⟩
      obtain ⟨source, target, _⟩ := arc
      obtain rfl : _ = 1 := weight
      exact joined
  · rw [built.channel_eq]
    exact built.stands_iff directed.inward clear

/-- The circuit of a description is a function of its cards and connections: when no ids clash
and connections lead from outputs and events to inputs, a graph for the visual mode can be built,
and it consists of just what the cards and the connections between known anchors ask for. -/
theorem exists_build_anatomy (config : GraphConfig) (cards : List Card)
    (clear : ClearNames cards config.connections) (directed : Directed cards config.connections)
    (globals : Option Values) (board : Board) :
    ∃ graph after, build .visual config cards globals board = (.ok graph, after) ∧
      graph.Anatomy cards config.connections := by
  have planned : ∀ graph : Graph, graph.Built cards config.connections board.nextSlot →
      graph.mode = .visual → graph.recompile.1 = .ok () := by
    intro graph _ mode
    rw [recompile_visual mode]
  obtain ⟨graph, after, built⟩ := exists_build directed.inward clear (fun _ member => member)
    globals board planned
  exact ⟨graph, after, built, anatomy_of_build directed clear built⟩

end Graph

namespace Rewired

/-- A connection to a card that there is not. -/
def astray : Connection := ⟨⟨"bell", "out"⟩, ⟨"desk", "in"⟩⟩

/-- The connections between the bell and the lamp, one of them listed again, and one that is left
out. -/
def listing : GraphConfig where
  name := "bell"
  connections := known ++ [astray, ⟨⟨"bell", "out"⟩, ⟨"lamp", "on"⟩⟩]

theorem directed : Directed seated.1 listing.connections := by
  have checked : ∀ connection ∈ listing.connections,
      (connection.parties seated.1).toOption.all
        (fun parties => parties.source.kind != .input && parties.target.kind == .input) = true := by
    decide +kernel
  intro connection member parties found
  simpa using Connection.of_all (checked connection member) found

theorem clear : ClearNames seated.1 listing.connections := by
  have within : ∀ connection ∈ listing.connections, connection ∈ known ++ [astray] := by decide
  have inward : Inward seated.1 (known ++ [astray]) := fun connection member =>
    directed.inward connection (List.append_subset.mpr
      ⟨List.subset_append_left _ _, fun _ one => List.mem_append_right _
        (List.mem_cons.mpr (.inl (List.mem_singleton.mp one)))⟩ member)
  refine ClearNames.restrict (.of_lists inward ?_ ?_ ?_ ?_ ?_ ?_) within <;> decide +kernel

end Rewired

/-- The bell and the lamp: of five connections listed, one is a repetition and one is left out. -/
theorem Graph.exists_build_anatomy_bell :
    ClearNames Rewired.seated.1 Rewired.listing.connections ∧
    Directed Rewired.seated.1 Rewired.listing.connections ∧
    ∃ graph after, build .visual Rewired.listing Rewired.seated.1 none Rewired.seated.2 =
        (.ok graph, after) ∧
      graph.Anatomy Rewired.seated.1 Rewired.listing.connections :=
  ⟨Rewired.clear, Rewired.directed,
    Graph.exists_build_anatomy Rewired.listing Rewired.seated.1 Rewired.clear Rewired.directed none
      Rewired.seated.2⟩

end CardNet
