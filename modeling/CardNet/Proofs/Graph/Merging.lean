import CardNet.Proofs.Graph.Collisions

/-!
# Generated ids that clash

Ids are joined from the ids of cards and anchors and from titles, so that two cards or two
connections may get one id. Only places of anchors are guarded against this: a build that
succeeds keeps the first transition of an id and the last connection of an id, and never reports
that another one was dropped (`Graph.build_error`). So it keeps cards and connections apart just
when their ids are distinct (`Graph.build_separates_iff`).
-/

namespace CardNet

/-- A connection that is not left out. -/
def Connection.Resolves (connection : Connection) (cards : List Card) : Prop :=
  ∃ parties, connection.parties cards = .ok parties

/-- The ids that are generated for cards and connections are distinct. -/
structure DistinctIds (cards : List Card) (connections : List Connection) : Prop where
  card : ∀ first ∈ cards, ∀ second ∈ cards,
    first.internalTransition = second.internalTransition → first = second
  connection : ∀ first ∈ connections, ∀ second ∈ connections, first.id = second.id → first = second
  relay : ∀ first ∈ connections, ∀ second ∈ connections, first.Resolves cards →
    second.Resolves cards → first.splitPlace = second.splitPlace → first = second
  transfer : ∀ first ∈ connections, ∀ second ∈ connections, first.Resolves cards →
    second.Resolves cards → first.transfer = second.transfer → first = second

/-- A graph in which every card is called by a transition of its own, every connection is listed,
and every connection that is not left out has a place and a transfer of its own, which carries the
value of its own source over to its own target. -/
structure Graph.Separates (graph : Graph) (connections : List Connection) : Prop where
  card : ∀ card ∈ graph.cards,
    graph.net.transitions.get? card.internalTransition = some (card.action graph.channel)
  listed : ∀ connection ∈ connections, connection ∈ graph.connections.values
  relay : ∀ first ∈ connections, ∀ second ∈ connections, first.Resolves graph.cards →
    second.Resolves graph.cards → first.splitPlace = second.splitPlace → first = second
  transfer : ∀ first ∈ connections, ∀ second ∈ connections, first.Resolves graph.cards →
    second.Resolves graph.cards → first.transfer = second.transfer → first = second
  carries : ∀ connection ∈ connections, ∀ parties,
    connection.parties graph.cards = .ok parties →
    graph.net.transitions.get? connection.transfer =
      some (.transfer parties.source parties.target)

/-- The transition of a card tells the card. -/
theorem Card.action_injective {first second : Card} {channel : Nat}
    (same : first.action channel = second.action channel) : first = second := by
  unfold action at same
  split at same <;> split at same <;> cases same <;> rfl

/-- What hands on is neither a call nor a transfer. -/
theorem Connection.handOver_ne (connection : Connection) (source : Anchor) {part : Part}
    (other : part.family ≠ .split ∧ part.family ≠ .event) : part.name ≠ connection.handOver source := by
  intro same
  have read := congrArg Family.read same
  rw [Family.read_name, handOver] at read
  split at read
  · exact other.2 (read.trans (Family.read_eventTransition _))
  · exact other.1 (read.trans (Family.read_name (.split connection.source)))

/-- A call is no transfer. -/
theorem Card.internalTransition_ne_transfer (card : Card) (connection : Connection) :
    card.internalTransition ≠ connection.transfer := fun same =>
  nomatch Part.family_eq_of_name (show (Part.internal card).name = (Part.transfer connection).name
    from same)

namespace Graph

variable {graph : Graph} {mode : Mode} {config : GraphConfig} {cards : List Card}
  {globals : Option Values} {board after : Board} {connections : List Connection} {channel : Nat}

/-- A transition of a built graph does what the first edit for its name has brought, which is
no secret when all edits for the name bring the same. -/
theorem Built.transition_eq (built : graph.Built cards connections channel) {name : String}
    {action : Action} (brought : .transition name action ∈ drafts cards connections channel)
    (only : ∀ other, .transition name other ∈ drafts cards connections channel → other = action) :
    graph.net.transitions.get? name = some action := by
  rw [← Circuit.fixture?_transition_eq_some, built.fixture]
  cases first : (drafts cards connections channel).findSome?
      fun edit => edit.fixture? (.transition name) with
  | none =>
      have none := List.findSome?_eq_none_iff.mp first _ brought
      cases none.symm.trans (Edit.fixture?_eq_some.mpr rfl)
  | some fixture =>
      obtain ⟨edit, member, found⟩ := List.exists_of_findSome?_eq_some first
      cases edit with
      | transition _ other =>
          cases Edit.fixture?_eq_some.mp found
          rw [only other member]
      | _ => cases Edit.fixture?_eq_some.mp found

/-- A connection is listed under its id. -/
theorem Built.listed_iff (built : graph.Built cards connections channel)
    {connection : Connection} : connection ∈ graph.connections.values ↔
      graph.connections.get? connection.id = some connection := by
  refine Registry.mem_values_iff.trans ⟨?_, fun held => ⟨_, held⟩⟩
  rintro ⟨id, held⟩
  have found := held
  rw [built.registry, Registry.get?_enroll, Registry.get?_empty, Option.or_none] at found
  have named := List.find?_some found
  rw [beq_iff_eq] at named
  rwa [named]

/-- With distinct ids nothing is merged. -/
theorem Built.separates (built : graph.Built cards connections channel)
    (distinct : DistinctIds cards connections) : graph.Separates connections where
  card := by
    rw [built.cards_eq, built.channel_eq]
    intro card member
    refine built.transition_eq (mem_drafts.mpr (.inl ⟨card, member, .call⟩)) fun action brought => ?_
    generalize named : card.internalTransition = name at brought
    rcases mem_drafts.mp brought with ⟨other, known, here⟩ | ⟨other, -, parties, -, here⟩
    · cases here
      rw [distinct.card _ member _ known named]
    · cases here with
      | handOver => exact absurd named (other.handOver_ne parties.source
          (show (Part.internal card).family ≠ _ ∧ _ from ⟨nofun, nofun⟩))
      | transfer => exact absurd named (card.internalTransition_ne_transfer other)
  listed := by
    intro connection member
    rw [built.listed_iff, built.registry, Registry.get?_enroll, Registry.get?_empty,
      Option.or_none]
    have some : (connections.reverse.find? fun other => other.id == connection.id).isSome := by
      rw [List.find?_isSome]
      exact ⟨connection, List.mem_reverse.mpr member, beq_self_eq_true _⟩
    obtain ⟨other, found⟩ := Option.isSome_iff_exists.mp some
    have known := List.mem_reverse.mp (List.mem_of_find?_eq_some found)
    have named := List.find?_some found
    rw [found, distinct.connection _ known _ member (beq_iff_eq.mp named)]
  relay := built.cards_eq ▸ distinct.relay
  transfer := built.cards_eq ▸ distinct.transfer
  carries := by
    rw [built.cards_eq]
    intro connection member parties found
    refine built.transition_eq (mem_drafts.mpr
      (.inr ⟨connection, member, parties, found, .transfer⟩)) fun action brought => ?_
    generalize named : connection.transfer = name at brought
    rcases mem_drafts.mp brought with ⟨card, -, here⟩ | ⟨other, known, others, resolves, here⟩
    · cases here
      exact absurd named.symm (card.internalTransition_ne_transfer connection)
    · cases here with
      | handOver => exact absurd named (other.handOver_ne others.source
          (show (Part.transfer connection).family ≠ _ ∧ _ from ⟨nofun, nofun⟩))
      | transfer =>
          obtain rfl := distinct.transfer _ member _ known ⟨_, found⟩ ⟨_, resolves⟩ named
          rw [Except.ok.inj (found.symm.trans resolves)]

/-- What is not merged has ids of its own. -/
theorem Built.distinct (built : graph.Built cards connections channel)
    (separates : graph.Separates connections) : DistinctIds cards connections where
  card := by
    rw [← built.cards_eq]
    intro first left second right same
    have one := separates.card first left
    rw [same, separates.card second right] at one
    exact (Card.action_injective (Option.some.inj one)).symm
  connection := by
    intro first left second right same
    have one := built.listed_iff.mp (separates.listed first left)
    rw [same, built.listed_iff.mp (separates.listed second right)] at one
    exact (Option.some.inj one).symm
  relay := built.cards_eq ▸ separates.relay
  transfer := built.cards_eq ▸ separates.transfer

/-- Building reports no clash of ids but that of the places of anchors, and what it builds keeps
cards and connections apart just when their ids are distinct. -/
theorem build_separates_iff (mode : Mode) (config : GraphConfig) (cards : List Card)
    (globals : Option Values) (board : Board) :
    (∀ failure after, build mode config cards globals board = (.error failure, after) →
      failure.IsCollision ∨ mode = .function ∧ ∃ reason, failure = .region reason) ∧
    ∀ graph after, build mode config cards globals board = (.ok graph, after) →
      (graph.Separates config.connections ↔ DistinctIds cards config.connections) := by
  refine ⟨fun failure after => build_error, fun graph after succeeded => ?_⟩
  have built := (built_of_build succeeded).1
  exact ⟨built.distinct, built.separates⟩

end Graph

/-! ## Two cards and two connections that are merged -/

namespace Merged

/-- A card of an id and a title with some inputs and one output. -/
def design (id title : String) (inputs : List String) : CardDesign where
  id := id
  title := title
  anchors := inputs.map (⟨·, .input, none, none, false⟩) ++ [⟨"out", .output, none, none, false⟩]
  delay := 0
  work := .function fun arguments => .ok ((∅ : Values).insert "out" (.ofValues arguments))
  runtime := none

/-- Of the first two cards id and title are joined to one text, and so are the ids of a card and
an anchor of the last two. -/
def seated : List Card × Board :=
  Board.empty.seatAll [design "a" "b_c" [], design "a_b" "c" [], design "t-x" "t" ["in"],
    design "t" "t" ["x-in"]]

def config : GraphConfig where
  name := "merged"
  connections := [⟨⟨"a", "out"⟩, ⟨"t-x", "in"⟩⟩, ⟨⟨"a", "out"⟩, ⟨"t", "x-in"⟩⟩]

end Merged

namespace Graph

/-- Four cards with distinct ids and two connections between them are laid out with one call too
few, one transfer too few and one connection too few, and no error is reported. -/
theorem build_merges_silently :
    (Merged.seated.1.map Card.id).Nodup ∧
    (∀ card ∈ Merged.seated.1, (card.anchors.map Anchor.id).Nodup) ∧
    (∀ connection ∈ Merged.config.connections, connection.Resolves Merged.seated.1) ∧
    ∃ graph after, build .visual Merged.config Merged.seated.1 none Merged.seated.2 =
        (.ok graph, after) ∧
      graph.net.transitions.names = ["split_transition_place_a_out",
        "transfer_a-out_to_t-x-in", "internal_transition_a_b_c", "internal_transition_t-x_t",
        "internal_transition_t_t"] ∧
      graph.connections.names = ["a-out-t-x-in"] ∧
      ¬graph.Separates Merged.config.connections := by
  refine ⟨by decide +kernel, by decide +kernel, ?_, ?_⟩
  · have found : ∀ connection ∈ Merged.config.connections,
        (connection.parties Merged.seated.1).toOption.isSome = true := by decide +kernel
    intro connection member
    specialize found connection member
    rcases held : connection.parties Merged.seated.1 with reason | parties
    · rw [held] at found
      cases found
    · exact ⟨parties, held⟩
  · have names : (build .visual Merged.config Merged.seated.1 none Merged.seated.2).1.toOption.map
        (fun graph => (graph.net.transitions.names, graph.connections.names)) = some
          (["split_transition_place_a_out", "transfer_a-out_to_t-x-in",
            "internal_transition_a_b_c", "internal_transition_t-x_t",
            "internal_transition_t_t"], ["a-out-t-x-in"]) := by decide +kernel
    rcases built : build .visual Merged.config Merged.seated.1 none Merged.seated.2 with
      ⟨failure | graph, after⟩
    · rw [built] at names
      cases names
    · rw [built] at names
      obtain ⟨transitions, connections⟩ := Prod.mk.inj (Option.some.inj names)
      refine ⟨graph, after, rfl, transitions, connections, fun separates => ?_⟩
      have distinct := (built_of_build built).1.distinct separates
      have same := distinct.connection ⟨⟨"a", "out"⟩, ⟨"t-x", "in"⟩⟩ (by decide)
        ⟨⟨"a", "out"⟩, ⟨"t", "x-in"⟩⟩ (by decide) (by decide +kernel)
      exact absurd same (by decide)

end Graph

end CardNet
