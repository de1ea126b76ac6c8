import CardNet.Proofs.Graph.Layout
import CardNet.Proofs.Graph.Play
import CardNet.Proofs.Net.Supply

/-!
# What transitions read and write

In a circuit that shows cards and connections, a transition writes an anchor exactly when an arc
leads from it to the place of the anchor (`Circuit.Draws.writes_iff`), and the place of every
anchor that it reads leads to it, at once or through a split (`Circuit.Draws.supplies`). So what
actions do to values can be followed along the arcs.
-/

namespace CardNet

/-- Distinct anchors of cards have values of their own. -/
def DistinctSlots (cards : List Card) : Prop :=
  ∀ first ∈ cards, ∀ one ∈ first.anchors, ∀ second ∈ cards, ∀ two ∈ second.anchors,
    one.slot = two.slot → first = second ∧ one = two

/-- A circuit that shows cards and the connections that are laid out between them. -/
abbrev Circuit.Draws (net : Circuit) (cards : List Card) (connections : List Connection)
    (channel : Nat) (laid : List Connection) : Prop :=
  net.Shows cards connections channel (Present cards laid) (Linked cards laid)

/-- The part that stands for an anchor. -/
def Part.ofAnchor (card : Card) (slot : Anchor) : Part :=
  if slot.kind = .event then .event card slot else .anchor card slot

@[simp] theorem Part.name_ofAnchor (card : Card) (slot : Anchor) :
    (Part.ofAnchor card slot).name = card.anchorPlace slot := by
  unfold ofAnchor Card.anchorPlace
  split <;> rfl

theorem Present.ofAnchor {cards : List Card} {connections : List Connection} {card : Card}
    {slot : Anchor} (known : card ∈ cards) (member : slot ∈ card.anchors) :
    Present cards connections (.ofAnchor card slot) := by
  unfold Part.ofAnchor
  split
  · next kind => exact .event known member kind
  · next kind => exact .anchor known member kind

/-- Whether an action writes the value at a slot. -/
def Action.Writes (action : Action) (slot : Nat) : Prop :=
  ∃ anchor ∈ action.writes, anchor.slot = slot

@[simp] theorem Card.reads_action (card : Card) (channel : Nat) :
    (card.action channel).reads = card.anchorsOf .input := by
  unfold action
  split <;> rfl

@[simp] theorem Card.writes_action (card : Card) (channel : Nat) :
    (card.action channel).writes = card.anchorsOf .output := by
  unfold action
  split <;> rfl

@[simp] theorem Card.card?_action (card : Card) (channel : Nat) :
    (card.action channel).card? = some card := by
  unfold action
  split <;> rfl

theorem Card.functional_action {card : Card} {run : Values → Except String Values}
    (work : card.work = .function run) (channel : Nat) : (card.action channel).Functional := by
  unfold action
  split <;> exact ⟨run, work⟩

namespace Circuit.Draws

variable {net : Circuit} {cards : List Card} {connections laid : List Connection} {channel : Nat}
  {id : String} {action : Action}

/-- A transition calls a card, splits, or carries over what a connection connects. -/
theorem transition_cases (draws : net.Draws cards connections channel laid)
    (found : net.transitions.get? id = some action) :
    (∃ card ∈ cards, id = card.internalTransition ∧ action = card.action channel) ∨
    (∃ connection ∈ laid, ∃ parties, connection.Wires cards parties ∧
      id = (Part.split connection.source).name ∧ action = .split) ∨
    ∃ connection ∈ laid, ∃ parties, connection.Wires cards parties ∧
      id = connection.transfer ∧ action = .transfer parties.source parties.target := by
  obtain ⟨part, present, rfl, acts⟩ := (draws.transition id action).mp found
  cases present with
  | anchor => cases acts
  | event => cases acts
  | start => cases acts
  | relay => cases acts
  | internal known =>
      cases acts
      exact .inl ⟨_, known, rfl, rfl⟩
  | split member wires =>
      cases acts
      exact .inr (.inl ⟨_, member, _, wires, rfl, rfl⟩)
  | transfer member wires =>
      rw [Part.action?, wires.found] at acts
      cases acts
      exact .inr (.inr ⟨_, member, _, wires, rfl, rfl⟩)

/-- An arc joins two nodes exactly when their parts are linked. -/
theorem joins_iff (draws : net.Draws cards connections channel laid)
    (distinct : DistinctNames cards connections) {first second : Part}
    (left : Present cards connections first) (right : Present cards connections second) :
    net.Joins first.name second.name ↔ Linked cards laid first second := by
  rw [draws.arc]
  refine ⟨fun ⟨one, two, linked, source, target⟩ => ?_,
    fun linked => ⟨first, second, linked, rfl, rfl⟩⟩
  obtain ⟨leftEnd, rightEnd⟩ := draws.ends one two linked
  obtain rfl := Part.eq_of_name distinct (draws.present _ leftEnd) left source
  obtain rfl := Part.eq_of_name distinct (draws.present _ rightEnd) right target
  exact linked

/-- A transition writes just the anchors whose places an arc leads to. -/
theorem writes_iff (draws : net.Draws cards connections channel laid)
    (distinct : DistinctNames cards connections) (slots : DistinctSlots cards)
    (found : net.transitions.get? id = some action) {card : Card} {slot : Anchor}
    (known : card ∈ cards) (member : slot ∈ card.anchors) :
    action.Writes slot.slot ↔ net.Joins id (card.anchorPlace slot) := by
  have place : Present cards connections (.ofAnchor card slot) := .ofAnchor known member
  rcases draws.transition_cases found with
    ⟨caller, knownCaller, rfl, rfl⟩ | ⟨connection, laidOut, parties, wires, rfl, rfl⟩ |
      ⟨connection, laidOut, parties, wires, rfl, rfl⟩
  · rw [← Part.name_ofAnchor, show caller.internalTransition = (Part.internal caller).name from rfl,
      draws.joins_iff distinct (.internal knownCaller) place, Action.Writes, Card.writes_action]
    constructor
    · rintro ⟨written, output, same⟩
      obtain ⟨inside, kind⟩ := Card.mem_anchorsOf.mp output
      obtain ⟨rfl, rfl⟩ := slots caller knownCaller written inside card known slot member same
      rw [Part.ofAnchor, if_neg (by rw [kind]; decide)]
      exact .output known output
    · intro linked
      unfold Part.ofAnchor at linked
      split at linked
      · cases linked
      · cases linked with
        | output _ output => exact ⟨slot, output, rfl⟩
  · rw [← Part.name_ofAnchor, draws.joins_iff distinct (draws.present _ (.split laidOut wires))
      place]
    constructor
    · rintro ⟨written, none, -⟩
      cases none
    · intro linked
      generalize connection.source = source at linked
      unfold Part.ofAnchor at linked
      split at linked <;> cases linked
  · rw [← Part.name_ofAnchor, show connection.transfer = (Part.transfer connection).name from rfl,
      draws.joins_iff distinct (draws.present _ (.transfer laidOut wires)) place]
    have ends := wires.resolved
    constructor
    · rintro ⟨written, only, same⟩
      obtain rfl := List.mem_singleton.mp only
      obtain ⟨rfl, rfl⟩ := slots _ ends.targetCard _ ends.target card known slot member same
      rw [Part.ofAnchor, if_neg wires.target]
      exact .bring laidOut wires
    · intro linked
      unfold Part.ofAnchor at linked
      split at linked
      · cases linked
      · cases linked with
        | bring other wires' =>
            obtain rfl := wires.eq wires'
            exact ⟨_, List.mem_singleton_self _, rfl⟩

/-- What a transition writes are anchors of the cards. -/
theorem exists_card_of_writes (draws : net.Draws cards connections channel laid)
    (found : net.transitions.get? id = some action) {slot : Anchor}
    (written : slot ∈ action.writes) : ∃ card ∈ cards, slot ∈ card.anchors := by
  rcases draws.transition_cases found with
    ⟨card, known, rfl, rfl⟩ | ⟨connection, laidOut, parties, wires, rfl, rfl⟩ |
      ⟨connection, laidOut, parties, wires, rfl, rfl⟩
  · rw [Card.writes_action] at written
    exact ⟨card, known, (Card.mem_anchorsOf.mp written).1⟩
  · cases written
  · obtain rfl := List.mem_singleton.mp written
    exact ⟨_, wires.resolved.targetCard, wires.resolved.target⟩

/-- The places of the anchors that a transition reads lead to it. -/
theorem supplies (draws : net.Draws cards connections channel laid)
    (distinct : DistinctNames cards connections)
    (found : net.transitions.get? id = some action) {slot : Anchor}
    (read : slot ∈ action.reads) :
    ∃ card ∈ cards, slot ∈ card.anchors ∧ net.Supplies (card.anchorPlace slot) id := by
  rcases draws.transition_cases found with
    ⟨card, known, rfl, rfl⟩ | ⟨connection, laidOut, parties, wires, rfl, rfl⟩ |
      ⟨connection, laidOut, parties, wires, rfl, rfl⟩
  · rw [Card.reads_action] at read
    obtain ⟨inside, kind⟩ := Card.mem_anchorsOf.mp read
    refine ⟨card, known, inside, .inl ((draws.arc _ _).mpr ?_)⟩
    refine ⟨.anchor card slot, .internal card, .input known read, ?_, rfl⟩
    rw [Card.anchorPlace, if_neg (by rw [kind]; decide)]
    rfl
  · cases read
  · obtain rfl := List.mem_singleton.mp read
    have ends := wires.resolved
    refine ⟨_, ends.sourceCard, ends.source, .inr ⟨(Part.split connection.source).name,
      connection.splitPlace, (draws.arc _ _).mpr ?_, (draws.arc _ _).mpr ?_,
      (draws.arc _ _).mpr ?_, fun other joined => ?_⟩⟩
    · refine ⟨_, _, .hand laidOut wires, ?_, rfl⟩
      rw [Card.anchorPlace, if_neg wires.source]
      rfl
    · exact ⟨_, _, .spread laidOut wires, rfl, rfl⟩
    · exact ⟨_, _, .take laidOut wires, rfl, rfl⟩
    · obtain ⟨first, second, linked, rfl, same⟩ := (draws.arc _ _).mp joined
      obtain rfl := Part.eq_of_name distinct
        (draws.present _ (draws.ends _ _ linked).2) (draws.present _ (.relay laidOut wires)) same
      cases linked with
      | spread => rfl

/-- The transition of a function card and all others do no scripted work. -/
theorem functional (draws : net.Draws cards connections channel laid)
    (functions : ∀ card ∈ cards, ∃ run, card.work = .function run)
    (found : net.transitions.get? id = some action) : action.Functional := by
  rcases draws.transition_cases found with
    ⟨card, known, rfl, rfl⟩ | ⟨_, _, _, _, rfl, rfl⟩ | ⟨_, _, _, _, rfl, rfl⟩
  · obtain ⟨run, work⟩ := functions card known
    exact Card.functional_action work channel
  · trivial
  · trivial

end Circuit.Draws

end CardNet
