import CardNet.Graph.Blueprint
import Mathlib.Data.List.Nodup

/-!
# The parts of a circuit

Behind every node of a circuit stands an anchor, a card or a connection (`Part`), and from these
the node has its name. The names of different kinds of parts never clash, because each kind has a
beginning of its own (`Family.read_name`). Two parts of one kind have different names as far as
the ids of cards, anchors and connections are joined to different texts (`DistinctNames`), and
then a part is known by its name (`Part.eq_of_name`).
-/

namespace CardNet

/-! ## The cards and anchors that a connection joins -/

namespace Card

variable {card : Card}

theorem mem_anchorsOf {kind : AnchorKind} {anchor : Anchor} :
    anchor ∈ card.anchorsOf kind ↔ anchor ∈ card.anchors ∧ anchor.kind = kind := by
  simp [anchorsOf]

/-- What the transition of a card does. -/
def action (card : Card) (channel : Nat) : Action :=
  if (card.anchorsOf .input).isEmpty then .start card channel else .call card

/-- The name of the place of an anchor. -/
def anchorPlace (card : Card) (anchor : Anchor) : String :=
  if anchor.kind = .event then Endpoint.eventPlace ⟨card.id, anchor.id⟩
  else Endpoint.place ⟨card.id, anchor.id⟩

/-- Anchors have places of their own when the list of all places has no repetition. -/
theorem eq_of_anchorPlace {cards : List Card}
    (nodup : (cards.flatMap fun card => card.anchors.map card.anchorPlace).Nodup) :
    ∀ first ∈ cards, ∀ one ∈ first.anchors, ∀ second ∈ cards, ∀ two ∈ second.anchors,
      first.anchorPlace one = second.anchorPlace two → first = second ∧ one = two := by
  intro first known one inside second known' two inside' same
  have pairs : (cards.flatMap fun card => card.anchors.map card.anchorPlace) =
      (cards.flatMap fun card => card.anchors.map fun slot => (card, slot)).map
        fun pair => pair.1.anchorPlace pair.2 := by
    simp [List.map_flatMap, Function.comp_def]
  rw [pairs] at nodup
  have member : ∀ card ∈ cards, ∀ slot ∈ card.anchors,
      (card, slot) ∈ cards.flatMap fun card => card.anchors.map fun slot => (card, slot) :=
    fun card known slot inside => List.mem_flatMap.mpr ⟨card, known, List.mem_map_of_mem inside⟩
  exact Prod.mk.inj (List.inj_on_of_nodup_map nodup (member first known one inside)
    (member second known' two inside') same)

end Card

namespace Connection

variable {connection : Connection} {cards : List Card} {parties : Parties}

/-- The cards and anchors of a connection have the ids that its endpoints give. -/
structure Resolved (connection : Connection) (cards : List Card) (parties : Parties) : Prop where
  sourceCard : parties.sourceCard ∈ cards
  source : parties.source ∈ parties.sourceCard.anchors
  sourceEnd : connection.source = ⟨parties.sourceCard.id, parties.source.id⟩
  targetCard : parties.targetCard ∈ cards
  target : parties.target ∈ parties.targetCard.anchors
  targetEnd : connection.target = ⟨parties.targetCard.id, parties.target.id⟩

theorem resolved_of_parties (found : connection.parties cards = .ok parties) :
    connection.Resolved cards parties := by
  unfold Connection.parties at found
  dsimp only at found
  split at found
  · next sourceCard targetCard sourceFound targetFound =>
      split at found
      · next source target sourceAnchor targetAnchor =>
          obtain rfl := Except.ok.inj found
          have sourceId := List.find?_some sourceFound
          have targetId := List.find?_some targetFound
          have sourceName := List.find?_some sourceAnchor
          have targetName := List.find?_some targetAnchor
          rw [beq_iff_eq] at sourceId targetId sourceName targetName
          refine ⟨List.mem_of_find?_eq_some sourceFound, List.mem_of_find?_eq_some sourceAnchor,
            ?_, List.mem_of_find?_eq_some targetFound, List.mem_of_find?_eq_some targetAnchor, ?_⟩
          · rw [sourceId, sourceName]
          · rw [targetId, targetName]
      · cases found
  · cases found

theorem find?_sourceCard (found : connection.parties cards = .ok parties) :
    cards.find? (fun card => card.id == connection.source.card) = some parties.sourceCard := by
  unfold Connection.parties at found
  dsimp only at found
  split at found
  · next sourceCard targetCard sourceFound targetFound =>
      split at found
      · obtain rfl := Except.ok.inj found
        exact sourceFound
      · cases found
  · cases found

/-- A connection of known cards between anchors that are no events. -/
structure Wires (connection : Connection) (cards : List Card) (parties : Parties) : Prop where
  found : connection.parties cards = .ok parties
  source : parties.source.kind ≠ .event
  target : parties.target.kind ≠ .event

theorem Wires.resolved (wires : connection.Wires cards parties) :
    connection.Resolved cards parties :=
  resolved_of_parties wires.found

theorem Wires.eq {other : Parties} (wires : connection.Wires cards parties)
    (same : connection.Wires cards other) : parties = other :=
  Except.ok.inj (wires.found.symm.trans same.found)

end Connection

/-! ## Parts -/

/-- What stands behind a node of a circuit. -/
inductive Part where
  /-- An anchor that is no event. -/
  | anchor (card : Card) (anchor : Anchor)
  /-- An anchor that is an event. -/
  | event (card : Card) (anchor : Anchor)
  /-- The start of a card without inputs. -/
  | start (card : Card)
  /-- The call of a card. -/
  | internal (card : Card)
  /-- The split behind an anchor. -/
  | split (source : Endpoint)
  /-- The place between a split and a transfer. -/
  | relay (connection : Connection)
  | transfer (connection : Connection)

namespace Part

/-- The name of the node. -/
def name : Part → String
  | anchor card slot => Endpoint.place ⟨card.id, slot.id⟩
  | event card slot => Endpoint.eventPlace ⟨card.id, slot.id⟩
  | start card => card.startPlace
  | internal card => card.internalTransition
  | split source => s!"split_transition_{source.place}"
  | relay connection => connection.splitPlace
  | transfer connection => connection.transfer

/-- What the node holds, when it is a place. -/
def content? : Part → Option Content
  | anchor card slot => some (.anchor card.id slot)
  | event card slot => some (.event card.id slot)
  | start card => some (.trigger card)
  | relay _ => some .relay
  | _ => none

/-- What the node does, when it is a transition. -/
def action? (cards : List Card) (channel : Nat) : Part → Option Action
  | internal card => some (card.action channel)
  | split _ => some .split
  | transfer connection => (connection.parties cards).toOption.map fun parties =>
      .transfer parties.source parties.target
  | _ => none

end Part

/-- The kinds of parts. -/
inductive Family where
  | anchor
  | event
  | start
  | internal
  | split
  | relay
  | transfer
deriving DecidableEq

/-- The kind of a part. -/
def Part.family : Part → Family
  | anchor _ _ => .anchor
  | event _ _ => .event
  | start _ => .start
  | internal _ => .internal
  | split _ => .split
  | relay _ => .relay
  | transfer _ => .transfer

/-- The kind of part that a name belongs to, by the letters in which the beginnings differ. -/
def Family.read (name : String) : Family :=
  match name.toList[0]? with
  | some 'p' => .anchor
  | some 'e' => .event
  | some 't' => .transfer
  | some 's' => if name.toList[6]? = some 'p' then .relay else .split
  | _ => if name.toList[9]? = some 'p' then .start else .internal

/-- The beginning that the names of a kind of parts share. -/
def Family.beginning : Family → String
  | anchor => "place_"
  | event => "event_place_"
  | start => "internal_place_"
  | internal => "internal_transition_"
  | split => "split_transition_"
  | relay => "split_place_"
  | transfer => "transfer_"

/-- What follows the beginning in the name of a part. -/
def Part.ending : Part → String
  | anchor card slot => card.id ++ ("_" ++ slot.id)
  | event card slot => card.id ++ ("_" ++ slot.id)
  | start card => card.id ++ ("_" ++ card.title)
  | internal card => card.id ++ ("_" ++ card.title)
  | split source => source.place
  | relay connection => connection.source.place ++ ("_" ++ connection.target.place)
  | transfer connection =>
      connection.source.card ++ ("-" ++ (connection.source.anchor ++
        ("_to_" ++ (connection.target.card ++ ("-" ++ connection.target.anchor)))))

private theorem append₄ (a b c d : String) : a ++ b ++ c ++ d = a ++ (b ++ (c ++ d)) := by
  rw [String.append_assoc, String.append_assoc]

private theorem append₈ (a b c d e f g h : String) :
    a ++ b ++ c ++ d ++ e ++ f ++ g ++ h =
      a ++ (b ++ (c ++ (d ++ (e ++ (f ++ (g ++ h)))))) := by
  simp only [String.append_assoc]

theorem Part.name_eq (part : Part) : part.name = part.family.beginning ++ part.ending := by
  cases part with
  | anchor card slot => exact append₄ ..
  | event card slot => exact append₄ ..
  | start card => exact append₄ ..
  | internal card => exact append₄ ..
  | split source => rfl
  | relay connection => exact append₄ ..
  | transfer connection => exact append₈ ..

theorem Family.read_append (family : Family) (rest : String) :
    Family.read (family.beginning ++ rest) = family := by
  cases family <;>
    · rw [Family.read, String.toList_append]
      rfl

/-- The kind of a part can be read off its name. -/
theorem Family.read_name (part : Part) : Family.read part.name = part.family := by
  rw [part.name_eq, Family.read_append]

theorem Part.family_eq_of_name {first second : Part} (same : first.name = second.name) :
    first.family = second.family := by
  rw [← Family.read_name, ← Family.read_name, same]

/-! ## The parts of some cards and connections -/

/-- The parts that cards and connections bring in. -/
inductive Present (cards : List Card) (connections : List Connection) : Part → Prop where
  | anchor {card : Card} {slot : Anchor} : card ∈ cards → slot ∈ card.anchors →
      slot.kind ≠ .event → Present cards connections (.anchor card slot)
  | event {card : Card} {slot : Anchor} : card ∈ cards → slot ∈ card.anchors →
      slot.kind = .event → Present cards connections (.event card slot)
  | start {card : Card} : card ∈ cards → card.anchorsOf .input = [] →
      Present cards connections (.start card)
  | internal {card : Card} : card ∈ cards → Present cards connections (.internal card)
  | split {connection : Connection} {parties : Connection.Parties} : connection ∈ connections →
      connection.Wires cards parties → Present cards connections (.split connection.source)
  | relay {connection : Connection} {parties : Connection.Parties} : connection ∈ connections →
      connection.Wires cards parties → Present cards connections (.relay connection)
  | transfer {connection : Connection} {parties : Connection.Parties} :
      connection ∈ connections → connection.Wires cards parties →
      Present cards connections (.transfer connection)

/-- The arcs that cards and connections bring in. -/
inductive Linked (cards : List Card) (connections : List Connection) : Part → Part → Prop where
  | start {card : Card} : card ∈ cards → card.anchorsOf .input = [] →
      Linked cards connections (.start card) (.internal card)
  | input {card : Card} {slot : Anchor} : card ∈ cards → slot ∈ card.anchorsOf .input →
      Linked cards connections (.anchor card slot) (.internal card)
  | output {card : Card} {slot : Anchor} : card ∈ cards → slot ∈ card.anchorsOf .output →
      Linked cards connections (.internal card) (.anchor card slot)
  | hand {connection : Connection} {parties : Connection.Parties} : connection ∈ connections →
      connection.Wires cards parties →
      Linked cards connections (.anchor parties.sourceCard parties.source)
        (.split connection.source)
  | spread {connection : Connection} {parties : Connection.Parties} : connection ∈ connections →
      connection.Wires cards parties →
      Linked cards connections (.split connection.source) (.relay connection)
  | take {connection : Connection} {parties : Connection.Parties} : connection ∈ connections →
      connection.Wires cards parties →
      Linked cards connections (.relay connection) (.transfer connection)
  | bring {connection : Connection} {parties : Connection.Parties} : connection ∈ connections →
      connection.Wires cards parties →
      Linked cards connections (.transfer connection)
        (.anchor parties.targetCard parties.target)

/-- Distinct cards, anchors, connections and arcs have distinct names. -/
structure DistinctNames (cards : List Card) (connections : List Connection) : Prop where
  card : ∀ first ∈ cards, ∀ second ∈ cards,
    first.internalTransition = second.internalTransition → first = second
  anchor : ∀ first ∈ cards, ∀ one ∈ first.anchors, ∀ second ∈ cards, ∀ two ∈ second.anchors,
    first.anchorPlace one = second.anchorPlace two → first = second ∧ one = two
  relay : ∀ first ∈ connections, ∀ second ∈ connections,
    first.splitPlace = second.splitPlace → first = second
  transfer : ∀ first ∈ connections, ∀ second ∈ connections,
    first.transfer = second.transfer → first = second
  arc : ∀ first second third fourth, Linked cards connections first second →
    Linked cards connections third fourth →
    arcName first.name second.name = arcName third.name fourth.name →
      first.name = third.name ∧ second.name = fourth.name

variable {cards : List Card} {connections : List Connection}

namespace Linked

variable {first second : Part}

theorem left (linked : Linked cards connections first second) :
    Present cards connections first := by
  cases linked with
  | start member none => exact .start member none
  | input member input =>
      obtain ⟨anchor, kind⟩ := Card.mem_anchorsOf.mp input
      exact .anchor member anchor (by rw [kind]; decide)
  | output member _ => exact .internal member
  | hand _ wires => exact .anchor wires.resolved.sourceCard wires.resolved.source wires.source
  | spread member wires => exact .split member wires
  | take member wires => exact .relay member wires
  | bring member wires => exact .transfer member wires

theorem right (linked : Linked cards connections first second) :
    Present cards connections second := by
  cases linked with
  | start member _ => exact .internal member
  | input member _ => exact .internal member
  | output member output =>
      obtain ⟨anchor, kind⟩ := Card.mem_anchorsOf.mp output
      exact .anchor member anchor (by rw [kind]; decide)
  | hand member wires => exact .split member wires
  | spread member wires => exact .relay member wires
  | take member wires => exact .transfer member wires
  | bring _ wires => exact .anchor wires.resolved.targetCard wires.resolved.target wires.target

variable {card : Card} {slot : Anchor} {part : Part}

/-- What leads to an anchor is its card or a transfer. -/
theorem into_anchor (linked : Linked cards connections part (.anchor card slot)) :
    part = .internal card ∧ slot ∈ card.anchorsOf .output ∨
      ∃ connection ∈ connections, ∃ parties, connection.Wires cards parties ∧
        part = .transfer connection ∧ parties.targetCard = card ∧ parties.target = slot := by
  cases linked with
  | output _ output => exact .inl ⟨rfl, output⟩
  | bring member wires => exact .inr ⟨_, member, _, wires, rfl, rfl, rfl⟩

/-- What an anchor leads to is its card or a split. -/
theorem from_anchor (linked : Linked cards connections (.anchor card slot) part) :
    part = .internal card ∧ slot ∈ card.anchorsOf .input ∨
      ∃ connection ∈ connections, ∃ parties, connection.Wires cards parties ∧
        part = .split connection.source ∧ parties.sourceCard = card ∧ parties.source = slot := by
  cases linked with
  | input _ input => exact .inl ⟨rfl, input⟩
  | hand member wires => exact .inr ⟨_, member, _, wires, rfl, rfl, rfl⟩

/-- What leads to a split is the anchor that it is behind. -/
theorem into_split {source : Endpoint} (linked : Linked cards connections part (.split source)) :
    ∃ connection ∈ connections, ∃ parties, connection.Wires cards parties ∧
      connection.source = source ∧ part = .anchor parties.sourceCard parties.source := by
  generalize split : Part.split source = target at linked
  cases linked with
  | hand member wires =>
      cases split
      exact ⟨_, member, _, wires, rfl, rfl⟩
  | _ => cases split

end Linked

namespace Part

/-- Whether the node of a part is a place. -/
def isPlace (part : Part) : Bool := part.content?.isSome

theorem isPlace_eq_of_name {first second : Part} (same : first.name = second.name) :
    first.isPlace = second.isPlace := by
  have family := family_eq_of_name same
  cases first <;> cases second <;> first | rfl | cases family

/-- A part is known by its name. -/
theorem eq_of_name (distinct : DistinctNames cards connections) {first second : Part}
    (left : Present cards connections first) (right : Present cards connections second)
    (same : first.name = second.name) : first = second := by
  have family := family_eq_of_name same
  have ending : first.ending = second.ending := by
    rw [name_eq, name_eq, family, String.append_right_inj] at same
    exact same
  cases left with
  | anchor firstCard firstAnchor firstKind =>
      cases right with
      | anchor secondCard secondAnchor secondKind =>
          obtain ⟨rfl, rfl⟩ := distinct.anchor _ firstCard _ firstAnchor _ secondCard _
            secondAnchor (by rwa [Card.anchorPlace, if_neg firstKind, Card.anchorPlace,
              if_neg secondKind])
          rfl
      | _ => cases family
  | event firstCard firstAnchor firstKind =>
      cases right with
      | event secondCard secondAnchor secondKind =>
          obtain ⟨rfl, rfl⟩ := distinct.anchor _ firstCard _ firstAnchor _ secondCard _
            secondAnchor (by rwa [Card.anchorPlace, if_pos firstKind, Card.anchorPlace,
              if_pos secondKind])
          rfl
      | _ => cases family
  | @start firstCard firstMember =>
      cases right with
      | @start secondCard secondMember =>
          have named : firstCard.internalTransition = secondCard.internalTransition := by
            change (internal firstCard).name = (internal secondCard).name
            rw [name_eq, name_eq]
            exact congrArg (_ ++ ·) ending
          rw [distinct.card _ firstMember _ secondMember named]
      | _ => cases family
  | internal firstMember =>
      cases right with
      | internal secondMember => rw [distinct.card _ firstMember _ secondMember same]
      | _ => cases family
  | split firstMember firstWires =>
      cases right with
      | @split other _ secondMember secondWires =>
          have one := firstWires.resolved
          have two := secondWires.resolved
          have places : _ = other.source.place := ending
          rw [one.sourceEnd, two.sourceEnd] at places ⊢
          obtain ⟨cards, anchors⟩ := distinct.anchor _ one.sourceCard _ one.source _
            two.sourceCard _ two.source (by rwa [Card.anchorPlace, if_neg firstWires.source,
              Card.anchorPlace, if_neg secondWires.source])
          rw [cards, anchors]
      | _ => cases family
  | relay firstMember =>
      cases right with
      | relay secondMember => rw [distinct.relay _ firstMember _ secondMember same]
      | _ => cases family
  | transfer firstMember =>
      cases right with
      | transfer secondMember => rw [distinct.transfer _ firstMember _ secondMember same]
      | _ => cases family

end Part

/-- The place of an anchor is none before a transfer. -/
theorem Card.anchorPlace_ne_splitPlace (card : Card) (anchor : Anchor) (connection : Connection) :
    card.anchorPlace anchor ≠ connection.splitPlace := by
  intro same
  unfold Card.anchorPlace at same
  split at same
  · exact nomatch Part.family_eq_of_name (show (Part.event card anchor).name =
      (Part.relay connection).name from same)
  · exact nomatch Part.family_eq_of_name (show (Part.anchor card anchor).name =
      (Part.relay connection).name from same)

end CardNet
