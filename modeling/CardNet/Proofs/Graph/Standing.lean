import CardNet.Proofs.Graph.Merging
import CardNet.Proofs.Graph.Uprooting

/-!
# What cards and connections put into a circuit

Which place, transition or arc some cards and connections put where (`Stands`), without regard to
the edits that do it (`stands_iff`). With distinct ids no site is claimed twice
(`Stands.unique`), and what hands on from an anchor tells the anchor (`ClearNames.source_eq`). So
taking a connection away takes just what touches its transfer and the place before it, and with
the last connection of an anchor also what touches the transition that hands on
(`Stands.rest_iff`).
-/

namespace CardNet

/-! ## Standing -/

/-- The arcs that cards and connections put into a circuit. -/
inductive Leads (cards : List Card) (connections : List Connection) : String → String → Prop where
  | begin {card : Card} : card ∈ cards → card.anchorsOf .input = [] →
      Leads cards connections card.startPlace card.internalTransition
  | input {card : Card} {anchor : Anchor} : card ∈ cards → anchor ∈ card.anchorsOf .input →
      Leads cards connections (Endpoint.place ⟨card.id, anchor.id⟩) card.internalTransition
  | output {card : Card} {anchor : Anchor} : card ∈ cards → anchor ∈ card.anchorsOf .output →
      Leads cards connections card.internalTransition (Endpoint.place ⟨card.id, anchor.id⟩)
  | hand {connection : Connection} {parties : Connection.Parties} : connection ∈ connections →
      connection.parties cards = .ok parties →
      Leads cards connections (connection.sourcePlace parties.source)
        (connection.handOver parties.source)
  | spread {connection : Connection} {parties : Connection.Parties} : connection ∈ connections →
      connection.parties cards = .ok parties →
      Leads cards connections (connection.handOver parties.source) connection.splitPlace
  | take {connection : Connection} {parties : Connection.Parties} : connection ∈ connections →
      connection.parties cards = .ok parties →
      Leads cards connections connection.splitPlace connection.transfer
  | bring {connection : Connection} {parties : Connection.Parties} : connection ∈ connections →
      connection.parties cards = .ok parties →
      Leads cards connections connection.transfer connection.target.place

/-- What cards and connections put into a circuit, and where. -/
inductive Stands (cards : List Card) (connections : List Connection) (channel : Nat) :
    Site → Fixture → Prop where
  | anchor {card : Card} {anchor : Anchor} : card ∈ cards → anchor ∈ card.anchors →
      anchor.kind ≠ .event →
      Stands cards connections channel (.place (Endpoint.place ⟨card.id, anchor.id⟩))
        (.place .process (some (.anchor card.id anchor)))
  | event {card : Card} {anchor : Anchor} : card ∈ cards → anchor ∈ card.anchors →
      anchor.kind = .event →
      Stands cards connections channel (.place (Endpoint.eventPlace ⟨card.id, anchor.id⟩))
        (.place .process (some (.event card.id anchor)))
  | start {card : Card} : card ∈ cards → card.anchorsOf .input = [] →
      Stands cards connections channel (.place card.startPlace)
        (.place .start (some (.trigger card)))
  | relay {connection : Connection} {parties : Connection.Parties} : connection ∈ connections →
      connection.parties cards = .ok parties →
      Stands cards connections channel (.place connection.splitPlace) (.place .process (some .relay))
  | call {card : Card} : card ∈ cards →
      Stands cards connections channel (.transition card.internalTransition)
        (.transition (card.action channel))
  | handOver {connection : Connection} {parties : Connection.Parties} :
      connection ∈ connections → connection.parties cards = .ok parties →
      Stands cards connections channel (.transition (connection.handOver parties.source))
        (.transition .split)
  | transfer {connection : Connection} {parties : Connection.Parties} :
      connection ∈ connections → connection.parties cards = .ok parties →
      Stands cards connections channel (.transition connection.transfer)
        (.transition (.transfer parties.source parties.target))
  | arc {source target : String} : Leads cards connections source target →
      Stands cards connections channel (.arc (arcName source target)) (.arc ⟨source, target, 1⟩)

/-- The event places that connections want to be listened to. -/
def Heard (cards : List Card) (connections : List Connection) (place : String) : Prop :=
  ∃ connection ∈ connections, ∃ parties, connection.parties cards = .ok parties ∧
    parties.source.kind = .event ∧ parties.source.listens = true ∧
    connection.source.eventPlace = place

/-- A connection that is not left out, to an anchor that is no event. -/
def Connection.Lands (connection : Connection) (cards : List Card) : Prop :=
  ∃ parties, connection.parties cards = .ok parties ∧ parties.target.kind ≠ .event

/-- No connection leads to an event, unless it is left out. -/
def Inward (cards : List Card) (connections : List Connection) : Prop :=
  ∀ connection ∈ connections, ∀ parties, connection.parties cards = .ok parties →
    parties.target.kind ≠ .event

variable {cards : List Card} {connections : List Connection} {channel : Nat}

theorem Inward.of_lands (lands : ∀ connection ∈ connections, connection.Lands cards) :
    Inward cards connections := by
  intro connection member parties found
  obtain ⟨other, same, kind⟩ := lands connection member
  rwa [Except.ok.inj (found.symm.trans same)]

/-- What stands where is what the edits for cards and connections bring. -/
theorem stands_iff (inward : Inward cards connections) {site : Site}
    {fixture : Fixture} : Stands cards connections channel site fixture ↔
      ∃ edit ∈ drafts cards connections channel, edit.brings? = some (site, fixture) := by
  constructor
  · intro stands
    simp only [mem_drafts]
    cases stands with
    | anchor member slot kind => exact ⟨_, .inl ⟨_, member, .anchor slot kind⟩, rfl⟩
    | event member slot kind => exact ⟨_, .inl ⟨_, member, .event slot kind⟩, rfl⟩
    | start member none => exact ⟨_, .inl ⟨_, member, .start none⟩, rfl⟩
    | relay member found => exact ⟨_, .inr ⟨_, member, _, found, .relay⟩, rfl⟩
    | call member => exact ⟨_, .inl ⟨_, member, .call⟩, rfl⟩
    | handOver member found => exact ⟨_, .inr ⟨_, member, _, found, .handOver⟩, rfl⟩
    | transfer member found => exact ⟨_, .inr ⟨_, member, _, found, .transfer⟩, rfl⟩
    | arc leads =>
        cases leads with
        | begin member none => exact ⟨_, .inl ⟨_, member, .begin none⟩, rfl⟩
        | input member input => exact ⟨_, .inl ⟨_, member, .input input⟩, rfl⟩
        | output member output => exact ⟨_, .inl ⟨_, member, .output output⟩, rfl⟩
        | hand member found => exact ⟨_, .inr ⟨_, member, _, found, .hand⟩, rfl⟩
        | spread member found => exact ⟨_, .inr ⟨_, member, _, found, .spread⟩, rfl⟩
        | take member found => exact ⟨_, .inr ⟨_, member, _, found, .take⟩, rfl⟩
        | bring member found => exact ⟨_, .inr ⟨_, member, _, found, .bring⟩, rfl⟩
  · rintro ⟨edit, member, brought⟩
    rcases mem_drafts.mp member with ⟨card, known, brings⟩ | ⟨connection, known, parties, found, brings⟩
    · cases brings with
      | anchor slot kind => cases brought; exact .anchor known slot kind
      | event slot kind => cases brought; exact .event known slot kind
      | start none => cases brought; exact .start known none
      | call => cases brought; exact .call known
      | begin none => cases brought; exact .arc (.begin known none)
      | input input => cases brought; exact .arc (.input known input)
      | output output => cases brought; exact .arc (.output known output)
    · have ends := Connection.resolved_of_parties found
      cases brings with
      | source kind =>
          rw [ends.sourceEnd] at brought
          cases brought
          exact .anchor ends.sourceCard ends.source kind
      | event kind =>
          rw [ends.sourceEnd] at brought
          cases brought
          exact .event ends.sourceCard ends.source kind
      | listen kind => cases brought
      | target =>
          have kind := inward connection known parties found
          rw [ends.targetEnd] at brought
          cases brought
          exact .anchor ends.targetCard ends.target kind
      | handOver => cases brought; exact .handOver known found
      | relay => cases brought; exact .relay known found
      | transfer => cases brought; exact .transfer known found
      | hand => cases brought; exact .arc (.hand known found)
      | spread => cases brought; exact .arc (.spread known found)
      | take => cases brought; exact .arc (.take known found)
      | bring => cases brought; exact .arc (.bring known found)

/-- What is to be listened to is what the edits for connections listen to. -/
theorem heard_iff {place : String} : Heard cards connections place ↔
    ∃ card anchor, .listen card anchor ∈ drafts cards connections channel ∧
      anchor.listens = true ∧ Endpoint.eventPlace ⟨card, anchor.id⟩ = place := by
  constructor
  · rintro ⟨connection, known, parties, found, kind, listens, rfl⟩
    have ends := (Connection.resolved_of_parties found).sourceEnd
    exact ⟨_, _, mem_drafts.mpr (.inr ⟨connection, known, parties, found, .listen kind⟩), listens,
      by rw [ends]⟩
  · rintro ⟨card, anchor, member, listens, rfl⟩
    rcases mem_drafts.mp member with ⟨card, -, brings⟩ | ⟨connection, known, parties, found, brings⟩
    · cases brings
    · cases brings with
      | listen kind =>
          have ends := (Connection.resolved_of_parties found).sourceEnd
          exact ⟨connection, known, parties, found, kind, listens, by rw [ends]⟩

theorem Leads.mono {more : List Connection} {source target : String}
    (grown : ∀ connection ∈ connections, connection ∈ more) (leads : Leads cards connections source target) :
    Leads cards more source target := by
  cases leads with
  | begin member none => exact .begin member none
  | input member input => exact .input member input
  | output member output => exact .output member output
  | hand member found => exact .hand (grown _ member) found
  | spread member found => exact .spread (grown _ member) found
  | take member found => exact .take (grown _ member) found
  | bring member found => exact .bring (grown _ member) found

theorem Stands.mono {more : List Connection} {site : Site} {fixture : Fixture}
    (grown : ∀ connection ∈ connections, connection ∈ more)
    (stands : Stands cards connections channel site fixture) :
    Stands cards more channel site fixture := by
  cases stands with
  | anchor member slot kind => exact .anchor member slot kind
  | event member slot kind => exact .event member slot kind
  | start member none => exact .start member none
  | call member => exact .call member
  | relay member found => exact .relay (grown _ member) found
  | handOver member found => exact .handOver (grown _ member) found
  | transfer member found => exact .transfer (grown _ member) found
  | arc leads => exact .arc (leads.mono grown)

/-! ## Names that clash with no others -/

/-- The ids that are generated for cards, anchors, connections and arcs are distinct. -/
structure ClearNames (cards : List Card) (connections : List Connection) : Prop extends
    DistinctIds cards connections where
  anchor : ∀ first ∈ cards, ∀ one ∈ first.anchors, ∀ second ∈ cards, ∀ two ∈ second.anchors,
    first.anchorPlace one = second.anchorPlace two → first = second ∧ one = two
  arc : ∀ first second third fourth, Leads cards connections first second →
    Leads cards connections third fourth →
    arcName first second = arcName third fourth → first = third ∧ second = fourth

/-- No connection that starts from an anchor that is no event goes by the ids of an event. -/
def EventsApart (cards : List Card) (connections : List Connection) : Prop :=
  ∀ connection ∈ connections, ∀ parties, connection.parties cards = .ok parties →
    parties.source.kind ≠ .event → ∀ card ∈ cards, ∀ anchor ∈ card.anchors, anchor.kind = .event →
    connection.source.eventPlace ≠ Endpoint.eventPlace ⟨card.id, anchor.id⟩

private theorem Endpoint.place_eq (endpoint : Endpoint) :
    endpoint.place = Family.anchor.beginning ++ (endpoint.card ++ ("_" ++ endpoint.anchor)) := by
  rw [← String.append_assoc, ← String.append_assoc]
  rfl

private theorem Endpoint.eventPlace_eq (endpoint : Endpoint) :
    endpoint.eventPlace = Family.event.beginning ++ (endpoint.card ++ ("_" ++ endpoint.anchor)) := by
  rw [← String.append_assoc, ← String.append_assoc]
  rfl

private theorem Endpoint.eventTransition_eq (endpoint : Endpoint) :
    endpoint.eventTransition =
      "event_transition_" ++ (endpoint.card ++ ("_" ++ endpoint.anchor)) := by
  rw [← String.append_assoc, ← String.append_assoc]
  rfl

/-- The two nodes of an event are joined from the same text. -/
theorem Endpoint.eventTransition_inj {first second : Endpoint} :
    first.eventTransition = second.eventTransition ↔ first.eventPlace = second.eventPlace := by
  simp only [eventTransition_eq, eventPlace_eq, String.append_right_inj]

namespace Family

@[simp] theorem read_place (endpoint : Endpoint) : read endpoint.place = .anchor := by
  rw [endpoint.place_eq, read_append]

@[simp] theorem read_eventPlace (endpoint : Endpoint) : read endpoint.eventPlace = .event := by
  rw [endpoint.eventPlace_eq, read_append]

@[simp] theorem read_startPlace (card : Card) : read card.startPlace = .start :=
  read_name (.start card)

@[simp] theorem read_splitPlace (connection : Connection) :
    read connection.splitPlace = .relay :=
  read_name (.relay connection)

end Family

namespace Connection

variable (connection : Connection) (source : Anchor)

/-- What hands on is no call. -/
theorem internalTransition_ne_handOver (card : Card) :
    card.internalTransition ≠ connection.handOver source :=
  connection.handOver_ne source (show (Part.internal card).family ≠ _ ∧ _ from ⟨nofun, nofun⟩)

/-- What hands on is no transfer. -/
theorem transfer_ne_handOver (other : Connection) : other.transfer ≠ connection.handOver source :=
  connection.handOver_ne source (show (Part.transfer other).family ≠ _ ∧ _ from ⟨nofun, nofun⟩)

end Connection

namespace ClearNames

variable (clear : ClearNames cards connections)

include clear

/-- The start place of a card tells the card. -/
theorem card_of_startPlace {first second : Card} (left : first ∈ cards) (right : second ∈ cards)
    (same : first.startPlace = second.startPlace) : first = second := by
  refine clear.card first left second right ?_
  change (Part.internal first).name = (Part.internal second).name
  change (Part.start first).name = (Part.start second).name at same
  rw [Part.name_eq, Part.name_eq] at same ⊢
  exact congrArg (_ ++ ·) ((String.append_right_inj _).mp same)

/-- The place of an anchor that is no event tells the anchor. -/
theorem anchor_of_place {first second : Card} {one two : Anchor} (left : first ∈ cards)
    (own : one ∈ first.anchors) (kind : one.kind ≠ .event) (right : second ∈ cards)
    (other : two ∈ second.anchors) (otherKind : two.kind ≠ .event)
    (same : Endpoint.place ⟨first.id, one.id⟩ = Endpoint.place ⟨second.id, two.id⟩) :
    first = second ∧ one = two :=
  clear.anchor first left one own second right two other
    (by rwa [Card.anchorPlace, if_neg kind, Card.anchorPlace, if_neg otherKind])

/-- The place of an event tells the event. -/
theorem event_of_place {first second : Card} {one two : Anchor} (left : first ∈ cards)
    (own : one ∈ first.anchors) (kind : one.kind = .event) (right : second ∈ cards)
    (other : two ∈ second.anchors) (otherKind : two.kind = .event)
    (same : Endpoint.eventPlace ⟨first.id, one.id⟩ = Endpoint.eventPlace ⟨second.id, two.id⟩) :
    first = second ∧ one = two :=
  clear.anchor first left one own second right two other
    (by rwa [Card.anchorPlace, if_pos kind, Card.anchorPlace, if_pos otherKind])

/-- What hands on from an anchor tells the anchor. -/
theorem source_eq {first second : Connection} {one two : Connection.Parties}
    (left : first.parties cards = .ok one) (right : second.parties cards = .ok two)
    (same : first.handOver one.source = second.handOver two.source) :
    first.source = second.source := by
  have ends := Connection.resolved_of_parties left
  have others := Connection.resolved_of_parties right
  unfold Connection.handOver at same
  split at same <;> split at same
  · next kind otherKind =>
      rw [Endpoint.eventTransition_inj, ends.sourceEnd, others.sourceEnd] at same
      obtain ⟨cards, anchors⟩ := clear.event_of_place ends.sourceCard ends.source kind
        others.sourceCard others.source otherKind same
      rw [ends.sourceEnd, others.sourceEnd, cards, anchors]
  · have read := congrArg Family.read same
    rw [Family.read_eventTransition] at read
    exact nomatch read.trans (Family.read_name (.split second.source))
  · have read := congrArg Family.read same
    rw [Family.read_eventTransition] at read
    exact nomatch read.symm.trans (Family.read_name (.split first.source))
  · next kind otherKind =>
      have places : first.source.place = second.source.place :=
        (String.append_right_inj "split_transition_").mp same
      rw [ends.sourceEnd, others.sourceEnd] at places
      obtain ⟨cards, anchors⟩ := clear.anchor_of_place ends.sourceCard ends.source kind
        others.sourceCard others.source otherKind places
      rw [ends.sourceEnd, others.sourceEnd, cards, anchors]

end ClearNames

/-! ## Checking that names are clear -/

/-- The arcs of some cards and connections, by their ends. -/
def arcEnds (cards : List Card) (connections : List Connection) : List (String × String) :=
  (drafts cards connections 0).filterMap fun
    | .arc source target => some (source, target)
    | _ => none

theorem mem_arcEnds (inward : Inward cards connections) {source target : String}
    (leads : Leads cards connections source target) : (source, target) ∈ arcEnds cards connections := by
  have stands : Stands cards connections 0 _ _ := .arc leads
  obtain ⟨edit, member, brought⟩ := (stands_iff inward).mp stands
  refine List.mem_filterMap.mpr ⟨edit, member, ?_⟩
  cases edit with
  | arc =>
      have same := Fixture.arc.inj (Prod.mk.inj (Option.some.inj brought)).2
      cases same
      rfl
  | listen => cases brought
  | _ => cases (Prod.mk.inj (Option.some.inj brought)).1

/-- A condition on the cards and anchors of a connection that is not left out. -/
theorem Connection.of_any {connection : Connection} {meets : Parties → Bool}
    (any : (connection.parties cards).toOption.any meets = true) :
    ∃ parties, connection.parties cards = .ok parties ∧ meets parties = true := by
  obtain ⟨parties, found, holds⟩ := (Option.any_eq_true ..).mp any
  cases resolved : connection.parties cards with
  | ok others =>
      rw [resolved] at found
      exact ⟨others, rfl, Option.some.inj found ▸ holds⟩
  | error reason =>
      rw [resolved] at found
      cases found

/-- Names do not clash when lists of them have no repetition. -/
theorem ClearNames.of_lists {known : List Connection} (inward : Inward cards known)
    (card : (cards.map Card.internalTransition).Nodup)
    (anchor : (cards.flatMap fun card => card.anchors.map card.anchorPlace).Nodup)
    (id : (known.map Connection.id).Nodup) (relay : (known.map Connection.splitPlace).Nodup)
    (transfer : (known.map Connection.transfer).Nodup)
    (arc : ∀ one ∈ arcEnds cards known, ∀ two ∈ arcEnds cards known,
      arcName one.1 one.2 = arcName two.1 two.2 → one = two) : ClearNames cards known where
  card := fun _ first _ second same => List.inj_on_of_nodup_map card first second same
  connection := fun _ first _ second same => List.inj_on_of_nodup_map id first second same
  relay := fun _ first _ second _ _ same => List.inj_on_of_nodup_map relay first second same
  transfer := fun _ first _ second _ _ same => List.inj_on_of_nodup_map transfer first second same
  anchor := Card.eq_of_anchorPlace anchor
  arc := fun _ _ _ _ left right same =>
    Prod.mk.inj (arc _ (mem_arcEnds inward left) _ (mem_arcEnds inward right) same)

/-- A condition on the cards and anchors of a connection, if it is not left out. -/
theorem Connection.of_all {connection : Connection} {meets : Parties → Bool}
    (all : (connection.parties cards).toOption.all meets = true) {parties : Parties}
    (found : connection.parties cards = .ok parties) : meets parties = true := by
  rw [found] at all
  exact all

/-! ## One thing at a site -/

/-- The kind of parts that a place is for. -/
private def Site.placeFamily? : Site → Option Family
  | place id => some (Family.read id)
  | _ => none

/-- With distinct ids no two things stand at one site. -/
theorem Stands.unique (clear : ClearNames cards connections) {site : Site} {one two : Fixture}
    (left : Stands cards connections channel site one)
    (right : Stands cards connections channel site two) : one = two := by
  cases left with
  | anchor member own kind =>
      generalize named : Site.place _ = site at right
      cases right with
      | anchor other others otherKind =>
          obtain ⟨rfl, rfl⟩ := clear.anchor_of_place member own kind other others otherKind
            (Site.place.inj named)
          rfl
      | _ => exact absurd (congrArg Site.placeFamily? named) (by simp [Site.placeFamily?])
  | event member own kind =>
      generalize named : Site.place _ = site at right
      cases right with
      | event other others otherKind =>
          obtain ⟨rfl, rfl⟩ := clear.event_of_place member own kind other others otherKind
            (Site.place.inj named)
          rfl
      | _ => exact absurd (congrArg Site.placeFamily? named) (by simp [Site.placeFamily?])
  | start member none =>
      generalize named : Site.place _ = site at right
      cases right with
      | start other => rw [clear.card_of_startPlace member other (Site.place.inj named)]
      | _ => exact absurd (congrArg Site.placeFamily? named) (by simp [Site.placeFamily?])
  | relay member found =>
      generalize named : Site.place _ = site at right
      cases right with
      | relay => rfl
      | _ => exact absurd (congrArg Site.placeFamily? named) (by simp [Site.placeFamily?])
  | call member =>
      generalize named : Site.transition _ = site at right
      cases right with
      | call other => rw [clear.card _ member _ other (Site.transition.inj named)]
      | handOver => exact absurd (Site.transition.inj named) (Connection.internalTransition_ne_handOver _ _ _)
      | transfer => exact absurd (Site.transition.inj named) (Card.internalTransition_ne_transfer _ _)
      | _ => cases named
  | handOver =>
      generalize named : Site.transition _ = site at right
      cases right with
      | handOver => rfl
      | call => exact absurd (Site.transition.inj named).symm (Connection.internalTransition_ne_handOver _ _ _)
      | transfer => exact absurd (Site.transition.inj named).symm (Connection.transfer_ne_handOver _ _ _)
      | _ => cases named
  | transfer member found =>
      generalize named : Site.transition _ = site at right
      cases right with
      | transfer other others =>
          obtain rfl := clear.transfer _ member _ other ⟨_, found⟩ ⟨_, others⟩
            (Site.transition.inj named)
          rw [Except.ok.inj (found.symm.trans others)]
      | call => exact absurd (Site.transition.inj named).symm (Card.internalTransition_ne_transfer _ _)
      | handOver => exact absurd (Site.transition.inj named) (Connection.transfer_ne_handOver _ _ _)
      | _ => cases named
  | arc leads =>
      generalize named : Site.arc _ = site at right
      cases right with
      | arc other =>
          obtain ⟨rfl, rfl⟩ := clear.arc _ _ _ _ leads other (Site.arc.inj named)
          rfl
      | _ => cases named

/-! ## The text of an arc -/

/-- The text of an arc begins like its source. -/
private theorem Family.read_arcName {family : Family} {source rest : String} (target : String)
    (start : source = family.beginning ++ rest) : read (arcName source target) = family := by
  rw [arcName, start, String.append_assoc, String.append_assoc, read_append]

/-- Two arcs of one text between the two nodes of events lead between the same nodes. -/
private theorem Endpoint.eventPlace_of_text {first second : Endpoint}
    (text : arcName first.eventPlace first.eventTransition =
      arcName second.eventPlace second.eventTransition) : first.eventPlace = second.eventPlace := by
  have long := congrArg String.length text
  simp only [arcName, eventPlace_eq, eventTransition_eq, String.length_append] at long
  have joined := congrArg String.toList text
  simp only [arcName, String.toList_append, List.append_assoc] at joined
  refine String.toList_inj.mp (List.append_inj_left joined ?_)
  simp only [eventPlace_eq, String.toList_append, List.length_append, String.length_toList]
  omega

/-- Only what hands events on goes under the text of such an arc. -/
theorem Leads.event_of_text {source target : String} (leads : Leads cards connections source target)
    {endpoint : Endpoint}
    (text : arcName source target = arcName endpoint.eventPlace endpoint.eventTransition) :
    ∃ connection ∈ connections, ∃ parties, connection.parties cards = .ok parties ∧
      parties.source.kind = .event ∧ connection.source.eventPlace = endpoint.eventPlace := by
  have event := Family.read_arcName endpoint.eventTransition endpoint.eventPlace_eq
  rw [← text] at event
  have place : namesPlace (arcName source target) = true := by
    rw [text, arcName, endpoint.eventPlace_eq, String.append_assoc, String.append_assoc,
      namesPlace_beginning]
    rfl
  cases leads with
  | @begin card =>
      cases event.symm.trans (Family.read_arcName _ (Part.start card).name_eq)
  | input => cases event.symm.trans (Family.read_arcName _ (Endpoint.place_eq _))
  | @output card =>
      cases event.symm.trans (Family.read_arcName _ (Part.internal card).name_eq)
  | @hand connection parties member found =>
      by_cases kind : parties.source.kind = .event
      · rw [Connection.sourcePlace, Connection.handOver, if_pos kind, if_pos kind] at text
        exact ⟨connection, member, parties, found, kind, Endpoint.eventPlace_of_text text⟩
      · rw [Connection.sourcePlace, if_neg kind] at event
        cases event.symm.trans (Family.read_arcName _ (Endpoint.place_eq _))
  | @spread connection parties =>
      by_cases kind : parties.source.kind = .event
      · rw [Connection.handOver, if_pos kind, arcName, Endpoint.eventTransition_eq,
          String.append_assoc, String.append_assoc, namesPlace, String.toList_append] at place
        cases place
      · rw [Connection.handOver, if_neg kind] at event
        cases event.symm.trans (Family.read_arcName _ (Part.split connection.source).name_eq)
  | @take connection =>
      cases event.symm.trans (Family.read_arcName _ (Part.relay connection).name_eq)
  | @bring connection =>
      cases event.symm.trans (Family.read_arcName _ (Part.transfer connection).name_eq)

/-! ## Taking a connection away -/

/-- The nodes of some cards and connections. -/
def Stood (cards : List Card) (connections : List Connection) (id : String) : Prop :=
  ∃ channel fixture, Stands cards connections channel (.place id) fixture ∨
    Stands cards connections channel (.transition id) fixture

/-- An arc leads from a node to a node. -/
theorem Leads.stood (inward : Inward cards connections) {source target : String}
    (leads : Leads cards connections source target) :
    Stood cards connections source ∧ Stood cards connections target := by
  cases leads with
  | begin member none => exact ⟨⟨0, _, .inl (.start member none)⟩, 0, _, .inr (.call member)⟩
  | input member input =>
      obtain ⟨own, kind⟩ := Card.mem_anchorsOf.mp input
      exact ⟨⟨0, _, .inl (.anchor member own (by rw [kind]; decide))⟩, 0, _, .inr (.call member)⟩
  | output member output =>
      obtain ⟨own, kind⟩ := Card.mem_anchorsOf.mp output
      exact ⟨⟨0, _, .inr (.call member)⟩, 0, _, .inl (.anchor member own (by rw [kind]; decide))⟩
  | hand member found =>
      have ends := Connection.resolved_of_parties found
      refine ⟨?_, 0, _, .inr (.handOver member found)⟩
      unfold Connection.sourcePlace
      rw [ends.sourceEnd]
      split
      · next kind => exact ⟨0, _, .inl (.event ends.sourceCard ends.source kind)⟩
      · next kind => exact ⟨0, _, .inl (.anchor ends.sourceCard ends.source kind)⟩
  | spread member found =>
      exact ⟨⟨0, _, .inr (.handOver member found)⟩, 0, _, .inl (.relay member found)⟩
  | take member found =>
      exact ⟨⟨0, _, .inl (.relay member found)⟩, 0, _, .inr (.transfer member found)⟩
  | bring member found =>
      have ends := Connection.resolved_of_parties found
      rw [ends.targetEnd]
      exact ⟨⟨0, _, .inr (.transfer member found)⟩, 0, _,
        .inl (.anchor ends.targetCard ends.target (inward _ member _ found))⟩

namespace Connection

/-- The source of a connection is the anchor that its endpoint means. -/
theorem resolve?_source {connection : Connection} {parties : Parties}
    (found : connection.parties cards = .ok parties) :
    connection.source.resolve? cards = some parties.source := by
  unfold Connection.parties at found
  dsimp only at found
  split at found
  · next sourceFound targetFound =>
      split at found
      · next sourceAnchor targetAnchor =>
          obtain rfl := Except.ok.inj found
          rw [Endpoint.resolve?, sourceFound]
          exact sourceAnchor
      · cases found
  · cases found

/-- The target of a connection is the anchor that its endpoint means. -/
theorem resolve?_target {connection : Connection} {parties : Parties}
    (found : connection.parties cards = .ok parties) :
    connection.target.resolve? cards = some parties.target := by
  unfold Connection.parties at found
  dsimp only at found
  split at found
  · next sourceFound targetFound =>
      split at found
      · next sourceAnchor targetAnchor =>
          obtain rfl := Except.ok.inj found
          rw [Endpoint.resolve?, targetFound]
          exact targetAnchor
      · cases found
  · cases found

theorem source_of_parties {first second : Connection} {one two : Parties}
    (left : first.parties cards = .ok one) (right : second.parties cards = .ok two)
    (same : first.source = second.source) : one.source = two.source := by
  have start := resolve?_source left
  rw [same, resolve?_source right] at start
  exact (Option.some.inj start).symm

theorem target_of_parties {first second : Connection} {one two : Parties}
    (left : first.parties cards = .ok one) (right : second.parties cards = .ok two)
    (same : first.target = second.target) : one.target = two.target := by
  have start := resolve?_target left
  rw [same, resolve?_target right] at start
  exact (Option.some.inj start).symm

/-- Connections that start from one anchor share what hands on from it. -/
theorem handOver_eq {first second : Connection} {one two : Parties}
    (left : first.parties cards = .ok one) (right : second.parties cards = .ok two)
    (same : first.source = second.source) :
    first.handOver one.source = second.handOver two.source := by
  have split : first.splitTransition = second.splitTransition :=
    congrArg (fun source => s!"split_transition_{Endpoint.place source}") same
  rw [handOver, handOver, source_of_parties left right same, split, same]

theorem sourcePlace_eq {first second : Connection} {one two : Parties}
    (left : first.parties cards = .ok one) (right : second.parties cards = .ok two)
    (same : first.source = second.source) :
    first.sourcePlace one.source = second.sourcePlace two.source := by
  rw [sourcePlace, sourcePlace, source_of_parties left right same, same]

end Connection

section

variable {laid rest : List Connection} {connection : Connection} {parties : Connection.Parties}

/-- The nodes of other connections are none that belong to one connection alone, nor what hands
on from its source when no other connection starts there. -/
private theorem Stood.ne (clear : ClearNames cards laid) (member : connection ∈ laid)
    (found : connection.parties cards = .ok parties)
    (others : ∀ other, other ∈ rest ↔ other ∈ laid ∧ other ≠ connection) {id : String}
    (stood : Stood cards rest id) : id ≠ connection.transfer ∧ id ≠ connection.splitPlace ∧
      ((∀ other ∈ rest, other.source ≠ connection.source) →
        id ≠ connection.handOver parties.source) := by
  have placed : namesPlace id = true → id ≠ connection.transfer ∧
      id ≠ connection.handOver parties.source := by
    intro named
    constructor <;> rintro rfl <;> simp at named
  obtain ⟨channel, fixture, place | transition⟩ := stood
  · have named : namesPlace id = true := by cases place <;> simp
    refine ⟨(placed named).1, ?_, fun _ => (placed named).2⟩
    intro same
    have read := congrArg Family.read same
    cases place with
    | relay inside resolves =>
        obtain ⟨known, differ⟩ := (others _).mp inside
        exact differ (clear.relay _ known _ member ⟨_, resolves⟩ ⟨_, found⟩ same)
    | _ => simp at read
  · have named : namesPlace id = false := by cases transition <;> simp
    have relay : id ≠ connection.splitPlace := by
      rintro rfl
      simp at named
    cases transition with
    | @call card known =>
        exact ⟨card.internalTransition_ne_transfer connection, relay,
          fun _ => connection.internalTransition_ne_handOver parties.source card⟩
    | handOver inside resolves =>
        refine ⟨(Connection.transfer_ne_handOver _ _ connection).symm, relay, fun last same => ?_⟩
        exact last _ inside (clear.source_eq resolves found same)
    | transfer inside resolves =>
        obtain ⟨known, differ⟩ := (others _).mp inside
        refine ⟨fun same => ?_, relay, fun _ => connection.transfer_ne_handOver parties.source _⟩
        exact differ (clear.transfer _ known _ member ⟨_, resolves⟩ ⟨_, found⟩ same)

/-- What stands in a circuit touches none of the names that its nodes avoid. -/
theorem Stands.spares (inward : Inward cards rest) {id : String}
    (avoided : ∀ other, Stood cards rest other → other ≠ id) {site : Site} {fixture : Fixture}
    (stands : Stands cards rest channel site fixture) : site.Spares id fixture := by
  cases site with
  | place other => exact avoided other ⟨channel, fixture, .inl stands⟩
  | transition other => exact avoided other ⟨channel, fixture, .inr stands⟩
  | arc name =>
      cases stands with
      | arc leads =>
          obtain ⟨left, right⟩ := leads.stood inward
          exact ⟨avoided _ left, avoided _ right⟩

/-- Without one of its connections a circuit lacks what touches the transfer of the connection or
the place before it, and what touches the transition before that when no other connection starts
from the same anchor. Nothing else is missing. -/
theorem Stands.rest_iff (clear : ClearNames cards laid)
    (lands : ∀ connection ∈ laid, connection.Lands cards) (member : connection ∈ laid)
    (found : connection.parties cards = .ok parties)
    (others : ∀ other, other ∈ rest ↔ other ∈ laid ∧ other ≠ connection) {site : Site}
    {fixture : Fixture} : Stands cards rest channel site fixture ↔
      Stands cards laid channel site fixture ∧ site.Spares connection.transfer fixture ∧
        site.Spares connection.splitPlace fixture ∧
        ((∀ other ∈ rest, other.source ≠ connection.source) →
          site.Spares (connection.handOver parties.source) fixture) := by
  have stays : ∀ other, other ∈ laid → other ≠ connection → other ∈ rest :=
    fun other known differ => (others other).mpr ⟨known, differ⟩
  constructor
  · intro stands
    have inward : Inward cards rest :=
      fun other inside => Inward.of_lands lands other ((others other).mp inside).1
    have avoided := fun id (stood : Stood cards rest id) => stood.ne clear member found others
    exact ⟨stands.mono fun other inside => ((others other).mp inside).1,
      stands.spares inward fun id stood => (avoided id stood).1,
      stands.spares inward fun id stood => (avoided id stood).2.1,
      fun last => stands.spares inward fun id stood => (avoided id stood).2.2 last⟩
  · rintro ⟨stands, transfer, relay, handOver⟩
    -- Another connection from the same anchor needs what the connection hands on with, too.
    have shared : ¬site.Spares (connection.handOver parties.source) fixture →
        ∃ other ∈ rest, ∃ parties, other.parties cards = .ok parties ∧
          other.source = connection.source := by
      intro touched
      have more := mt handOver touched
      push Not at more
      obtain ⟨other, inside, same⟩ := more
      obtain ⟨ends, resolves, -⟩ := lands other ((others other).mp inside).1
      exact ⟨other, inside, ends, resolves, same⟩
    cases stands with
    | anchor known own kind => exact .anchor known own kind
    | event known own kind => exact .event known own kind
    | start known none => exact .start known none
    | call known => exact .call known
    | @relay other _ known resolves =>
        refine .relay (stays _ known ?_) resolves
        rintro rfl
        exact relay rfl
    | @transfer other _ known resolves =>
        refine .transfer (stays _ known ?_) resolves
        rintro rfl
        exact transfer rfl
    | @handOver other ends known resolves =>
        by_cases same : other = connection
        · subst same
          obtain rfl := Except.ok.inj (found.symm.trans resolves)
          obtain ⟨second, inside, others, further, start⟩ := shared fun spares => spares rfl
          rw [← Connection.handOver_eq further found start]
          exact .handOver inside further
        · exact .handOver (stays _ known same) resolves
    | arc leads =>
        refine .arc ?_
        cases leads with
        | begin known none => exact .begin known none
        | input known input => exact .input known input
        | output known output => exact .output known output
        | @hand other ends known resolves =>
            by_cases same : other = connection
            · subst same
              obtain rfl := Except.ok.inj (found.symm.trans resolves)
              obtain ⟨second, inside, others, further, start⟩ := shared fun spares => spares.2 rfl
              rw [← Connection.handOver_eq further found start,
                ← Connection.sourcePlace_eq further found start]
              exact .hand inside further
            · exact .hand (stays _ known same) resolves
        | @spread other _ known resolves =>
            refine .spread (stays _ known ?_) resolves
            rintro rfl
            exact relay.2 rfl
        | @take other _ known resolves =>
            refine .take (stays _ known ?_) resolves
            rintro rfl
            exact relay.1 rfl
        | @bring other _ known resolves =>
            refine .bring (stays _ known ?_) resolves
            rintro rfl
            exact transfer.1 rfl

end

end CardNet
