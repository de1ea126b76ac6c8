import CardNet.Proofs.Graph.FailedEdits
import CardNet.Proofs.Graph.Standing

/-!
# Places of anchors

A place is bound by the ids of a card and an anchor. So a build that succeeds has a place for every
anchor that is bound to the ids of this anchor, and two anchors with different ids are never given
one place. But of two anchors with the same ids the one that is laid out first keeps the place, and
the other shares it, without an error. A graph houses every anchor in a place of its own just when
no two anchors of a kind of places have the same ids (`Graph.build_houses_iff`).
-/

namespace CardNet

/-- What the place of an anchor is to hold. -/
def Card.content (card : Card) (anchor : Anchor) : Content :=
  if anchor.kind = .event then .event card.id anchor else .anchor card.id anchor

/-- A graph in which the place of every anchor holds this anchor, so that no two anchors share a
place, and connections lead to the anchors that they name. -/
structure Graph.Houses (graph : Graph) (cards : List Card) (connections : List Connection) :
    Prop where
  own : ∀ card ∈ cards, ∀ anchor ∈ card.anchors,
    graph.net.content? (card.anchorPlace anchor) = some (card.content anchor)
  apart : ∀ first ∈ cards, ∀ one ∈ first.anchors, ∀ second ∈ cards, ∀ two ∈ second.anchors,
    first.anchorPlace one = second.anchorPlace two → first.id = second.id ∧ one = two
  target : ∀ connection ∈ connections, ∀ parties, connection.parties cards = .ok parties →
    graph.net.content? connection.target.place =
      some (.anchor connection.target.card parties.target)

/-- The ids of a card and an anchor tell the anchor, among the events and among the others. An
event that a connection leads to counts among the others, too. -/
structure OwnIds (cards : List Card) (connections : List Connection) : Prop where
  anchor : ∀ first ∈ cards, ∀ one ∈ first.anchors, ∀ second ∈ cards, ∀ two ∈ second.anchors,
    first.id = second.id → one.id = two.id → (one.kind = .event ↔ two.kind = .event) → one = two
  target : ∀ connection ∈ connections, ∀ parties, connection.parties cards = .ok parties →
    parties.target.kind = .event → ∀ card ∈ cards, ∀ anchor ∈ card.anchors,
    anchor.kind ≠ .event → connection.target ≠ ⟨card.id, anchor.id⟩

namespace Card

variable {first second card : Card} {one two anchor : Anchor}

@[simp] theorem endpoint?_content : (card.content anchor).endpoint? = some ⟨card.id, anchor.id⟩ := by
  unfold content
  split <;> rfl

@[simp] theorem anchor?_content : (card.content anchor).anchor? = some anchor := by
  unfold content
  split <;> rfl

theorem content_eq (ids : first.id = second.id) (same : one = two) :
    first.content one = second.content two := by
  rw [content, content, ids, same]

/-- What a place is to hold tells the anchor, and the id of the card. -/
theorem content_inj (same : first.content one = second.content two) :
    first.id = second.id ∧ one = two := by
  unfold content at same
  split at same <;> split at same
  · exact Content.event.inj same
  · cases same
  · cases same
  · exact Content.anchor.inj same

/-- The place of an event has another name than the place of an anchor that is none. -/
theorem event_iff_of_anchorPlace (same : first.anchorPlace one = second.anchorPlace two) :
    one.kind = .event ↔ two.kind = .event := by
  unfold anchorPlace at same
  have read := congrArg Family.read same
  split at read <;> split at read <;> simp_all only [Family.read_place, Family.read_eventPlace, reduceCtorEq]

theorem quiet_of_anchorPlace {endpoint : Endpoint} (same : card.anchorPlace anchor = endpoint.place) :
    anchor.kind ≠ .event := by
  intro event
  rw [anchorPlace, if_pos event] at same
  have read := congrArg Family.read same
  simp at read

theorem anchorPlace_eq (ids : first.id = second.id) (same : one.id = two.id)
    (kinds : one.kind = .event ↔ two.kind = .event) :
    first.anchorPlace one = second.anchorPlace two := by
  simp only [anchorPlace, kinds, ids, same]

end Card

namespace Connection

variable {connection : Connection} {cards : List Card} {parties : Parties}

theorem targetPlace_of_parties (found : connection.parties cards = .ok parties)
    (kind : parties.target.kind ≠ .event) :
    connection.target.place = parties.targetCard.anchorPlace parties.target := by
  rw [Card.anchorPlace, if_neg kind, (resolved_of_parties found).targetEnd]

theorem target_content (found : connection.parties cards = .ok parties)
    (kind : parties.target.kind ≠ .event) :
    Content.anchor connection.target.card parties.target =
      parties.targetCard.content parties.target := by
  rw [Card.content, if_neg kind, (resolved_of_parties found).targetEnd]

end Connection

/-- What an edit for a card binds to an anchor is the place of an anchor of the card. -/
theorem Card.Brings.holds {card : Card} {channel : Nat} {edit : Edit} {id : String}
    {kind : PlaceKind} {content : Content} {endpoint : Endpoint}
    (brings : card.Brings channel edit)
    (brought : edit.brings? = some (.place id, .place kind (some content)))
    (bound : content.endpoint? = some endpoint) :
    ∃ anchor ∈ card.anchors, card.anchorPlace anchor = id ∧ card.content anchor = content := by
  cases brings with
  | anchor member kind =>
      cases brought
      exact ⟨_, member, if_neg kind, if_neg kind⟩
  | event member kind =>
      cases brought
      exact ⟨_, member, if_pos kind, if_pos kind⟩
  | start => cases brought; cases bound
  | _ => cases brought

/-- What an edit for a connection binds to an anchor is the place of its source or of its
target. -/
theorem Connection.Brings.holds {connection : Connection} {cards : List Card} {parties : Parties}
    {edit : Edit} {id : String} {kind : PlaceKind} {content : Content} {endpoint : Endpoint}
    (brings : connection.Brings parties.source parties.target edit)
    (found : connection.parties cards = .ok parties)
    (brought : edit.brings? = some (.place id, .place kind (some content)))
    (bound : content.endpoint? = some endpoint) :
    (parties.sourceCard.anchorPlace parties.source = id ∧
      parties.sourceCard.content parties.source = content) ∨
    (connection.target.place = id ∧ .anchor connection.target.card parties.target = content) := by
  have ends := resolved_of_parties found
  cases brings with
  | source kind =>
      rw [ends.sourceEnd] at brought
      cases brought
      exact .inl ⟨if_neg kind, if_neg kind⟩
  | event kind =>
      rw [ends.sourceEnd] at brought
      cases brought
      exact .inl ⟨if_pos kind, if_pos kind⟩
  | target =>
      rw [ends.targetEnd] at brought ⊢
      cases brought
      exact .inr ⟨rfl, rfl⟩
  | relay => cases brought; cases bound
  | _ => cases brought

namespace Graph

variable {graph : Graph} {cards : List Card} {connections : List Connection} {channel : Nat}

/-- What is bound to an anchor in a built graph is the place of an anchor of a card, or the place
of an event that a connection leads to. -/
theorem Built.origin (built : graph.Built cards connections channel) {id : String}
    {content : Content} {endpoint : Endpoint} (held : graph.net.content? id = some content)
    (bound : content.endpoint? = some endpoint) :
    (∃ card ∈ cards, ∃ anchor ∈ card.anchors, card.anchorPlace anchor = id ∧
      card.content anchor = content) ∨
    ∃ connection ∈ connections, ∃ parties, connection.parties cards = .ok parties ∧
      parties.target.kind = .event ∧ connection.target.place = id ∧
      .anchor connection.target.card parties.target = content := by
  obtain ⟨place, found, shown⟩ := Option.bind_eq_some_iff.mp held
  have stands : graph.net.fixture? (.place id) = some (.place place.kind (some content)) := by
    rw [Circuit.fixture?, found, ← shown]
    rfl
  rw [built.fixture] at stands
  obtain ⟨edit, member, here⟩ := List.exists_of_findSome?_eq_some stands
  have brought := Edit.fixture?_eq_some.mp here
  rcases mem_drafts.mp member with ⟨card, known, brings⟩ | ⟨connection, known, parties, resolved, brings⟩
  · exact .inl ⟨card, known, brings.holds brought bound⟩
  · have ends := Connection.resolved_of_parties resolved
    rcases brings.holds resolved brought bound with source | ⟨named, holds⟩
    · exact .inl ⟨_, ends.sourceCard, _, ends.source, source⟩
    · by_cases kind : parties.target.kind = .event
      · exact .inr ⟨connection, known, parties, resolved, kind, named, holds⟩
      · refine .inl ⟨_, ends.targetCard, _, ends.target, ?_, ?_⟩
        · exact (Connection.targetPlace_of_parties resolved kind).symm.trans named
        · exact (Connection.target_content resolved kind).symm.trans holds

/-- A place that is bound holds something that is bound to the same ids. -/
theorem exists_content {id : String} {endpoint : Endpoint}
    (bound : graph.net.boundTo? id = some endpoint) :
    ∃ content, graph.net.content? id = some content ∧ content.endpoint? = some endpoint :=
  Option.bind_eq_some_iff.mp bound

/-- With ids of their own all anchors are housed. -/
theorem Built.houses (built : graph.Built cards connections channel)
    (ids : OwnIds cards connections) : graph.Houses cards connections := by
  have own : ∀ card ∈ cards, ∀ anchor ∈ card.anchors,
      graph.net.content? (card.anchorPlace anchor) = some (card.content anchor) := by
    intro card member anchor slot
    have seated := built.seated.bound card (built.cards_eq ▸ member) anchor slot
    obtain ⟨content, held, bound⟩ := exists_content seated
    rw [held]
    rcases built.origin held bound with ⟨other, known, two, inside, named, rfl⟩ |
      ⟨connection, known, parties, found, kind, named, rfl⟩
    · obtain ⟨cardIds, anchorIds⟩ := Endpoint.mk.inj
        (Option.some.inj (Card.endpoint?_content.symm.trans bound))
      rw [Card.content_eq cardIds (ids.anchor other known two inside card member anchor slot cardIds
        anchorIds (Card.event_iff_of_anchorPlace named))]
    · have ends := Connection.resolved_of_parties found
      have quiet := Card.quiet_of_anchorPlace named.symm
      refine absurd ?_ (ids.target connection known parties found kind card member anchor slot quiet)
      rw [← Option.some.inj bound, ends.targetEnd]
  refine ⟨own, ?_, ?_⟩
  · intro first left one inside second right two inside' same
    have held := own first left one inside
    rw [same, own second right two inside'] at held
    exact Card.content_inj (Option.some.inj held.symm)
  · intro connection member parties found
    have ends := Connection.resolved_of_parties found
    by_cases kind : parties.target.kind = .event
    · have wanted := built.bound _ (mem_drafts.mpr (.inr ⟨connection, member, parties, found,
        .target⟩)) _ _ rfl
      rw [ends.targetEnd] at wanted ⊢
      obtain ⟨content, held, bound⟩ := exists_content wanted
      rw [held]
      rcases built.origin held bound with ⟨card, known, anchor, slot, named, rfl⟩ |
        ⟨other, known, others, resolved, event, named, rfl⟩
      · have quiet := Card.quiet_of_anchorPlace named
        refine absurd ?_ (ids.target connection member parties found kind card known anchor slot quiet)
        rw [ends.targetEnd]
        exact (Option.some.inj (Card.endpoint?_content.symm.trans bound)).symm
      · have others' := Connection.resolved_of_parties resolved
        have same : other.target = connection.target := by
          rw [ends.targetEnd, ← Option.some.inj bound, others'.targetEnd]
        rw [Connection.target_of_parties resolved found same, same, ends.targetEnd]
    · rw [Connection.targetPlace_of_parties found kind, Connection.target_content found kind]
      exact own _ ends.targetCard _ ends.target

/-- Anchors that are housed have ids of their own. -/
theorem Houses.ownIds (houses : graph.Houses cards connections) : OwnIds cards connections where
  anchor := fun first left one inside second right two inside' ids same kinds =>
    (houses.apart first left one inside second right two inside'
      (Card.anchorPlace_eq ids same kinds)).2
  target := by
    intro connection member parties found kind card known anchor slot quiet same
    have held := houses.target connection member parties found
    have own := houses.own card known anchor slot
    rw [Card.anchorPlace, if_neg quiet, ← same, held, Card.content, if_neg quiet] at own
    obtain ⟨-, anchors⟩ := Content.anchor.inj (Option.some.inj own)
    exact quiet (anchors ▸ kind)

/-- When building fails, a place is bound to the ids of another anchor, or there is no order to run
the cards in. When it succeeds, the place of every anchor is bound to the ids of this anchor, and
all anchors are housed just when they have ids of their own: a place that is bound to the same ids
is never refused. -/
theorem build_houses_iff (mode : Mode) (config : GraphConfig) (cards : List Card)
    (globals : Option Values) (board : Board) :
    (∀ failure after, build mode config cards globals board = (.error failure, after) →
      failure.IsCollision ∨ mode = .function ∧ ∃ reason, failure = .region reason) ∧
    ∀ graph after, build mode config cards globals board = (.ok graph, after) →
      (∀ card ∈ cards, ∀ anchor ∈ card.anchors,
        graph.net.boundTo? (card.anchorPlace anchor) = some ⟨card.id, anchor.id⟩) ∧
      (graph.Houses cards config.connections ↔ OwnIds cards config.connections) := by
  refine ⟨fun failure after => build_error, fun graph after succeeded => ?_⟩
  have built := (built_of_build succeeded).1
  exact ⟨built.cards_eq ▸ built.seated.bound, Houses.ownIds, built.houses⟩

end Graph

/-! ## Two anchors with the same ids -/

namespace Shared

/-- A card with a title and one output. -/
def design (title : String) : CardDesign where
  id := "x"
  title := title
  anchors := [⟨"out", .output, none, none, false⟩]
  delay := 0
  work := .function fun _ => .ok ((∅ : Values).insert "out" (.text title))
  runtime := none

/-- Two cards with one id and different titles. -/
def seated : List Card × Board := Board.empty.seatAll [design "t1", design "t2"]

end Shared

namespace Graph

/-- Two cards with distinct generated ids: both outputs get one place, which holds that of the
first card, and no error is reported. -/
theorem build_shares_silently :
    (Shared.seated.1.map Card.internalTransition).Nodup ∧
    (Shared.seated.1.flatMap fun card => card.anchors.map fun anchor =>
      (card.anchorPlace anchor, anchor.slot)) = [("place_x_out", 1), ("place_x_out", 3)] ∧
    ∃ graph after, build .visual ⟨"n", []⟩ Shared.seated.1 none Shared.seated.2 =
        (.ok graph, after) ∧
      ((graph.net.content? "place_x_out").bind Content.anchor?).map Anchor.slot = some 1 ∧
      ¬graph.Houses Shared.seated.1 [] := by
  refine ⟨by decide +kernel, by decide +kernel, ?_⟩
  have held : (build .visual ⟨"n", []⟩ Shared.seated.1 none Shared.seated.2).1.toOption.bind
      (fun graph => ((graph.net.content? "place_x_out").bind Content.anchor?).map Anchor.slot) =
        some 1 := by decide +kernel
  rcases built : build .visual ⟨"n", []⟩ Shared.seated.1 none Shared.seated.2 with
    ⟨failure | graph, after⟩
  · rw [built] at held
    cases held
  · rw [built] at held
    refine ⟨graph, after, rfl, held, fun houses => ?_⟩
    have named : ∀ card ∈ Shared.seated.1, ∀ anchor ∈ card.anchors,
        card.anchorPlace anchor = "place_x_out" := by decide +kernel
    have shared : ∀ card ∈ Shared.seated.1, ∀ anchor ∈ card.anchors, anchor.slot = 1 := by
      intro card member anchor slot
      have own := houses.own card member anchor slot
      change ((graph.net.content? "place_x_out").bind Content.anchor?).map Anchor.slot = some 1 at held
      rw [named card member anchor slot] at own
      rw [own, Option.bind_some, Card.anchor?_content] at held
      exact Option.some.inj held
    exact absurd shared (by decide +kernel)

end Graph

end CardNet
