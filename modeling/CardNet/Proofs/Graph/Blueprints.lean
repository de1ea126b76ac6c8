import CardNet.Proofs.Graph.Parts

/-!
# What blueprints are made of

The edits that the blueprint of a card and that of a connection consist of, one case for each
kind (`Card.mem_blueprint`, `Connection.mem_blueprint`).
-/

namespace CardNet

/-- The edits for a card. -/
inductive Card.Brings (card : Card) (channel : Nat) : Edit → Prop where
  | anchor {anchor : Anchor} : anchor ∈ card.anchors → anchor.kind ≠ .event →
      Brings card channel (.anchorPlace card.id anchor)
  | event {anchor : Anchor} : anchor ∈ card.anchors → anchor.kind = .event →
      Brings card channel (.eventPlace card.id anchor)
  | start : card.anchorsOf .input = [] →
      Brings card channel (.place card.startPlace ⟨.start, 1, some (.trigger card)⟩)
  | call : Brings card channel (.transition card.internalTransition (card.action channel))
  | begin : card.anchorsOf .input = [] →
      Brings card channel (.arc card.startPlace card.internalTransition)
  | input {anchor : Anchor} : anchor ∈ card.anchorsOf .input →
      Brings card channel (.arc (Endpoint.place ⟨card.id, anchor.id⟩) card.internalTransition)
  | output {anchor : Anchor} : anchor ∈ card.anchorsOf .output →
      Brings card channel (.arc card.internalTransition (Endpoint.place ⟨card.id, anchor.id⟩))

namespace Card

variable {card : Card} {channel : Nat} {edit : Edit}

private theorem mem_inputEdits : edit ∈ card.inputEdits channel ↔
    edit = .transition card.internalTransition (card.action channel) ∨
      (card.anchorsOf .input = [] ∧
        (edit = .place card.startPlace ⟨.start, 1, some (.trigger card)⟩ ∨
          edit = .arc card.startPlace card.internalTransition)) ∨
      ∃ anchor ∈ card.anchorsOf .input, edit = .anchorPlace card.id anchor ∨
        edit = .arc (Endpoint.place ⟨card.id, anchor.id⟩) card.internalTransition := by
  unfold inputEdits action
  cases inputs : card.anchorsOf .input with
  | nil => simp [or_left_comm]
  | cons first rest => simp [or_assoc]

/-- The blueprint of a card consists of the edits for the card. -/
theorem mem_blueprint : edit ∈ card.blueprint channel ↔ card.Brings channel edit := by
  rw [blueprint, List.mem_append, List.mem_append, mem_inputEdits]
  simp only [List.mem_flatMap, List.mem_map, List.mem_cons, List.not_mem_nil, or_false]
  constructor
  · rintro (((rfl | ⟨none, rfl | rfl⟩ | ⟨anchor, input, rfl | rfl⟩) |
      ⟨anchor, output, rfl | rfl⟩) | ⟨anchor, event, rfl⟩)
    · exact .call
    · exact .start none
    · exact .begin none
    · have held := mem_anchorsOf.mp input
      exact .anchor held.1 (by rw [held.2]; decide)
    · exact .input input
    · have held := mem_anchorsOf.mp output
      exact .anchor held.1 (by rw [held.2]; decide)
    · exact .output output
    · have held := mem_anchorsOf.mp event
      exact .event held.1 held.2
  · intro brings
    cases brings with
    | @anchor anchor member kind =>
        cases same : anchor.kind with
        | input => exact .inl (.inl (.inr (.inr ⟨_, mem_anchorsOf.mpr ⟨member, same⟩, .inl rfl⟩)))
        | output => exact .inl (.inr ⟨_, mem_anchorsOf.mpr ⟨member, same⟩, .inl rfl⟩)
        | event => exact absurd same kind
    | event member kind => exact .inr ⟨_, mem_anchorsOf.mpr ⟨member, kind⟩, rfl⟩
    | start none => exact .inl (.inl (.inr (.inl ⟨none, .inl rfl⟩)))
    | call => exact .inl (.inl (.inl rfl))
    | begin none => exact .inl (.inl (.inr (.inl ⟨none, .inr rfl⟩)))
    | input input => exact .inl (.inl (.inr (.inr ⟨_, input, .inr rfl⟩)))
    | output output => exact .inl (.inr ⟨_, output, .inr rfl⟩)

end Card

/-- The edits for a connection alone. -/
inductive Connection.Brings (connection : Connection) (source target : Anchor) : Edit → Prop where
  | source : source.kind ≠ .event →
      Brings connection source target (.anchorPlace connection.source.card source)
  | event : source.kind = .event →
      Brings connection source target (.eventPlace connection.source.card source)
  | listen : source.kind = .event →
      Brings connection source target (.listen connection.source.card source)
  | target : Brings connection source target (.anchorPlace connection.target.card target)
  | handOver : Brings connection source target (.transition (connection.handOver source) .split)
  | relay : Brings connection source target
      (.place connection.splitPlace ⟨.process, 0, some .relay⟩)
  | transfer :
      Brings connection source target (.transition connection.transfer (.transfer source target))
  | hand : Brings connection source target
      (.arc (connection.sourcePlace source) (connection.handOver source))
  | spread : Brings connection source target
      (.arc (connection.handOver source) connection.splitPlace)
  | take : Brings connection source target (.arc connection.splitPlace connection.transfer)
  | bring : Brings connection source target (.arc connection.transfer connection.target.place)

/-- The blueprint of a connection consists of the edits for the connection. -/
theorem Connection.mem_blueprint {connection : Connection} {source target : Anchor}
    {edit : Edit} : edit ∈ connection.blueprint source target ↔
      connection.Brings source target edit := by
  simp only [blueprint, sourceEdits, List.mem_append, List.mem_cons, List.not_mem_nil, or_false]
  constructor
  · rintro (start | rfl | rfl | rfl | rfl | rfl | rfl | rfl | rfl)
    · split at start
      · next kind =>
          simp only [List.mem_cons, List.not_mem_nil, or_false] at start
          rcases start with rfl | rfl
          · exact .event kind
          · exact .listen kind
      · next kind => exact List.mem_singleton.mp start ▸ .source kind
    · exact .target
    · exact .handOver
    · exact .relay
    · exact .transfer
    · exact .hand
    · exact .spread
    · exact .take
    · exact .bring
  · intro brings
    cases brings with
    | source kind => simp [kind]
    | event kind => simp [kind]
    | listen kind => simp [kind]
    | _ => simp

end CardNet
