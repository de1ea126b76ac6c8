import CardNet.Proofs.Graph.Planning
import CardNet.Proofs.Net.ArcTexts
import CardNet.Proofs.Net.Restoration

/-!
# Where transitions write

However a graph was built, edited and run: a place that shows an anchor is the place of this anchor,
and from a transition that may write an anchor an arc leads to the place of the anchor
(`Bench.Reached.aimed`). The arcs can be told by their texts only, so this is said of names without
arrows. What is laid out for a card or a connection comes with its arcs, and what is taken out
leaves all arcs between the nodes that are left (`Circuit.Retains`).
-/

namespace CardNet

/-- A circuit in which the places that show anchors of some cards are the places of these anchors,
and in which transitions write such anchors only and lead to their places. -/
structure Circuit.Aimed (net : Circuit) (cards : List Card) : Prop where
  place : ∀ id card anchor, net.content? id = some (.anchor card anchor) →
    id = Endpoint.place ⟨card, anchor.id⟩ ∧
      ∃ owner ∈ cards, owner.id = card ∧ anchor ∈ owner.anchors
  write : ∀ id action, net.transitions.get? id = some action → ∀ anchor ∈ action.writes,
    ∃ card ∈ cards, anchor ∈ card.anchors ∧ (ArrowFree id →
      ArrowFree (Endpoint.place ⟨card.id, anchor.id⟩) →
        net.Joins id (Endpoint.place ⟨card.id, anchor.id⟩))

/-! ## Laying out -/

/-- Edits that bring places for anchors of some cards only, and with each transition the arcs to the
places of what it may write. -/
structure Edit.Aims (cards : List Card) (edits : List Edit) : Prop where
  anchor : ∀ card anchor, .anchorPlace card anchor ∈ edits →
    ∃ owner ∈ cards, owner.id = card ∧ anchor ∈ owner.anchors
  place : ∀ id held, .place id held ∈ edits → ∀ card anchor,
    held.content ≠ some (.anchor card anchor)
  write : ∀ id action, .transition id action ∈ edits → ∀ anchor ∈ action.writes,
    ∃ card ∈ cards, anchor ∈ card.anchors ∧
      .arc id (Endpoint.place ⟨card.id, anchor.id⟩) ∈ edits

namespace Edit.Aims

variable {cards : List Card}

theorem flatMap {α : Type} {items : List α} {edits : α → List Edit}
    (aims : ∀ item ∈ items, Aims cards (edits item)) : Aims cards (items.flatMap edits) where
  anchor := by
    intro card anchor member
    obtain ⟨item, inside, drafted⟩ := List.mem_flatMap.mp member
    exact (aims item inside).anchor card anchor drafted
  place := by
    intro id held member
    obtain ⟨item, inside, drafted⟩ := List.mem_flatMap.mp member
    exact (aims item inside).place id held drafted
  write := by
    intro id action member anchor written
    obtain ⟨item, inside, drafted⟩ := List.mem_flatMap.mp member
    obtain ⟨card, known, slot, arc⟩ := (aims item inside).write id action drafted anchor written
    exact ⟨card, known, slot, List.mem_flatMap.mpr ⟨item, inside, arc⟩⟩

theorem append {first second : List Edit} (left : Aims cards first) (right : Aims cards second) :
    Aims cards (first ++ second) := by
  have both : Aims cards ([first, second].flatMap id) := flatMap fun edits member => by
    simp only [List.mem_cons, List.not_mem_nil, or_false] at member
    rcases member with rfl | rfl
    · exact left
    · exact right
  simpa using both

/-- The edits for a card aim. -/
theorem blueprint {card : Card} (known : card ∈ cards) (channel : Nat) :
    Aims cards (card.blueprint channel) where
  anchor := by
    intro id anchor member
    cases Card.mem_blueprint.mp member with
    | anchor slot => exact ⟨card, known, rfl, slot⟩
  place := by
    intro id held member
    cases Card.mem_blueprint.mp member with
    | start => exact nofun
  write := by
    intro id action member anchor written
    cases Card.mem_blueprint.mp member with
    | call =>
        rw [Card.writes_action] at written
        exact ⟨card, known, (Card.mem_anchorsOf.mp written).1,
          Card.mem_blueprint.mpr (.output written)⟩

/-- The edits for a connection and the cards that it joins aim. -/
theorem draft (connection : Connection) (cards : List Card) (channel : Nat) :
    Aims cards (connection.draft cards channel) := by
  unfold Connection.draft
  split
  · next parties found =>
      have ends := Connection.resolved_of_parties found
      refine .append (.append ⟨?_, ?_, ?_⟩ (blueprint ends.sourceCard channel))
        (blueprint ends.targetCard channel)
      · intro card anchor member
        cases Connection.mem_blueprint.mp member with
        | source => exact ⟨_, ends.sourceCard, by rw [ends.sourceEnd], ends.source⟩
        | target => exact ⟨_, ends.targetCard, by rw [ends.targetEnd], ends.target⟩
      · intro id held member
        cases Connection.mem_blueprint.mp member with
        | relay => exact nofun
      · intro id action member anchor written
        cases Connection.mem_blueprint.mp member with
        | handOver => cases written
        | transfer =>
            obtain rfl := List.mem_singleton.mp written
            refine ⟨_, ends.targetCard, ends.target, ?_⟩
            rw [← ends.targetEnd]
            exact Connection.mem_blueprint.mpr .bring
  · exact ⟨nofun, nofun, nofun⟩

theorem drafts (cards : List Card) (connections : List Connection) (channel : Nat) :
    Aims cards (drafts cards connections channel) :=
  .append (.flatMap fun connection _ => draft connection cards channel)
    (.flatMap fun _ known => blueprint known channel)

end Edit.Aims

namespace Circuit

variable {net after : Circuit} {cards : List Card} {edits : List Edit}

theorem fixture?_of_content? {id : String} {content : Content}
    (held : net.content? id = some content) :
    ∃ kind, net.fixture? (.place id) = some (.place kind (some content)) := by
  obtain ⟨place, found, holds⟩ := Option.bind_eq_some_iff.mp held
  exact ⟨place.kind, by rw [fixture?, found, ← holds]; rfl⟩

theorem aimed_blank (name : String) (cards : List Card) :
    Circuit.Aimed ⟨name, .empty, .empty, .empty, .empty, .empty⟩ cards where
  place := by simp [Net.content?, Net.place?]
  write := by simp

/-- An arc that was edited in is there, if no arrow stands in the names of its ends. -/
theorem Grows.joins_of_mem (grows : net.Grows edits after) (plain : net.Plain)
    {source target : String} (member : .arc source target ∈ edits) (left : ArrowFree source)
    (right : ArrowFree target) : after.Joins source target := by
  obtain ⟨fixture, held⟩ := Option.ne_none_iff_exists'.mp (grows.taken member rfl)
  obtain ⟨arc, found, -⟩ := Option.map_eq_some_iff.mp held
  have listed := Registry.mem_values_iff.mpr ⟨_, found⟩
  have later := grows.plain plain
  obtain ⟨rfl, rfl⟩ := left.ends_eq right (later.indexed.named _ _ found).symm
  rwa [Net.Joins, ← later.weight arc listed]

theorem Grows.keeps_joins (grows : net.Grows edits after) (plain : net.Plain)
    {source target : String} (joined : net.Joins source target) : after.Joins source target := by
  rw [Net.Joins, mem_arcs_iff plain] at joined
  rw [Net.Joins, mem_arcs_iff (grows.plain plain)]
  exact grows.keeps joined

/-- A circuit stays aimed under edits that aim. -/
theorem Aimed.grow (aimed : net.Aimed cards) (plain : net.Plain) (grows : net.Grows edits after)
    (aims : Edit.Aims cards edits) : after.Aimed cards where
  place := by
    intro id card anchor held
    obtain ⟨kind, fixture⟩ := fixture?_of_content? held
    rcases grows.of_held fixture with old | ⟨edit, member, brought⟩
    · exact aimed.place id card anchor (content?_of_fixture? old)
    · cases edit with
      | anchorPlace =>
          cases brought
          exact ⟨rfl, aims.anchor _ _ member⟩
      | place =>
          obtain ⟨-, same⟩ := Prod.mk.inj (Option.some.inj brought)
          exact absurd (Fixture.place.inj same).2 (aims.place _ _ member card anchor)
      | eventPlace | listen | transition | arc => cases brought
  write := by
    intro id action found anchor written
    rcases grows.of_held (fixture?_transition_eq_some.mpr found) with
      old | ⟨edit, member, brought⟩
    · obtain ⟨card, known, slot, leads⟩ :=
        aimed.write id action (fixture?_transition_eq_some.mp old) anchor written
      exact ⟨card, known, slot, fun left right => grows.keeps_joins plain (leads left right)⟩
    · cases edit with
      | transition =>
          cases brought
          obtain ⟨card, known, slot, arc⟩ := aims.write _ _ member anchor written
          exact ⟨card, known, slot, grows.joins_of_mem plain arc⟩
      | anchorPlace | eventPlace | listen | place | arc => cases brought

/-! ## Taking out -/

/-- What is left of a circuit has no other nodes, and between the nodes that are left all arcs. -/
structure Retains (net after : Circuit) : Prop where
  nodes : ∀ id, after.hasNode id = true → net.hasNode id = true
  joins : ∀ source target, after.hasNode source = true → after.hasNode target = true →
    net.Joins source target → after.Joins source target

theorem Retains.refl (net : Circuit) : net.Retains net :=
  ⟨fun _ => id, fun _ _ _ _ => id⟩

theorem Retains.trans {last : Circuit} (first : net.Retains after) (second : after.Retains last) :
    net.Retains last where
  nodes := fun id known => first.nodes id (second.nodes id known)
  joins := fun source target left right joined => second.joins source target left right
    (first.joins source target (second.nodes source left) (second.nodes target right) joined)

theorem retains_of_without {id : String} (without : after.Without net id) : net.Retains after := by
  have left : ∀ other, after.hasNode other = true → net.hasNode other = true ∧ other ≠ id := by
    intro other known
    rw [Net.hasNode, Bool.or_eq_true, Registry.contains_eq_true, Registry.contains_eq_true,
      without.places, without.transitions, Registry.names_erase, Registry.names_erase,
      List.mem_filter, List.mem_filter, ← or_and_right, decide_eq_true_eq] at known
    exact ⟨(Net.hasNode_iff net).mpr known.1, known.2⟩
  refine ⟨fun other known => (left other known).1, fun source target start finish joined => ?_⟩
  rw [Net.Joins, without.arcs, List.mem_filter]
  exact ⟨joined, by simpa using ⟨(left source start).2, (left target finish).2⟩⟩

/-- Taking a connection out leaves all arcs between the nodes that are left. -/
theorem retains_uprooted (operated : net.Operated) (connection : Connection) :
    net.Retains (net.uprooted connection) :=
  uprooted_of_steps Retains .refl .trans retains_of_without operated connection

/-- A circuit stays aimed when a connection is taken out. -/
theorem Aimed.uprooted (aimed : net.Aimed cards) (operated : net.Operated) (tidy : net.Tidy)
    (connection : Connection) : (net.uprooted connection).Aimed cards where
  place := by
    intro id card anchor held
    obtain ⟨place, found, holds⟩ := Option.bind_eq_some_iff.mp held
    rw [Net.place?, places_uprooted, Registry.get?_erase] at found
    split at found
    · cases found
    · exact aimed.place id card anchor (Option.bind_eq_some_iff.mpr ⟨place, found, holds⟩)
  write := by
    intro id action found anchor written
    obtain ⟨card, known, slot, leads⟩ := aimed.write id action (get?_uprooted found) anchor written
    refine ⟨card, known, slot, fun left right => ?_⟩
    have joined := leads left right
    have transition : (net.uprooted connection).hasNode id = true :=
      (Net.hasNode_iff _).mpr (.inr (Registry.mem_names_of_get? found))
    -- The place stays, for its name is not that of the place before a transfer.
    have present : Endpoint.place ⟨card.id, anchor.id⟩ ∈ net.places.names := by
      rcases operated.shape.2.connects _ joined with ⟨-, enters⟩ | ⟨-, enters⟩
      · have named := tidy.transition _ enters
        simp at named
      · exact enters
    have place :
        (net.uprooted connection).hasNode (Endpoint.place ⟨card.id, anchor.id⟩) = true := by
      refine (Net.hasNode_iff _).mpr (.inl ?_)
      rw [places_uprooted, Registry.names_erase, List.mem_filter, decide_eq_true_eq]
      refine ⟨present, fun same => ?_⟩
      have read := congrArg Family.read same
      simp at read
    exact (retains_uprooted operated connection).joins _ _ transition place joined

end Circuit

/-! ## All graphs -/

namespace Bench

variable {bench : Bench}

private theorem aimed_connect (seated : bench.graph.Seated)
    (aimed : bench.graph.net.Aimed bench.graph.cards) (connection : Connection) :
    (bench.connect connection).2.graph.net.Aimed (bench.connect connection).2.graph.cards := by
  rcases connected : bench.connect connection with ⟨failure | id, after⟩
  · obtain ⟨-, rfl⟩ := connect_error seated connected
    rw [graph_alerted]
    exact aimed
  · obtain ⟨-, grown, warnings, grows, rfl⟩ := grows_of_connect connected
    have cards : grown.graph.cards = bench.graph.cards := by rw [grows.graph]
    change grown.graph.net.Aimed grown.graph.cards
    rw [cards]
    exact aimed.grow seated.tidy.plain grows.net (.draft connection _ _)

private theorem aimed_recompile (aimed : bench.graph.net.Aimed bench.graph.cards) :
    bench.recompile.2.graph.net.Aimed bench.recompile.2.graph.cards := by
  obtain ⟨paths, plan, same⟩ := Graph.recompile_frame (rfl : bench.graph.recompile = _)
  have frame : bench.recompile.2.graph = { bench.graph with paths := paths, plan := plan } := same
  rw [frame]
  exact aimed

/-- In every graph that can be reached, transitions lead to the places of the anchors that they may
write. -/
theorem Reached.aimed (reached : bench.Reached) :
    bench.graph.net.Aimed bench.graph.cards := by
  induction reached with
  | @build _ _ _ _ _ _ graph built =>
      obtain ⟨whole, -⟩ := Graph.built_of_build built
      rw [whole.cards_eq]
      exact (Circuit.aimed_blank "" _).grow ⟨.blank "", by simp⟩ whole.grows (.drafts _ _ _)
  | @add bench connection before ih =>
      have connected := aimed_connect before.seated ih connection
      unfold addConnection
      split
      · next same => rwa [same] at connected
      · next same => exact aimed_recompile (by rwa [same] at connected)
  | @remove bench id before ih =>
      unfold removeConnection
      split
      · exact ih
      · refine aimed_recompile ?_
        rw [graph_uproot]
        exact ih.uprooted before.operated before.seated.tidy _
  | @run bench net board same _ ih =>
      refine ⟨?_, ?_⟩
      · rw [Net.content?_of_bare same]
        exact ih.place
      · rw [Net.transitions_of_bare same, Net.joins_of_bare same]
        exact ih.write

end Bench

end CardNet
