import CardNet.Proofs.Graph.Attention
import CardNet.Proofs.Graph.Aims

/-!
# Where things come from

However a graph was built, edited and run, with or without success: whatever stands in its circuit
was brought by an edit for one of its cards or for a connection between two of them, and the places
and transitions of its cards stay (`Bench.Reached.furnished`). So the name of a site and its cards
tell what may stand there, whatever edits there were.
-/

namespace CardNet

/-- The edits for some cards and for connections between them. -/
inductive Edit.Lays (cards : List Card) (channel : Nat) : Edit → Prop where
  | card {card : Card} {edit : Edit} : card ∈ cards → card.Brings channel edit →
      Lays cards channel edit
  | connection {connection : Connection} {parties : Connection.Parties} {edit : Edit} :
      connection.parties cards = .ok parties →
      connection.Brings parties.source parties.target edit → Lays cards channel edit

theorem Edit.lays_of_mem_drafts {cards : List Card} {connections : List Connection} {channel : Nat}
    {edit : Edit} (member : edit ∈ drafts cards connections channel) :
    Lays cards channel edit := by
  rcases mem_drafts.mp member with ⟨card, known, brings⟩ | ⟨connection, -, parties, found, brings⟩
  · exact .card known brings
  · exact .connection found brings

/-- The nodes of a card are none of those that are taken out with a connection. -/
theorem Part.ne_of_own {part : Part} (own : part.family = .start ∨ part.family = .internal)
    (connection : Connection) : part.name ≠ connection.transfer ∧
      part.name ≠ connection.splitPlace ∧ ∀ source, part.name ≠ connection.handOver source := by
  refine ⟨fun same => ?_, fun same => ?_, fun source => connection.handOver_ne source ?_⟩
  · have kind := family_eq_of_name (show part.name = (Part.transfer connection).name from same)
    rcases own with own | own <;> cases own.symm.trans kind
  · have kind := family_eq_of_name (show part.name = (Part.relay connection).name from same)
    rcases own with own | own <;> cases own.symm.trans kind
  · rcases own with own | own <;> rw [own] <;> exact ⟨nofun, nofun⟩

/-- What a connection that is taken out has no part in stays. -/
theorem Circuit.taken_uprooted {net : Circuit} (tidy : net.Tidy) {site : Site}
    (taken : net.fixture? site ≠ none) (part : Part)
    (own : part.family = .start ∨ part.family = .internal)
    (named : site = .place part.name ∨ site = .transition part.name) (connection : Connection) :
    (net.uprooted connection).fixture? site ≠ none := by
  obtain ⟨fixture, held⟩ := Option.ne_none_iff_exists'.mp taken
  obtain ⟨source, leading⟩ := (net.bared connection).exists_leading connection
  obtain ⟨transfer, relay, handOver⟩ := part.ne_of_own own connection
  have spares : ∀ {id}, part.name ≠ id → site.Spares id fixture := by
    intro id other
    rcases named with rfl | rfl <;> exact other
  have kept := keeps_uprooted tidy (keeps_bared tidy held (spares transfer) (spares relay))
    fun _ => leading ▸ spares (handOver source)
  rw [kept]
  exact Option.some_ne_none fixture

/-- A graph in whose circuit everything was brought by an edit for its cards or for a connection
between them, and in which the nodes of its cards stand. -/
structure Graph.Furnished (graph : Graph) : Prop where
  drafted : ∀ site fixture, graph.net.fixture? site = some fixture →
    ∃ edit, Edit.Lays graph.cards graph.channel edit ∧ edit.brings? = some (site, fixture)
  start : ∀ card ∈ graph.cards, card.anchorsOf .input = [] →
    graph.net.fixture? (.place card.startPlace) ≠ none
  call : ∀ card ∈ graph.cards, graph.net.fixture? (.transition card.internalTransition) ≠ none

namespace Graph

variable {graph other : Graph}

theorem Built.furnished {cards : List Card} {connections : List Connection} {channel : Nat}
    (built : graph.Built cards connections channel) : graph.Furnished where
  drafted := by
    intro site fixture held
    obtain ⟨edit, member, brought⟩ := built.exists_draft held
    rw [built.cards_eq, built.channel_eq]
    exact ⟨edit, Edit.lays_of_mem_drafts member, brought⟩
  start := by
    intro card known source
    rw [built.cards_eq] at known
    exact built.grows.taken (mem_drafts.mpr (.inl ⟨card, known, .start source⟩)) rfl
  call := by
    intro card known
    rw [built.cards_eq] at known
    exact built.grows.taken (mem_drafts.mpr (.inl ⟨card, known, .call⟩)) rfl

/-- All that matters is what stands where, and for which cards. -/
theorem Furnished.congr (furnished : graph.Furnished)
    (same : other.net.fixture? = graph.net.fixture?) (cards : other.cards = graph.cards)
    (channel : other.channel = graph.channel) : other.Furnished := by
  obtain ⟨drafted, start, call⟩ := furnished
  rw [← same, ← cards, ← channel] at drafted
  rw [← same, ← cards] at start call
  exact ⟨drafted, start, call⟩

theorem Furnished.uprooted (furnished : graph.Furnished) (tidy : graph.net.Tidy)
    (connection : Connection) :
    Furnished { graph with net := graph.net.uprooted connection } where
  drafted := by
    intro site fixture held
    exact furnished.drafted site fixture
      (Circuit.held_of_bared tidy (Circuit.held_of_uprooted tidy held))
  start := by
    intro card known source
    exact Circuit.taken_uprooted tidy (furnished.start card known source) (.start card)
      (.inl rfl) (.inl rfl) connection
  call := by
    intro card known
    exact Circuit.taken_uprooted tidy (furnished.call card known) (.internal card)
      (.inr rfl) (.inr rfl) connection

end Graph

namespace Bench

variable {bench after : Bench}

/-- Edits for the cards of a graph and for connections between them leave it furnished. -/
theorem Grows.furnished {edits : List Edit} (grows : bench.Grows edits after)
    (furnished : bench.graph.Furnished)
    (lays : ∀ edit ∈ edits, Edit.Lays bench.graph.cards bench.graph.channel edit) :
    after.graph.Furnished := by
  have cards : after.graph.cards = bench.graph.cards := by rw [grows.graph]
  have channel : after.graph.channel = bench.graph.channel := by rw [grows.graph]
  refine ⟨?_, ?_, ?_⟩
  · intro site fixture held
    rw [cards, channel]
    rcases grows.net.of_held held with old | ⟨edit, member, brought⟩
    · exact furnished.drafted site fixture old
    · exact ⟨edit, lays edit member, brought⟩
  · rw [cards]
    intro card known source
    exact grows.net.keeps_taken (furnished.start card known source)
  · rw [cards]
    intro card known
    exact grows.net.keeps_taken (furnished.call card known)

private theorem furnished_connect (seated : bench.graph.Seated)
    (furnished : bench.graph.Furnished) (connection : Connection) :
    (bench.connect connection).2.graph.Furnished := by
  rcases connected : bench.connect connection with ⟨failure | id, after⟩
  · obtain ⟨-, rfl⟩ := connect_error seated connected
    rw [graph_alerted]
    exact furnished.congr rfl rfl rfl
  · obtain ⟨-, grown, warnings, grows, rfl⟩ := grows_of_connect connected
    have grew := grows.furnished furnished fun edit member =>
      Edit.lays_of_mem_drafts (mem_drafts_of_draft (List.mem_singleton_self connection) member)
    exact grew.congr rfl rfl rfl

private theorem furnished_recompile (furnished : bench.graph.Furnished) :
    bench.recompile.2.graph.Furnished := by
  obtain ⟨paths, plan, same⟩ := Graph.recompile_frame (rfl : bench.graph.recompile = _)
  have frame : bench.recompile.2.graph = { bench.graph with paths := paths, plan := plan } := same
  rw [frame]
  exact furnished.congr rfl rfl rfl

/-- Every graph that can be reached is furnished. -/
theorem Reached.furnished (reached : bench.Reached) : bench.graph.Furnished := by
  induction reached with
  | build built => exact (Graph.built_of_build built).1.furnished
  | @add bench connection before ih =>
      have connected := furnished_connect before.seated ih connection
      unfold addConnection
      split
      · next same => rwa [same] at connected
      · next same => exact furnished_recompile (by rwa [same] at connected)
  | @remove bench id before ih =>
      unfold removeConnection
      split
      · exact ih
      · refine furnished_recompile ?_
        rw [graph_uproot]
        exact (ih.uprooted before.seated.tidy _).congr rfl rfl rfl
  | run board same _ ih => exact ih.congr (Circuit.fixture?_of_bare same) rfl rfl

end Bench

/-! ## What may stand there -/

namespace Graph.Furnished

variable {graph : Graph} (furnished : graph.Furnished)

include furnished

/-- A place shows nothing but anchors of cards. -/
theorem anchor_of_content {id : String} {content : Content}
    (held : graph.net.content? id = some content) {anchor : Anchor} (shows : content.anchor? = some anchor) :
    ∃ card ∈ graph.cards, anchor ∈ card.anchors := by
  obtain ⟨kind, fixture⟩ := Circuit.fixture?_of_content? held
  obtain ⟨edit, lays, brought⟩ := furnished.drafted _ _ fixture
  cases lays with
  | card known brings =>
      cases brings with
      | anchor member => cases brought; cases shows; exact ⟨_, known, member⟩
      | event member => cases brought; cases shows; exact ⟨_, known, member⟩
      | start => cases brought; cases shows
      | call | begin | input | output => cases brought
  | connection found brings =>
      have ends := Connection.resolved_of_parties found
      cases brings with
      | source => cases brought; cases shows; exact ⟨_, ends.sourceCard, ends.source⟩
      | event => cases brought; cases shows; exact ⟨_, ends.sourceCard, ends.source⟩
      | target => cases brought; cases shows; exact ⟨_, ends.targetCard, ends.target⟩
      | relay => cases brought; cases shows
      | listen | handOver | transfer | hand | spread | take | bring => cases brought

end Graph.Furnished

end CardNet
