import CardNet.Proofs.Graph.Opening
import CardNet.Proofs.Graph.Standing
import CardNet.Proofs.Net.Ledger

/-!
# How a circuit hands events on

An event goes from the place that collects it through one transition to the places before the
transfers of its connections (`Circuit.HandsOn`). Each of these places is an outlet: one transition
alone takes tokens from it, and waits for nothing else (`Net.Outlet`), so that the transition may
fire just when there is a token. With distinct ids this is what a built graph looks like around
every event anchor that has connections (`Graph.Built.handsOn`).
-/

namespace CardNet

namespace Net

variable {κ α : Type}

theorem Plain.weight_eq {net : Net κ α} (plain : net.Plain) (source target : String) :
    net.weight source target = if net.Joins source target then 1 else 0 := by
  by_cases joined : net.Joins source target
  · rw [if_pos joined]
    exact plain.indexed.weight_eq joined
  · have none : (net.arcs.values.filter fun arc =>
        arc.source = source ∧ arc.target = target) = [] := by
      rw [List.filter_eq_nil_iff]
      intro arc member ends
      obtain ⟨rfl, rfl⟩ := of_decide_eq_true ends
      have plainly := plain.eq_of_mem member
      exact joined (show _ ∈ _ from plainly ▸ member)
    rw [if_neg joined, Net.weight, none]
    rfl

/-- A place from which one transition alone takes tokens, and which is all that the transition
waits for. -/
structure Outlet (net : Net κ α) (place transition : String) : Prop where
  known : place ∈ net.places.names
  listed : transition ∈ net.transitions.names
  joins : net.Joins place transition
  only : ∀ source target, net.Joins source target → (source = place ↔ target = transition)

namespace Outlet

variable {net other : Net κ α} {place transition : String}

theorem of_bare (outlet : net.Outlet place transition) (same : other.bare = net.bare) :
    other.Outlet place transition where
  known := placeNames_of_bare same ▸ outlet.known
  listed := transitions_of_bare same ▸ outlet.listed
  joins := joins_of_bare same ▸ outlet.joins
  only := joins_of_bare same ▸ outlet.only

/-- The transition of an outlet may fire just when there is a token. -/
theorem isEnabled_iff (outlet : net.Outlet place transition) (plain : net.Plain) :
    net.isEnabled transition = true ↔ 0 < net.tokens place := by
  rw [plain.isEnabled_iff]
  constructor
  · rintro ⟨-, -, fed⟩
    exact fed place outlet.joins
  · intro held
    refine ⟨outlet.listed, ⟨place, outlet.joins⟩, fun source joined => ?_⟩
    obtain rfl := (outlet.only source transition joined).mpr rfl
    exact held

/-- What leaves an outlet, one token at a time, leaves it through its transition. -/
theorem weight_eq (outlet : net.Outlet place transition) (plain : net.Plain) (target : String) :
    net.weight place target = if target = transition then 1 else 0 := by
  rw [plain.weight_eq]
  by_cases same : target = transition
  · rw [if_pos same, if_pos (same ▸ outlet.joins)]
  · rw [if_neg same, if_neg fun joined => same ((outlet.only place target joined).mp rfl)]

/-- Some firings take as many tokens from an outlet as its transition has fired. -/
theorem sum_weight (outlet : net.Outlet place transition) (plain : net.Plain)
    (fired : List String) : (fired.map (net.weight place)).sum = fired.count transition := by
  induction fired with
  | nil => rfl
  | cons first rest ih =>
      rw [List.map_cons, List.sum_cons, ih, outlet.weight_eq plain, List.count_cons, Nat.add_comm]
      simp only [beq_iff_eq]

end Outlet

end Net

/-- The connections that start from an endpoint and are not left out. -/
def linksFrom (cards : List Card) (connections : List Connection) (origin : Endpoint) :
    List Connection :=
  connections.filter fun connection =>
    connection.source = origin ∧ (connection.parties cards).toOption.isSome

theorem mem_linksFrom {cards : List Card} {connections : List Connection} {origin : Endpoint}
    {link : Connection} : link ∈ linksFrom cards connections origin ↔
      link ∈ connections ∧ link.source = origin ∧ link.Resolves cards := by
  rw [linksFrom, List.mem_filter, decide_eq_true_eq, Connection.Resolves]
  cases link.parties cards with
  | error => simp [Except.toOption]
  | ok parties => simp [Except.toOption]

/-- A circuit that hands the events of an anchor on to some connections. -/
structure Circuit.HandsOn (net : Circuit) (origin : Endpoint) (links : List Connection) : Prop where
  plain : net.Plain
  outlet : net.Outlet origin.eventPlace origin.eventTransition
  collects : net.collectsEvents origin.eventPlace = true
  unfed : ∀ source, ¬net.Joins source origin.eventPlace
  relays : ∀ link ∈ links, net.Outlet link.splitPlace link.transfer
  passes : ∀ link ∈ links, net.collectsEvents link.splitPlace = false
  fed : ∀ link ∈ links, ∀ source,
    net.Joins source link.splitPlace ↔ source = origin.eventTransition

namespace Circuit.HandsOn

variable {net other : Circuit} {origin : Endpoint} {links : List Connection}

theorem of_bare (handsOn : net.HandsOn origin links) (same : other.bare = net.bare) :
    other.HandsOn origin links where
  plain := handsOn.plain.of_bare same.symm
  outlet := handsOn.outlet.of_bare same
  collects := Circuit.collectsEvents_of_bare same ▸ handsOn.collects
  unfed := Net.joins_of_bare same ▸ handsOn.unfed
  relays := fun link member => (handsOn.relays link member).of_bare same
  passes := Circuit.collectsEvents_of_bare same ▸ handsOn.passes
  fed := Net.joins_of_bare same ▸ handsOn.fed

/-- Nothing but events brings tokens to the place that collects them. -/
theorem sum_unfed (handsOn : net.HandsOn origin links) (fired : List String) :
    (fired.map (net.weight · origin.eventPlace)).sum = 0 := by
  induction fired with
  | nil => rfl
  | cons first rest ih =>
      rw [List.map_cons, List.sum_cons, ih, handsOn.plain.weight_eq, if_neg (handsOn.unfed first)]

/-- Each firing that hands an event on brings one token to the place of each connection. -/
theorem sum_fed (handsOn : net.HandsOn origin links) {link : Connection} (member : link ∈ links)
    (fired : List String) : (fired.map (net.weight · link.splitPlace)).sum =
      fired.count origin.eventTransition := by
  induction fired with
  | nil => rfl
  | cons first rest ih =>
      rw [List.map_cons, List.sum_cons, ih, handsOn.plain.weight_eq, List.count_cons, Nat.add_comm]
      simp only [handsOn.fed link member, beq_iff_eq]

/-- The place of a connection is no entry. -/
theorem not_mem_entryPlaces (handsOn : net.HandsOn origin links) {link : Connection}
    (member : link ∈ links) : link.splitPlace ∉ net.entryPlaces := fun entry =>
  (handsOn.plain.mem_entryPlaces.mp entry).2 _ ((handsOn.fed link member _).mpr rfl)

end Circuit.HandsOn

/-! ## Built graphs -/

variable {cards : List Card} {connections : List Connection} {channel : Nat}

/-- The arcs that are drafted are those that cards and connections put into a circuit. -/
theorem arc_mem_drafts {source target : String} :
    .arc source target ∈ drafts cards connections channel ↔ Leads cards connections source target := by
  rw [mem_drafts]
  constructor
  · rintro (⟨card, known, brings⟩ | ⟨connection, known, parties, found, brings⟩)
    · cases brings with
      | begin none => exact .begin known none
      | input input => exact .input known input
      | output output => exact .output known output
    · cases brings with
      | hand => exact .hand known found
      | spread => exact .spread known found
      | take => exact .take known found
      | bring => exact .bring known found
  · intro leads
    cases leads with
    | begin known none => exact .inl ⟨_, known, .begin none⟩
    | input known input => exact .inl ⟨_, known, .input input⟩
    | output known output => exact .inl ⟨_, known, .output output⟩
    | hand known found => exact .inr ⟨_, known, _, found, .hand⟩
    | spread known found => exact .inr ⟨_, known, _, found, .spread⟩
    | take known found => exact .inr ⟨_, known, _, found, .take⟩
    | bring known found => exact .inr ⟨_, known, _, found, .bring⟩

/-- Names that are read as those of different families differ. -/
private theorem ne_of_read {first second : String}
    (differ : Family.read first ≠ Family.read second) : first ≠ second :=
  fun same => differ (congrArg Family.read same)

/-- The name of a place is none of a transition. -/
private theorem ne_of_namesPlace {first second : String}
    (differ : namesPlace first ≠ namesPlace second) : first ≠ second :=
  fun same => differ (congrArg namesPlace same)

namespace Leads

variable {connection : Connection} {parties : Connection.Parties} {source target : String}

/-- What leads from the place that collects the events of an anchor, and what leads to the
transition that hands them on, leads from the one to the other. -/
theorem event_iff (clear : ClearNames cards connections)
    (found : connection.parties cards = .ok parties) (kind : parties.source.kind = .event)
    (leads : Leads cards connections source target) :
    source = connection.source.eventPlace ↔ target = connection.source.eventTransition := by
  have hands : connection.handOver parties.source = connection.source.eventTransition := if_pos kind
  have starts : connection.sourcePlace parties.source = connection.source.eventPlace := if_pos kind
  rw [← hands]
  cases leads with
  | begin =>
      exact iff_of_false (ne_of_read (by simp)) (connection.internalTransition_ne_handOver _ _)
  | input =>
      exact iff_of_false (ne_of_read (by simp)) (connection.internalTransition_ne_handOver _ _)
  | output => exact iff_of_false (ne_of_namesPlace (by simp)) (ne_of_namesPlace (by simp))
  | @hand other ends member others =>
      rw [← starts]
      constructor
      · intro same
        by_cases event : ends.source.kind = .event
        · rw [starts, Connection.sourcePlace, if_pos event] at same
          rw [Connection.handOver, if_pos event, hands]
          exact Endpoint.eventTransition_inj.mpr same
        · rw [starts, Connection.sourcePlace, if_neg event] at same
          exact absurd same (ne_of_read (by simp))
      · intro same
        exact Connection.sourcePlace_eq others found (clear.source_eq others found same)
  | spread => exact iff_of_false (ne_of_namesPlace (by simp)) (ne_of_namesPlace (by simp))
  | take =>
      exact iff_of_false (ne_of_read (by simp)) (Connection.transfer_ne_handOver _ _ _)
  | bring => exact iff_of_false (ne_of_namesPlace (by simp)) (ne_of_namesPlace (by simp))

/-- Nothing leads to the place that collects the events of an anchor. -/
theorem target_ne_eventPlace (leads : Leads cards connections source target)
    (endpoint : Endpoint) : target ≠ endpoint.eventPlace := by
  cases leads with
  | output => exact ne_of_read (by simp)
  | spread => exact ne_of_read (by simp)
  | bring => exact ne_of_read (by simp)
  | begin | input | hand | take => exact ne_of_namesPlace (by simp)

/-- What leads from the place of a connection, and what leads to its transfer, leads from the one
to the other. -/
theorem relay_iff (clear : ClearNames cards connections) (member : connection ∈ connections)
    (resolves : connection.Resolves cards) (leads : Leads cards connections source target) :
    source = connection.splitPlace ↔ target = connection.transfer := by
  cases leads with
  | begin | input =>
      exact iff_of_false (ne_of_read (by simp)) (Card.internalTransition_ne_transfer _ _)
  | @hand other ends =>
      refine iff_of_false ?_ (Connection.transfer_ne_handOver _ _ _).symm
      unfold Connection.sourcePlace
      split
      · exact ne_of_read (by simp)
      · exact ne_of_read (by simp)
  | @take other ends known found =>
      constructor
      · intro same
        rw [clear.relay other known connection member ⟨_, found⟩ resolves same]
      · intro same
        rw [clear.transfer other known connection member ⟨_, found⟩ resolves same]
  | output | spread | bring =>
      exact iff_of_false (ne_of_namesPlace (by simp)) (ne_of_namesPlace (by simp))

/-- What leads to the place of a connection leads there from what hands on from its source. -/
theorem to_relay_iff (clear : ClearNames cards connections) (member : connection ∈ connections)
    (found : connection.parties cards = .ok parties) :
    Leads cards connections source connection.splitPlace ↔
      source = connection.handOver parties.source := by
  constructor
  · intro leads
    generalize named : connection.splitPlace = target at leads
    cases leads with
    | output => exact absurd named (ne_of_read (by simp))
    | bring => exact absurd named (ne_of_read (by simp))
    | @spread other ends known others =>
        obtain rfl := clear.relay connection member other known ⟨_, found⟩ ⟨_, others⟩ named
        obtain rfl := Except.ok.inj (found.symm.trans others)
        rfl
    | begin | input | hand | take => exact absurd named (ne_of_namesPlace (by simp))
  · rintro rfl
    exact .spread member found

end Leads

namespace Graph.Built

variable {graph : Graph}

/-- What stands at a site was brought there by an edit. -/
theorem exists_draft (built : graph.Built cards connections channel) {site : Site}
    {fixture : Fixture} (held : graph.net.fixture? site = some fixture) :
    ∃ edit ∈ drafts cards connections channel, edit.brings? = some (site, fixture) := by
  rw [built.fixture] at held
  obtain ⟨edit, member, brought⟩ := List.exists_of_findSome?_eq_some held
  exact ⟨edit, member, Edit.fixture?_eq_some.mp brought⟩

/-- Something stands at each site to which an edit brings something. -/
theorem exists_held (built : graph.Built cards connections channel) {edit : Edit}
    (member : edit ∈ drafts cards connections channel) {site : Site} {fixture : Fixture}
    (brought : edit.brings? = some (site, fixture)) :
    ∃ other, graph.net.fixture? site = some other := by
  refine Option.ne_none_iff_exists'.mp fun none => ?_
  rw [built.fixture, List.findSome?_eq_none_iff] at none
  cases (none edit member).symm.trans (Edit.fixture?_eq_some.mpr brought)

/-- With distinct ids the arcs of a graph are those that its cards and connections lead. -/
theorem joins_iff (built : graph.Built cards connections channel)
    (clear : ClearNames cards connections) {source target : String} :
    graph.net.Joins source target ↔ Leads cards connections source target := by
  have listed : ∀ {arc : Arc}, arc ∈ graph.net.arcs.values ↔
      ∃ name, graph.net.fixture? (.arc name) = some (.arc arc) := by
    intro arc
    simp only [Registry.mem_values_iff, Circuit.fixture?, Option.map_eq_some_iff, Fixture.arc.injEq,
      exists_eq_right]
  constructor
  · intro joined
    obtain ⟨name, held⟩ := listed.mp joined
    obtain ⟨edit, member, brought⟩ := built.exists_draft held
    cases edit with
    | arc first second =>
        cases brought
        exact arc_mem_drafts.mp member
    | anchorPlace | eventPlace | listen | place | transition => cases brought
  · intro leads
    obtain ⟨other, held⟩ := built.exists_held (arc_mem_drafts.mpr leads) rfl
    obtain ⟨edit, member, brought⟩ := built.exists_draft held
    cases edit with
    | arc first second =>
        obtain ⟨named, rfl⟩ := Prod.mk.inj (Option.some.inj brought)
        obtain ⟨rfl, rfl⟩ := clear.arc _ _ _ _ (arc_mem_drafts.mp member) leads
          (Site.arc.inj named)
        exact listed.mpr ⟨_, held⟩
    | anchorPlace | eventPlace | listen | place | transition => cases brought

/-- The place of an event collects events. -/
theorem event_of_held (built : graph.Built cards connections channel) {endpoint : Endpoint}
    {fixture : Fixture} (held : graph.net.fixture? (.place endpoint.eventPlace) = some fixture) :
    ∃ card anchor, fixture = .place .process (some (.event card anchor)) := by
  obtain ⟨edit, member, brought⟩ := built.exists_draft held
  generalize named : Site.place endpoint.eventPlace = site at brought
  have other : ∀ {id : String}, site = .place id → Family.read id = .event := by
    rintro id rfl
    rw [← Site.place.inj named, Family.read_eventPlace]
  rcases mem_drafts.mp member with ⟨card, -, brings⟩ | ⟨connection, -, parties, -, brings⟩
  · cases brings with
    | event => cases brought; exact ⟨_, _, rfl⟩
    | anchor | start => cases brought; exact absurd (other rfl) (by simp)
    | call | begin | input | output => cases brought; cases named
  · cases brings with
    | event => cases brought; exact ⟨_, _, rfl⟩
    | source | target | relay => cases brought; exact absurd (other rfl) (by simp)
    | listen => cases brought
    | handOver | transfer | hand | spread | take | bring => cases brought; cases named

/-- The place of a connection holds nothing. -/
theorem relay_of_held (built : graph.Built cards connections channel) {connection : Connection}
    {fixture : Fixture} (held : graph.net.fixture? (.place connection.splitPlace) = some fixture) :
    fixture = .place .process (some .relay) := by
  obtain ⟨edit, member, brought⟩ := built.exists_draft held
  generalize named : Site.place connection.splitPlace = site at brought
  have other : ∀ {id : String}, site = .place id → Family.read id = .relay := by
    rintro id rfl
    rw [← Site.place.inj named, Family.read_splitPlace]
  rcases mem_drafts.mp member with ⟨card, -, brings⟩ | ⟨connection, -, parties, -, brings⟩
  · cases brings with
    | event | anchor | start => cases brought; exact absurd (other rfl) (by simp)
    | call | begin | input | output => cases brought; cases named
  · cases brings with
    | relay => cases brought; rfl
    | event | source | target => cases brought; exact absurd (other rfl) (by simp)
    | listen => cases brought
    | handOver | transfer | hand | spread | take | bring => cases brought; cases named

/-- With distinct ids a graph hands the events of an anchor on to its connections. -/
theorem handsOn (built : graph.Built cards connections channel)
    (clear : ClearNames cards connections) {connection : Connection}
    (member : connection ∈ connections) {parties : Connection.Parties}
    (found : connection.parties cards = .ok parties) (kind : parties.source.kind = .event) :
    graph.net.HandsOn connection.source (linksFrom cards connections connection.source) := by
  have hands : connection.handOver parties.source = connection.source.eventTransition := if_pos kind
  have starts : connection.sourcePlace parties.source = connection.source.eventPlace := if_pos kind
  have drafted : ∀ {edit : Edit}, connection.Brings parties.source parties.target edit →
      edit ∈ drafts cards connections channel := fun brings =>
    mem_drafts.mpr (.inr ⟨connection, member, parties, found, brings⟩)
  obtain ⟨event, collects⟩ := built.exists_held (drafted (.event kind)) rfl
  obtain ⟨handing, listed⟩ := built.exists_held (drafted .handOver) rfl
  rw [hands] at listed
  have origin : (⟨connection.source.card, parties.source.id⟩ : Endpoint) = connection.source := by
    rw [(Connection.resolved_of_parties found).sourceEnd]
  rw [origin] at collects
  refine ⟨built.plain, ⟨Circuit.mem_places_of_held collects, Circuit.mem_transitions_of_held listed,
    (built.joins_iff clear).mpr ?_, fun source target joined => ?_⟩, ?_, ?_, ?_, ?_, ?_⟩
  · rw [← hands, ← starts]
    exact .hand member found
  · exact ((built.joins_iff clear).mp joined).event_iff clear found kind
  · obtain ⟨card, anchor, rfl⟩ := built.event_of_held collects
    rw [Circuit.collectsEvents, Circuit.content?_of_fixture? collects]
    rfl
  · exact fun source joined =>
      ((built.joins_iff clear).mp joined).target_ne_eventPlace connection.source rfl
  · intro link inside
    obtain ⟨known, -, ends, resolves⟩ := mem_linksFrom.mp inside
    obtain ⟨relay, placed⟩ := built.exists_held
      (mem_drafts.mpr (.inr ⟨link, known, ends, resolves, .relay⟩)) rfl
    obtain ⟨carrying, transfers⟩ := built.exists_held
      (mem_drafts.mpr (.inr ⟨link, known, ends, resolves, .transfer⟩)) rfl
    exact ⟨Circuit.mem_places_of_held placed, Circuit.mem_transitions_of_held transfers,
      (built.joins_iff clear).mpr (.take known resolves), fun source target joined =>
        ((built.joins_iff clear).mp joined).relay_iff clear known ⟨ends, resolves⟩⟩
  · intro link inside
    obtain ⟨known, -, ends, resolves⟩ := mem_linksFrom.mp inside
    obtain ⟨relay, placed⟩ := built.exists_held
      (mem_drafts.mpr (.inr ⟨link, known, ends, resolves, .relay⟩)) rfl
    obtain rfl := built.relay_of_held placed
    rw [Circuit.collectsEvents, Circuit.content?_of_fixture? placed]
    rfl
  · intro link inside source
    obtain ⟨known, same, ends, resolves⟩ := mem_linksFrom.mp inside
    rw [built.joins_iff clear, Leads.to_relay_iff clear known resolves,
      Connection.handOver_eq resolves found same, hands]

end Graph.Built

end CardNet
