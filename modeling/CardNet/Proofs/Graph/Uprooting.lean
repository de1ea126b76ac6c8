import CardNet.Proofs.Graph.Collisions
import CardNet.Proofs.Net.Removal

/-!
# Taking a connection out

What stands for a connection alone, its transfer and the place before it, is taken out of the
circuit (`Circuit.bared`); then also what hands on from its source, with the subscription of an
event, when nothing is behind it any more (`Bench.graph_uproot`).
-/

namespace CardNet

/-- Something that stands somewhere is not the node of a name and no arc to it or from it. -/
def Site.Spares (id : String) : Site → Fixture → Prop
  | .place other, _ => other ≠ id
  | .transition other, _ => other ≠ id
  | .arc _, .arc held => held.source ≠ id ∧ held.target ≠ id
  | .arc _, _ => True

namespace Circuit

/-- A circuit without what stands for a connection alone. -/
def bared (net : Circuit) (connection : Connection) : Circuit :=
  ((net.removeTransition connection.transfer).2.removePlace connection.splitPlace).2

/-- Whether events are handed on from the source of a connection. -/
def handsEvents (net : Circuit) (connection : Connection) : Bool :=
  net.isConnected connection.source.eventPlace connection.source.eventTransition

/-- The transition that hands on from the source of a connection. -/
def leading (net : Circuit) (connection : Connection) : String :=
  if net.handsEvents connection then connection.source.eventTransition
  else connection.splitTransition

/-- A circuit without a connection. -/
def uprooted (net : Circuit) (connection : Connection) : Circuit :=
  let bared := net.bared connection
  if (bared.arcsFrom (bared.leading connection)).isEmpty then
    (bared.removeTransition (bared.leading connection)).2
  else bared

/-- Whether a connection is the last one from an event. -/
def silences (net : Circuit) (connection : Connection) : Bool :=
  let bared := net.bared connection
  (bared.arcsFrom (bared.leading connection)).isEmpty && bared.handsEvents connection

variable {net : Circuit}

theorem Tidy.removeTransition (tidy : net.Tidy) (id : String) :
    Circuit.Tidy (net.removeTransition id).2 where
  plain := tidy.plain.removeTransition id
  place := by
    rw [Net.places_removeTransition]
    exact tidy.place
  transition := by
    rw [Net.transitions_removeTransition]
    intro other member
    rw [Registry.names_erase, List.mem_filter] at member
    exact tidy.transition other member.1

theorem Tidy.removePlace (tidy : net.Tidy) (id : String) :
    Circuit.Tidy (net.removePlace id).2 where
  plain := tidy.plain.removePlace id
  place := by
    rw [Net.places_removePlace]
    intro other member
    rw [Registry.names_erase, List.mem_filter] at member
    exact tidy.place other member.1
  transition := by
    rw [Net.transitions_removePlace]
    exact tidy.transition

theorem Tidy.bared (tidy : net.Tidy) (connection : Connection) : (net.bared connection).Tidy :=
  (tidy.removeTransition _).removePlace _

theorem Tidy.place_of_held (tidy : net.Tidy) {id : String} {fixture : Fixture}
    (held : net.fixture? (.place id) = some fixture) : namesPlace id = true :=
  tidy.place id (mem_places_of_held held)

theorem Tidy.transition_of_held (tidy : net.Tidy) {id : String} {fixture : Fixture}
    (held : net.fixture? (.transition id) = some fixture) : namesPlace id = false :=
  tidy.transition id (mem_transitions_of_held held)

private theorem fixture?_erased {net after : Circuit} {id name : String}
    (arc : ∀ arc, after.arcs.get? name = some arc ↔
      net.arcs.get? name = some arc ∧ arc.source ≠ id ∧ arc.target ≠ id) {fixture : Fixture} :
    after.fixture? (.arc name) = some fixture ↔
      net.fixture? (.arc name) = some fixture ∧ Site.Spares id (.arc name) fixture := by
  simp only [fixture?, Option.map_eq_some_iff, arc]
  constructor
  · rintro ⟨held, ⟨found, spared⟩, rfl⟩
    exact ⟨⟨held, found, rfl⟩, spared⟩
  · rintro ⟨⟨held, found, rfl⟩, spared⟩
    exact ⟨held, ⟨found, spared⟩, rfl⟩

/-- What is left when a transition is taken out. -/
theorem fixture?_removeTransition (tidy : net.Tidy) {id : String}
    (known : id ∈ net.transitions.names) {site : Site} {fixture : Fixture} :
    Circuit.fixture? (net.removeTransition id).2 site = some fixture ↔
      net.fixture? site = some fixture ∧ site.Spares id fixture := by
  cases site with
  | place other =>
      rw [Circuit.fixture?, Net.place?, Net.places_removeTransition]
      refine (and_iff_left_of_imp fun held same => ?_).symm
      have named := tidy.place_of_held held
      rw [same, tidy.transition id known] at named
      cases named
  | transition other =>
      rw [Circuit.fixture?, Net.transitions_removeTransition, Registry.get?_erase]
      by_cases same : other = id <;> simp [same, Site.Spares, Circuit.fixture?]
  | arc name => exact fixture?_erased fun _ => Net.arc_removeTransition tidy.plain known

/-- What is left when a place is taken out. -/
theorem fixture?_removePlace (tidy : net.Tidy) {id : String} (known : id ∈ net.places.names)
    {site : Site} {fixture : Fixture} :
    Circuit.fixture? (net.removePlace id).2 site = some fixture ↔
      net.fixture? site = some fixture ∧ site.Spares id fixture := by
  cases site with
  | transition other =>
      rw [Circuit.fixture?, Net.transitions_removePlace]
      refine (and_iff_left_of_imp fun held same => ?_).symm
      have named := tidy.transition_of_held held
      rw [same, tidy.place id known] at named
      cases named
  | place other =>
      rw [Circuit.fixture?, Net.place?, Net.places_removePlace, Registry.get?_erase]
      by_cases same : other = id <;> simp [same, Site.Spares, Circuit.fixture?, Net.place?]
  | arc name => exact fixture?_erased fun _ => Net.arc_removePlace tidy.plain known

theorem Tidy.uprooted (tidy : net.Tidy) (connection : Connection) :
    (net.uprooted connection).Tidy := by
  unfold Circuit.uprooted
  dsimp only
  split
  · exact (tidy.bared connection).removeTransition _
  · exact tidy.bared connection

theorem boundTo?_removeTransition (net : Circuit) (id other : String) :
    boundTo? (net.removeTransition id).2 other = net.boundTo? other := by
  rw [boundTo?, Net.content?, Net.place?, Net.places_removeTransition]
  rfl

/-- Only the place before the transfer is taken out. -/
theorem boundTo?_bared (net : Circuit) (connection : Connection) {id : String}
    (other : id ≠ connection.splitPlace) :
    (net.bared connection).boundTo? id = net.boundTo? id := by
  rw [bared, boundTo?, Net.content?, Net.place?, Net.places_removePlace, Registry.get?_erase,
    if_neg other, Net.places_removeTransition]
  rfl

theorem boundTo?_uprooted (net : Circuit) (connection : Connection) {id : String}
    (other : id ≠ connection.splitPlace) :
    (net.uprooted connection).boundTo? id = net.boundTo? id := by
  unfold uprooted
  dsimp only
  split
  · rw [boundTo?_removeTransition, boundTo?_bared net connection other]
  · exact boundTo?_bared net connection other

theorem places_uprooted (net : Circuit) (connection : Connection) :
    (net.uprooted connection).places = net.places.erase connection.splitPlace := by
  have bared : (net.bared connection).places = net.places.erase connection.splitPlace := by
    rw [Circuit.bared, Net.places_removePlace, Net.places_removeTransition]
  unfold uprooted
  dsimp only
  split
  · rw [Net.places_removeTransition, bared]
  · exact bared

private theorem get?_removeTransition {id other : String} {action : Action}
    (found : Registry.get? (net.removeTransition id).2.transitions other = some action) :
    net.transitions.get? other = some action := by
  rw [Net.transitions_removeTransition, Registry.get?_erase] at found
  split at found
  · cases found
  · exact found

/-- The transitions that are left are as they were. -/
theorem get?_uprooted {connection : Connection} {id : String} {action : Action}
    (found : (net.uprooted connection).transitions.get? id = some action) :
    net.transitions.get? id = some action := by
  have bared : (net.bared connection).transitions.get? id = some action →
      net.transitions.get? id = some action := fun found => by
    rw [Circuit.bared, Net.transitions_removePlace] at found
    exact get?_removeTransition found
  unfold uprooted at found
  dsimp only at found
  split at found
  · exact bared (get?_removeTransition found)
  · exact bared found

end Circuit

namespace Bench

/-- Taking a connection out, in terms of what is left once its own nodes are gone. -/
theorem uproot_eq (bench : Bench) (connection : Connection) :
    bench.uproot connection =
      let bared := bench.graph.net.bared connection
      if (bared.arcsFrom (bared.leading connection)).isEmpty then
        let rest := { bench with graph.net :=
          (bared.removeTransition (bared.leading connection)).2 }
        if bared.handsEvents connection then rest.unlisten connection.source.eventPlace else rest
      else { bench with graph.net := bared } := rfl

/-- Giving a subscription up concerns the subscriptions alone. -/
theorem graph_unlisten (bench : Bench) (place : String) : (bench.unlisten place).graph =
    { bench.graph with subscriptions := bench.graph.subscriptions.erase place } := by
  unfold unlisten
  split
  · next none =>
      rw [Registry.erase_of_not_mem (Registry.get?_eq_none_iff.mp none)]
  · rfl

/-- What taking a connection out makes of a graph. -/
theorem graph_uproot (bench : Bench) (connection : Connection) :
    (bench.uproot connection).graph = { bench.graph with
      net := bench.graph.net.uprooted connection
      subscriptions :=
        if bench.graph.net.silences connection then
          bench.graph.subscriptions.erase connection.source.eventPlace
        else bench.graph.subscriptions } := by
  rw [uproot_eq, Circuit.uprooted, Circuit.silences]
  dsimp only
  split
  · next none =>
      cases (bench.graph.net.bared connection).handsEvents connection with
      | true => simp [graph_unlisten, none]
      | false => simp
  · next some => simp [some]

end Bench

end CardNet
