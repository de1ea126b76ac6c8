import CardNet.Proofs.Graph.Cycles

/-!
# Nets that are restored

A net that has gone through operations is determined by its name, its nodes and the list of its
arcs (`Net.Operated.ext`), as the other two listings of the arcs follow from that list and keep no
empty lists. So a node that is taken out takes along what it brought and nothing else: whatever
arcs were tried on it in between, the net is the one before it came in (`Net.removal_restores`).
-/

namespace CardNet

/-! ## Listings without empty lists -/

namespace ArcIndex

/-- No list is empty. -/
def Trim (index : ArcIndex) : Prop := ∀ node : String, index.lists[node]? ≠ some []

theorem trim_empty : empty.Trim := fun node => by simp [empty]

theorem Trim.put {index : ArcIndex} (trim : index.Trim) (node : String) (arcs : List Arc) :
    (index.put node arcs).Trim := by
  intro other
  unfold ArcIndex.put
  split
  · rw [Std.ExtTreeMap.getElem?_erase]
    split
    · simp
    · exact trim other
  · next some =>
      rw [Std.ExtTreeMap.getElem?_insert]
      split
      · simpa using some
      · exact trim other

/-- Listings without empty lists are equal when they list the same arcs under every node. -/
theorem Trim.ext {first second : ArcIndex} (left : first.Trim) (right : second.Trim)
    (same : ∀ node, first.under node = second.under node) : first = second := by
  have read : ∀ {index : ArcIndex}, index.Trim → ∀ node, index.lists[node]? =
      if index.under node = [] then none else some (index.under node) := by
    intro index trim node
    rw [under, Std.ExtTreeMap.getD_eq_getD_getElem?]
    cases found : index.lists[node]? with
    | none => simp
    | some arcs =>
        have filled : arcs ≠ [] := fun nothing => trim node (nothing ▸ found)
        simp [filled]
  suffices lists : first.lists = second.lists by
    cases first
    cases second
    exact congrArg ArcIndex.mk lists
  refine Std.ExtTreeMap.ext_getElem? fun node => ?_
  rw [read left, read right, same node]

end ArcIndex

/-- A name that is entered behind the others and dropped again leaves nothing. -/
theorem Registry.erase_insert {α : Type} {registry : Registry α} {name : String} (entry : α)
    (fresh : name ∉ registry.names) : (registry.insert name entry).erase name = registry := by
  have kept := congrArg Registry.entries (Registry.erase_of_not_mem fresh)
  apply Registry.ext
  simp only [erase] at kept
  simp only [insert, fresh, not_false_eq_true, ↓reduceDIte, append, erase, List.filter_append, kept]
  simp

namespace Net

variable {κ α : Type} {net after : Net κ α}

/-- The listings of the arcs under their ends keep no empty lists. -/
structure Tidy (net : Net κ α) : Prop where
  incoming : net.incoming.Trim
  outgoing : net.outgoing.Trim

namespace Tidy

variable (tidy : net.Tidy)

include tidy

theorem of_bare (same : after.bare = net.bare) : after.Tidy where
  incoming := incoming_of_bare same ▸ tidy.incoming
  outgoing := outgoing_of_bare same ▸ tidy.outgoing

theorem pushArc (arc : Arc) : (net.pushArc arc).Tidy :=
  ⟨tidy.incoming.put _ _, tidy.outgoing.put _ _⟩

theorem detach (id : String) : (net.detach id).Tidy := by
  have dropped : ∀ (gone : List Arc) {net : Net κ α}, net.Tidy → (gone.foldl dropArc net).Tidy := by
    intro gone
    induction gone with
    | nil => exact fun tidy => tidy
    | cons arc rest ih => exact fun tidy => ih ⟨tidy.incoming.put _ _, tidy.outgoing.put _ _⟩
  exact dropped _ ⟨tidy.incoming.put id [], tidy.outgoing.put id []⟩

end Tidy

/-! ## Arcs that are tried -/

/-- An arc that is tried is entered behind the others, or nothing happens. -/
theorem operate_addArc (net : Net κ α) (source target : String) (weight : Nat) :
    net.operate (.addArc source target weight) = net ∨
      net.isConnected source target = false ∧
        net.operate (.addArc source target weight) = net.pushArc ⟨source, target, weight⟩ := by
  rw [operate, addArc]
  split
  · exact .inl rfl
  · split
    · exact .inl rfl
    · split
      · exact .inl rfl
      · split
        · exact .inl rfl
        · split
          · exact .inl rfl
          · next free => exact .inr ⟨Bool.eq_false_iff.mpr free, rfl⟩

theorem name_operate (net : Net κ α) (operation : Operation κ α) :
    (net.operate operation).name = net.name := by
  have settled : ∀ made : Except NetError (Net κ α), (∀ after, made = .ok after →
      after.name = net.name) → (net.settle made).name = net.name := by
    intro made same
    cases made with
    | error error => rfl
    | ok after => exact same after rfl
  have dropped : ∀ (gone : List Arc) (net : Net κ α), (gone.foldl dropArc net).name = net.name := by
    intro gone
    induction gone with
    | nil => exact fun net => rfl
    | cons arc rest ih => exact fun net => ih _
  have moved : ∀ {after : Net κ α}, after.bare = net.bare → after.name = net.name := by
    intro after same
    change after.bare.name = net.bare.name
    rw [same]
  cases operation with
  | addPlace id place =>
      refine settled _ fun after made => ?_
      unfold addPlace at made
      split at made <;> cases made
      rfl
  | addTransition id action =>
      refine settled _ fun after made => ?_
      unfold addTransition at made
      split at made <;> cases made
      rfl
  | addArc source target weight =>
      rcases net.operate_addArc source target weight with same | ⟨-, same⟩
      · rw [same]
      · rw [same]
        rfl
  | removePlace id =>
      rw [operate, removePlace]
      split
      · rfl
      · exact dropped _ _
  | removeTransition id =>
      rw [operate, removeTransition]
      split
      · rfl
      · exact dropped _ _
  | setTokens id tokens => rfl
  | restore marking => exact moved (bare_restore net marking)
  | fire transition succeeds => exact moved (bare_attempt net transition succeeds)

theorem Tidy.operate (tidy : net.Tidy) (operation : Operation κ α) :
    (net.operate operation).Tidy := by
  cases operation with
  | addPlace id place =>
      rw [Net.operate, addPlace]
      split
      · exact tidy
      · exact ⟨tidy.incoming, tidy.outgoing⟩
  | addTransition id action =>
      rw [Net.operate, addTransition]
      split
      · exact tidy
      · exact ⟨tidy.incoming, tidy.outgoing⟩
  | addArc source target weight =>
      rcases net.operate_addArc source target weight with same | ⟨-, same⟩
      · rwa [same]
      · rw [same]
        exact tidy.pushArc _
  | removePlace id =>
      rw [Net.operate, removePlace]
      split
      · exact tidy
      · have bared : Tidy { net with places := net.places.erase id } :=
          ⟨tidy.incoming, tidy.outgoing⟩
        exact bared.detach id
  | removeTransition id =>
      rw [Net.operate, removeTransition]
      split
      · exact tidy
      · have bared : Tidy { net with transitions := net.transitions.erase id } :=
          ⟨tidy.incoming, tidy.outgoing⟩
        exact bared.detach id
  | setTokens id tokens => exact tidy.of_bare (bare_modifyTokens net id _)
  | restore marking => exact tidy.of_bare (bare_restore net marking)
  | fire transition succeeds => exact tidy.of_bare (bare_attempt net transition succeeds)

/-! ## What determines a net -/

theorem Operated.tidy (operated : net.Operated) : net.Tidy := by
  obtain ⟨name, start, operations, created, rfl⟩ := operated
  have blank : start.Tidy := by
    unfold create at created
    split at created <;> cases created
    exact ⟨ArcIndex.trim_empty, ArcIndex.trim_empty⟩
  clear created
  induction operations generalizing start with
  | nil => exact blank
  | cons operation rest ih => exact ih _ (blank.operate operation)

theorem Indexed.entries_eq (indexed : net.Indexed) :
    net.arcs.entries = net.arcs.values.map fun arc => (arc.name, arc) := by
  rw [Registry.values, List.map_map]
  refine ((List.map_congr_left ?_).trans (List.map_id _)).symm
  rintro ⟨name, arc⟩ listed
  have named := indexed.named name arc (Registry.get?_eq_some_iff.mpr listed)
  exact Prod.ext named rfl

/-- Two nets are equal when they have the same name and nodes and list the same arcs. -/
theorem Operated.ext (left : net.Operated) (right : after.Operated) (name : net.name = after.name)
    (places : net.places = after.places) (transitions : net.transitions = after.transitions)
    (arcs : net.arcs.values = after.arcs.values) : net = after := by
  have first := left.shape.1
  have second := right.shape.1
  have listed : net.arcs = after.arcs := by
    apply Registry.ext
    rw [first.entries_eq, second.entries_eq, arcs]
  have incoming : net.incoming = after.incoming := by
    refine left.tidy.incoming.ext right.tidy.incoming fun id => ?_
    exact (first.incoming id).trans ((arcs ▸ second.incoming id).symm)
  have outgoing : net.outgoing = after.outgoing := by
    refine left.tidy.outgoing.ext right.tidy.outgoing fun id => ?_
    exact (first.outgoing id).trans ((arcs ▸ second.outgoing id).symm)
  cases net
  cases after
  dsimp only at name places transitions listed incoming outgoing
  rw [name, places, transitions, listed, incoming, outgoing]

/-! ## Taking out what came in -/

/-- One net is another one without a node and the arcs that touch it. -/
structure Without (after net : Net κ α) (id : String) : Prop where
  name : after.name = net.name
  places : after.places = net.places.erase id
  transitions : after.transitions = net.transitions.erase id
  arcs : after.arcs.values = net.arcs.values.filter fun arc => arc.source ≠ id ∧ arc.target ≠ id
  incoming : ∀ other, after.arcsInto other =
    (net.arcsInto other).filter fun arc => arc.source ≠ id ∧ arc.target ≠ id
  outgoing : ∀ other, after.arcsFrom other =
    (net.arcsFrom other).filter fun arc => arc.source ≠ id ∧ arc.target ≠ id

private theorem Without.of_arcs {id : String} (before : net.Indexed) (behind : after.Indexed)
    (name : after.name = net.name) (places : after.places = net.places.erase id)
    (transitions : after.transitions = net.transitions.erase id)
    (arcs : after.arcs.values =
      net.arcs.values.filter fun arc => arc.source ≠ id ∧ arc.target ≠ id) :
    after.Without net id where
  name := name
  places := places
  transitions := transitions
  arcs := arcs
  incoming := fun other => by
    rw [behind.incoming, before.incoming, arcs, List.filter_filter, List.filter_filter]
    simp only [Bool.and_comm]
  outgoing := fun other => by
    rw [behind.outgoing, before.outgoing, arcs, List.filter_filter, List.filter_filter]
    simp only [Bool.and_comm]

theorem Operated.without_place (operated : net.Operated) {id : String}
    (known : id ∈ net.places.names) : (net.operate (.removePlace id)).Without net id := by
  obtain ⟨indexed, wellFormed⟩ := operated.shape
  refine .of_arcs indexed (operated.operate _).shape.1 (net.name_operate _)
    (places_removePlace net id) ?_ ?_
  · rw [Net.operate, transitions_removePlace, Registry.erase_of_not_mem (wellFormed.apart id known)]
  · obtain ⟨place, found⟩ := Registry.exists_get?_of_mem_names known
    have bared : Net.Indexed { net with places := net.places.erase id } :=
      indexed.congr rfl rfl rfl
    rw [Net.operate, removePlace, place?, found]
    exact values_detach bared id

theorem Operated.without_transition (operated : net.Operated) {id : String}
    (known : id ∈ net.transitions.names) :
    (net.operate (.removeTransition id)).Without net id := by
  obtain ⟨indexed, wellFormed⟩ := operated.shape
  refine .of_arcs indexed (operated.operate _).shape.1 (net.name_operate _) ?_
    (transitions_removeTransition net id) ?_
  · rw [Net.operate, places_removeTransition,
      Registry.erase_of_not_mem fun place => wellFormed.apart id place known]
  · obtain ⟨action, found⟩ := Registry.exists_get?_of_mem_names known
    have bared : Net.Indexed { net with transitions := net.transitions.erase id } :=
      indexed.congr rfl rfl rfl
    rw [Net.operate, removeTransition, found]
    exact values_detach bared id

/-- Enter an arc if it can be. -/
def Operation.ofArc (arc : Arc) : Operation κ α := .addArc arc.source arc.target arc.weight

/-- Whatever becomes of an arc that touches a node, the nodes stay, and so do the arcs that do not
touch it. -/
private theorem spared_ofArc (net : Net κ α) {id : String} {arc : Arc}
    (touches : arc.source = id ∨ arc.target = id) :
    let after := net.operate (.ofArc arc)
    after.places = net.places ∧ after.transitions = net.transitions ∧
      after.arcs.values.filter (fun arc => arc.source ≠ id ∧ arc.target ≠ id) =
        net.arcs.values.filter fun arc => arc.source ≠ id ∧ arc.target ≠ id := by
  intro after
  rcases net.operate_addArc arc.source arc.target arc.weight with same | ⟨free, same⟩
  · have unchanged : after = net := same
    rw [unchanged]
    exact ⟨rfl, rfl, rfl⟩
  · have pushed : after = net.pushArc arc := same
    have fresh : arc.name ∉ net.arcs.names := fun known =>
      Bool.false_ne_true (free.symm.trans (Registry.contains_eq_true.mpr known))
    have dropped : ¬(arc.source ≠ id ∧ arc.target ≠ id) := fun clear =>
      touches.elim clear.1 clear.2
    have values : after.arcs.values = net.arcs.values ++ [arc] :=
      pushed ▸ Registry.values_insert_of_not_mem arc fresh
    refine ⟨by rw [pushed]; rfl, by rw [pushed]; rfl, ?_⟩
    rw [values, List.filter_append, List.filter_singleton, decide_eq_false dropped]
    exact List.append_nil _

/-- By induction on the arcs: what the next one finds is as it was before the first. -/
private theorem spared_ofArcs (net : Net κ α) {id : String} {arcs : List Arc}
    (touching : ∀ arc ∈ arcs, arc.source = id ∨ arc.target = id) :
    let after := net.operateAll (arcs.map .ofArc)
    after.name = net.name ∧ after.places = net.places ∧ after.transitions = net.transitions ∧
      after.arcs.values.filter (fun arc => arc.source ≠ id ∧ arc.target ≠ id) =
        net.arcs.values.filter fun arc => arc.source ≠ id ∧ arc.target ≠ id := by
  induction arcs generalizing net with
  | nil => exact ⟨rfl, rfl, rfl, rfl⟩
  | cons arc rest ih =>
      obtain ⟨touches, more⟩ := List.forall_mem_cons.mp touching
      obtain ⟨places, transitions, listed⟩ := net.spared_ofArc touches
      obtain ⟨name, laterPlaces, laterTransitions, laterListed⟩ :=
        ih (net.operate (.ofArc arc)) more
      exact ⟨name.trans (net.name_operate _), laterPlaces.trans places,
        laterTransitions.trans transitions, laterListed.trans listed⟩

theorem hasNode_iff (net : Net κ α) {id : String} :
    net.hasNode id = true ↔ id ∈ net.places.names ∨ id ∈ net.transitions.names := by
  rw [hasNode, Bool.or_eq_true, Registry.contains_eq_true, Registry.contains_eq_true]

/-- The arcs of a net do not touch a name that no node has. -/
private theorem Operated.clear (operated : net.Operated) {id : String}
    (fresh : net.hasNode id = false) :
    net.arcs.values.filter (fun arc => arc.source ≠ id ∧ arc.target ≠ id) = net.arcs.values := by
  have known : ∀ node, node ∈ net.places.names ∨ node ∈ net.transitions.names → node ≠ id := by
    rintro node member rfl
    exact Bool.false_ne_true (fresh.symm.trans (net.hasNode_iff.mpr member))
  refine List.filter_eq_self.mpr fun arc member => decide_eq_true ?_
  rcases operated.shape.2.connects arc member with ⟨source, target⟩ | ⟨source, target⟩
  · exact ⟨known _ (.inl source), known _ (.inr target)⟩
  · exact ⟨known _ (.inr source), known _ (.inl target)⟩

variable {id : String} {arcs : List Arc}

/-- A node that came in and is taken out again, with arcs tried on it in between, leaves nothing. -/
private theorem Operated.eq_of_without (operated : net.Operated) (fresh : net.hasNode id = false)
    (touching : ∀ arc ∈ arcs, arc.source = id ∨ arc.target = id) (left : after.Operated)
    (entered : Net κ α) (name : entered.name = net.name)
    (places : entered.places.erase id = net.places)
    (transitions : entered.transitions.erase id = net.transitions)
    (listed : entered.arcs = net.arcs)
    (without : after.Without (entered.operateAll (arcs.map .ofArc)) id) : after = net := by
  obtain ⟨sameName, samePlaces, sameTransitions, kept⟩ := entered.spared_ofArcs touching
  apply left.ext operated
  · exact without.name.trans (sameName.trans name)
  · rw [without.places, samePlaces, places]
  · rw [without.transitions, sameTransitions, transitions]
  · rw [without.arcs, kept, listed, operated.clear fresh]

theorem Operated.restored_place (operated : net.Operated) (fresh : net.hasNode id = false)
    (touching : ∀ arc ∈ arcs, arc.source = id ∨ arc.target = id) (place : Place κ) :
    (net.operateAll (.addPlace id place :: arcs.map .ofArc)).removePlace id =
      (some place, net) := by
  obtain ⟨noPlace, noTransition⟩ := not_or.mp (mt net.hasNode_iff.mpr (Bool.eq_false_iff.mp fresh))
  have entered : net.operate (.addPlace id place) =
      { net with places := net.places.insert id place } := by
    rw [Net.operate, addPlace, fresh]
    rfl
  have middle := operated.operateAll (.addPlace id place :: arcs.map .ofArc)
  change ((net.operate (.addPlace id place)).operateAll (arcs.map .ofArc)).removePlace id = _
  change ((net.operate (.addPlace id place)).operateAll (arcs.map .ofArc)).Operated at middle
  rw [entered] at middle ⊢
  have found : (Net.operateAll { net with places := net.places.insert id place }
      (arcs.map .ofArc)).place? id = some place := by
    rw [place?, (spared_ofArcs _ touching).2.1, Registry.get?_insert, if_pos rfl]
  apply Prod.ext
  · rw [removePlace, found]
  · refine operated.eq_of_without fresh touching (middle.operate (.removePlace id))
      { net with places := net.places.insert id place } rfl ?_ ?_ rfl
      (middle.without_place (Registry.mem_names_of_get? found))
    · exact Registry.erase_insert place noPlace
    · exact Registry.erase_of_not_mem noTransition

theorem Operated.restored_transition (operated : net.Operated) (fresh : net.hasNode id = false)
    (touching : ∀ arc ∈ arcs, arc.source = id ∨ arc.target = id) (action : α) :
    (net.operateAll (.addTransition id action :: arcs.map .ofArc)).removeTransition id =
      (some action, net) := by
  obtain ⟨noPlace, noTransition⟩ := not_or.mp (mt net.hasNode_iff.mpr (Bool.eq_false_iff.mp fresh))
  have entered : net.operate (.addTransition id action) =
      { net with transitions := net.transitions.insert id action } := by
    rw [Net.operate, addTransition, fresh]
    rfl
  have middle := operated.operateAll (.addTransition id action :: arcs.map .ofArc)
  change ((net.operate (.addTransition id action)).operateAll
    (arcs.map .ofArc)).removeTransition id = _
  change ((net.operate (.addTransition id action)).operateAll (arcs.map .ofArc)).Operated at middle
  rw [entered] at middle ⊢
  have found : (Net.operateAll { net with transitions := net.transitions.insert id action }
      (arcs.map .ofArc)).transitions.get? id = some action := by
    rw [(spared_ofArcs _ touching).2.2.1, Registry.get?_insert, if_pos rfl]
  apply Prod.ext
  · rw [removeTransition, found]
  · refine operated.eq_of_without fresh touching (middle.operate (.removeTransition id))
      { net with transitions := net.transitions.insert id action } rfl ?_ ?_ rfl
      (middle.without_transition (Registry.mem_names_of_get? found))
    · exact Registry.erase_of_not_mem noPlace
    · exact Registry.erase_insert action noTransition

/-- Whatever operations a net has gone through: a fresh node that comes in as a place or as a
transition, on which any arcs are tried, and that is taken out again, leaves the net as it was, with
all its lists in their orders. Every node that is taken out takes along just the arcs that touch
it, and where no place (no transition) has the name nothing changes. -/
theorem removal_restores (operated : net.Operated) (id : String) :
    (net.hasNode id = false → ∀ arcs : List Arc,
      (∀ arc ∈ arcs, arc.source = id ∨ arc.target = id) →
        (∀ place, (net.operateAll (.addPlace id place :: arcs.map .ofArc)).removePlace id =
          (some place, net)) ∧
        ∀ action, (net.operateAll (.addTransition id action :: arcs.map .ofArc)).removeTransition
          id = (some action, net)) ∧
    (id ∈ net.places.names → (net.removePlace id).2.Without net id) ∧
    (id ∈ net.transitions.names → (net.removeTransition id).2.Without net id) ∧
    (id ∉ net.places.names → net.removePlace id = (none, net)) ∧
    (id ∉ net.transitions.names → net.removeTransition id = (none, net)) := by
  refine ⟨fun fresh arcs touching => ?_, operated.without_place, operated.without_transition,
    fun absent => ?_, fun absent => ?_⟩
  · exact ⟨operated.restored_place fresh touching, operated.restored_transition fresh touching⟩
  · rw [removePlace, place?, Registry.get?_eq_none_iff.mpr absent]
  · rw [removeTransition, Registry.get?_eq_none_iff.mpr absent]

/-- Arcs both ways between a node that comes in and a transition, one of them twice, arcs to itself
and to nodes of its own kind or that are not there, and one without weight. -/
def tried : List Arc :=
  [⟨"x", "b", 1⟩, ⟨"b", "x", 2⟩, ⟨"x", "b", 3⟩, ⟨"x", "x", 1⟩, ⟨"a", "x", 1⟩, ⟨"x", "y", 1⟩,
    ⟨"x", "c", 0⟩, ⟨"x", "c", 4⟩]

theorem removal_restores_tried : ∃ start : Net Unit Unit, create "net" = .ok start ∧
    let net := start.operateAll reentered
    let middle := net.operateAll (.addPlace "x" ⟨.process, 2, none⟩ :: tried.map .ofArc)
    middle.arcs.values =
        [⟨"a->b", "c", 1⟩, ⟨"a", "b", 3⟩, ⟨"x", "b", 1⟩, ⟨"b", "x", 2⟩, ⟨"x", "c", 4⟩] ∧
      middle.removePlace "x" = (some ⟨.process, 2, none⟩, net) ∧
      (net.removeTransition "b").2.Without net "b" := by
  have created : create "net" =
      .ok (⟨"net", .empty, .empty, .empty, .empty, .empty⟩ : Net Unit Unit) := rfl
  have operated := Operated.operateAll (.blank _ _ created) reentered
  refine ⟨_, created, by decide +kernel, ?_, ?_⟩
  · exact ((removal_restores operated "x").1 (by decide +kernel) tried (by decide)).1 _
  · exact (removal_restores operated "b").2.2.1 (by decide +kernel)

end Net

/-! ## Taking a connection out -/

/-- Taking a connection out of a circuit is taking nodes out, one after the other. -/
theorem Circuit.uprooted_of_steps (leaves : Circuit → Circuit → Prop)
    (refl : ∀ net, leaves net net)
    (trans : ∀ {first second third}, leaves first second → leaves second third →
      leaves first third)
    (step : ∀ {net after : Circuit} {id}, after.Without net id → leaves net after) {net : Circuit}
    (operated : net.Operated) (connection : Connection) :
    leaves net (net.uprooted connection) := by
  have transition : ∀ {net : Circuit}, net.Operated → ∀ id,
      leaves net (net.removeTransition id).2 := by
    intro net operated id
    by_cases known : id ∈ net.transitions.names
    · exact step (operated.without_transition known)
    · rw [Net.removeTransition, Registry.get?_eq_none_iff.mpr known]
      exact refl net
  have place : ∀ {net : Circuit}, net.Operated → ∀ id, leaves net (net.removePlace id).2 := by
    intro net operated id
    by_cases known : id ∈ net.places.names
    · exact step (operated.without_place known)
    · rw [Net.removePlace, Net.place?, Registry.get?_eq_none_iff.mpr known]
      exact refl net
  have cut := operated.operate (.removeTransition connection.transfer)
  have bared : leaves net (net.bared connection) := trans (transition operated _) (place cut _)
  unfold uprooted
  dsimp only
  split
  · exact trans bared (transition (cut.operate (.removePlace _)) _)
  · exact bared

end CardNet
