import CardNet.Proofs.Registry
import CardNet.Net.Firing
import CardNet.Net.Region

/-!
# Nets with other actions

A net does not look at the actions of its transitions. Whatever is done to a net with other actions
in the same places comes to the same, and leaves the same net with the other actions
(`Net.mapActions`).
-/

namespace CardNet

namespace Registry

variable {α β : Type}

@[simp] theorem contains_map (change : String → α → β) (registry : Registry α) (name : String) :
    (registry.map change).contains name = registry.contains name := by
  rw [contains, names_map, contains]

theorem insert_map (change : α → β) (registry : Registry α) (name : String) (entry : α) :
    (registry.map fun _ => change).insert name (change entry) =
      (registry.insert name entry).map fun _ => change := by
  have names := registry.names_map fun _ => change
  by_cases known : name ∈ registry.names
  · rw [insert, insert, dif_neg (Decidable.not_not.mpr (names ▸ known)),
      dif_neg (Decidable.not_not.mpr known)]
    refine ext ?_
    simp only [modify, map, List.map_map]
    refine List.map_congr_left fun held _ => ?_
    simp only [Function.comp_apply]
    split <;> rfl
  · rw [insert, insert, dif_pos (names ▸ known), dif_pos known]
    exact ext (by simp [append, map])

theorem erase_map (change : α → β) (registry : Registry α) (name : String) :
    (registry.map fun _ => change).erase name = (registry.erase name).map fun _ => change :=
  ext (by simp [erase, map, List.filter_map, Function.comp_def])

@[simp] theorem values_map (change : α → β) (registry : Registry α) :
    (registry.map fun _ => change).values = registry.values.map change := by
  simp [values, map, Function.comp_def]

/-- Entries that stay when they are changed. -/
theorem map_eq_self {change : α → α} {registry : Registry α}
    (kept : ∀ name entry, registry.get? name = some entry → change entry = entry) :
    registry.map (fun _ => change) = registry := by
  refine ext ((List.map_congr_left fun held member => ?_).trans (List.map_id _))
  exact Prod.ext rfl (kept held.1 held.2 (get?_eq_some_iff.mpr member))

end Registry

namespace Net

variable {κ α β : Type}

/-- The net in which the transitions do something else. -/
def mapActions (change : α → β) (net : Net κ α) : Net κ β where
  name := net.name
  places := net.places
  transitions := net.transitions.map fun _ => change
  arcs := net.arcs
  incoming := net.incoming
  outgoing := net.outgoing

variable (change : α → β) (net : Net κ α)

@[simp] theorem hasNode_mapActions (id : String) :
    (net.mapActions change).hasNode id = net.hasNode id := by
  simp [hasNode, mapActions]

@[simp] theorem nodeKind?_mapActions (id : String) :
    (net.mapActions change).nodeKind? id = net.nodeKind? id := by
  simp [nodeKind?, mapActions]

/-! ## Building nets -/

@[simp] theorem addPlace_mapActions (id : String) (place : Place κ) :
    (net.mapActions change).addPlace id place =
      (net.addPlace id place).map (mapActions change) := by
  rw [addPlace, addPlace, hasNode_mapActions]
  split <;> rfl

@[simp] theorem addTransition_mapActions (id : String) (action : α) :
    (net.mapActions change).addTransition id (change action) =
      (net.addTransition id action).map (mapActions change) := by
  rw [addTransition, addTransition, hasNode_mapActions]
  split
  · rfl
  · simp only [mapActions, Registry.insert_map]
    rfl

@[simp] theorem addArc_mapActions (source target : String) (weight : Nat) :
    (net.mapActions change).addArc source target weight =
      (net.addArc source target weight).map (mapActions change) := by
  have connected : (net.mapActions change).isConnected = net.isConnected := rfl
  simp only [addArc, nodeKind?_mapActions, connected]
  repeat' split
  all_goals rfl

private theorem dropArcs_mapActions (arcs : List Arc) :
    arcs.foldl dropArc (net.mapActions change) = (arcs.foldl dropArc net).mapActions change :=
  List.foldl_hom (mapActions change) fun _ _ => rfl

theorem detach_mapActions (id : String) :
    (net.mapActions change).detach id = (net.detach id).mapActions change :=
  dropArcs_mapActions change
    { net with incoming := net.incoming.put id [], outgoing := net.outgoing.put id [] } _

@[simp] theorem removePlace_mapActions (id : String) :
    ((net.mapActions change).removePlace id).2 = (net.removePlace id).2.mapActions change := by
  have found : (net.mapActions change).place? id = net.place? id := rfl
  rw [removePlace, removePlace, found]
  split
  · rfl
  · exact detach_mapActions change { net with places := net.places.erase id } id

@[simp] theorem removeTransition_mapActions (id : String) :
    ((net.mapActions change).removeTransition id).2 =
      (net.removeTransition id).2.mapActions change := by
  have found : (net.mapActions change).transitions.get? id =
      (net.transitions.get? id).map change := Registry.get?_map ..
  rw [removeTransition, removeTransition, found]
  cases net.transitions.get? id with
  | none => rfl
  | some action =>
      have erased : { net.mapActions change with
          transitions := (net.mapActions change).transitions.erase id } =
            mapActions change { net with transitions := net.transitions.erase id } := by
        simp only [mapActions, Registry.erase_map]
      exact (congrArg (detach · id) erased).trans (detach_mapActions ..)

/-! ## Firing -/

@[simp] theorem credit_mapActions (arcs : List Arc) :
    (net.mapActions change).credit arcs = (net.credit arcs).mapActions change :=
  List.foldl_hom (mapActions change) fun _ _ => rfl

@[simp] theorem refund_mapActions (arcs : List Arc) :
    (net.mapActions change).refund arcs = (net.refund arcs).mapActions change :=
  List.foldl_hom (mapActions change) fun _ _ => rfl

@[simp] theorem deduct_mapActions (arcs : List Arc) :
    (net.mapActions change).deduct arcs = (net.deduct arcs).mapActions change :=
  List.foldl_hom (mapActions change) fun _ _ => rfl

@[simp] theorem blocked?_mapActions (transition : String) :
    (net.mapActions change).blocked? transition = net.blocked? transition := by
  have known : (net.mapActions change).transitions.contains = net.transitions.contains :=
    funext (Registry.contains_map _ _)
  unfold blocked?
  rw [known]
  rfl

@[simp] theorem isEnabled_mapActions (transition : String) :
    (net.mapActions change).isEnabled transition = net.isEnabled transition := by
  rw [isEnabled, blocked?_mapActions, isEnabled]

/-! ## Regions -/

@[simp] theorem nodes_mapActions : (net.mapActions change).nodes = net.nodes :=
  congrArg (net.places.names ++ ·) (Registry.names_map _ _)

@[simp] theorem regionOrder_mapActions (starts : List String) :
    (net.mapActions change).regionOrder starts = net.regionOrder starts := by
  have nodes : (net.mapActions change).hasNode = net.hasNode :=
    funext (hasNode_mapActions change net)
  have reach : (net.mapActions change).reachableFrom starts = net.reachableFrom starts := by
    unfold reachableFrom
    rw [nodes, nodes_mapActions]
    rfl
  unfold regionOrder
  rw [reach]
  rfl

end Net

end CardNet
