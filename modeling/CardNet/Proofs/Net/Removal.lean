import CardNet.Proofs.Net.Tokens

/-!
# Taking a node out of a net

A node goes together with the arcs that touch it, and nothing else changes
(`Net.arc_removePlace`, `Net.arc_removeTransition`). A name that no node has takes nothing along.
-/

namespace CardNet

namespace Net

variable {κ α : Type} {net : Net κ α} {id : String}

/-- An arc is listed under its text. -/
theorem Indexed.get?_eq_some_iff (indexed : net.Indexed) {name : String} {arc : Arc} :
    net.arcs.get? name = some arc ↔ arc ∈ net.arcs.values ∧ arc.name = name := by
  constructor
  · exact fun found => ⟨Registry.mem_values_iff.mpr ⟨name, found⟩, indexed.named name arc found⟩
  · rintro ⟨member, rfl⟩
    exact indexed.get?_name member

theorem Plain.detach (plain : net.Plain) (id : String) : (net.detach id).Plain where
  indexed := plain.indexed.detach id
  weight := fun arc member => by
    rw [values_detach plain.indexed] at member
    exact plain.weight arc (List.mem_filter.mp member).1

/-- The arcs that are left when a node is taken out, under their texts. -/
theorem get?_arcs_detach (plain : net.Plain) {name : String} {arc : Arc} :
    (net.detach id).arcs.get? name = some arc ↔
      net.arcs.get? name = some arc ∧ arc.source ≠ id ∧ arc.target ≠ id := by
  rw [(plain.detach id).indexed.get?_eq_some_iff, plain.indexed.get?_eq_some_iff,
    values_detach plain.indexed, List.mem_filter, decide_eq_true_eq, and_right_comm]

/-! ## Transitions -/

@[simp] theorem places_removeTransition (net : Net κ α) (id : String) :
    (net.removeTransition id).2.places = net.places := by
  unfold removeTransition
  split
  · rfl
  · exact places_detach _ id

@[simp] theorem transitions_removeTransition (net : Net κ α) (id : String) :
    (net.removeTransition id).2.transitions = net.transitions.erase id := by
  unfold removeTransition
  split
  · next absent => exact (Registry.erase_of_not_mem (Registry.get?_eq_none_iff.mp absent)).symm
  · exact transitions_detach _ id

private theorem Plain.withoutTransition (plain : net.Plain) :
    Plain { net with transitions := net.transitions.erase id } :=
  ⟨plain.indexed.congr rfl rfl rfl, plain.weight⟩

theorem Plain.removeTransition (plain : net.Plain) (id : String) :
    (net.removeTransition id).2.Plain := by
  unfold Net.removeTransition
  split
  · exact plain
  · exact plain.withoutTransition.detach id

theorem arc_removeTransition (plain : net.Plain) (known : id ∈ net.transitions.names)
    {name : String} {arc : Arc} : (net.removeTransition id).2.arcs.get? name = some arc ↔
      net.arcs.get? name = some arc ∧ arc.source ≠ id ∧ arc.target ≠ id := by
  obtain ⟨action, found⟩ := Registry.exists_get?_of_mem_names known
  unfold removeTransition
  rw [found]
  exact get?_arcs_detach plain.withoutTransition

/-! ## Places -/

@[simp] theorem transitions_removePlace (net : Net κ α) (id : String) :
    (net.removePlace id).2.transitions = net.transitions := by
  unfold removePlace
  split
  · rfl
  · exact transitions_detach _ id

@[simp] theorem places_removePlace (net : Net κ α) (id : String) :
    (net.removePlace id).2.places = net.places.erase id := by
  unfold removePlace
  split
  · next absent => exact (Registry.erase_of_not_mem (Registry.get?_eq_none_iff.mp absent)).symm
  · exact places_detach _ id

private theorem Plain.withoutPlace (plain : net.Plain) :
    Plain { net with places := net.places.erase id } :=
  ⟨plain.indexed.congr rfl rfl rfl, plain.weight⟩

theorem Plain.removePlace (plain : net.Plain) (id : String) :
    (net.removePlace id).2.Plain := by
  unfold Net.removePlace
  split
  · exact plain
  · exact plain.withoutPlace.detach id

theorem arc_removePlace (plain : net.Plain) (known : id ∈ net.places.names)
    {name : String} {arc : Arc} : (net.removePlace id).2.arcs.get? name = some arc ↔
      net.arcs.get? name = some arc ∧ arc.source ≠ id ∧ arc.target ≠ id := by
  obtain ⟨place, found⟩ := Registry.exists_get?_of_mem_names known
  unfold removePlace
  rw [place?, found]
  exact get?_arcs_detach plain.withoutPlace

end Net

end CardNet
