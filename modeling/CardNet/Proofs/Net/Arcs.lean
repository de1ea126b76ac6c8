import CardNet.Net.Basic
import CardNet.Proofs.Registry

/-!
# The arcs of a net and their index

Arcs are kept three times: in the list of arcs under their texts, under their targets and under
their sources. `Net.Indexed` says that the three agree. Every operation on nets keeps them in
step (`Indexed.pushArc`, `Indexed.detach`), and `Net.values_detach` says which arcs are left when
a node is taken out.
-/

namespace CardNet

@[simp] theorem ArcIndex.under_empty (node : String) : ArcIndex.empty.under node = [] := by
  simp [ArcIndex.under, ArcIndex.empty]

namespace Net

variable {κ α : Type}

/-- The three listings of the arcs agree: each arc goes under its own text, and the arcs into and
out of a node are those of the list, in the order of the list. -/
structure Indexed (net : Net κ α) : Prop where
  named : ∀ name arc, net.arcs.get? name = some arc → arc.name = name
  incoming : ∀ id, net.arcsInto id = net.arcs.values.filter fun arc => arc.target = id
  outgoing : ∀ id, net.arcsFrom id = net.arcs.values.filter fun arc => arc.source = id

namespace Indexed

variable {net : Net κ α}

theorem mem_arcsInto (indexed : net.Indexed) {id : String} {arc : Arc} :
    arc ∈ net.arcsInto id ↔ arc ∈ net.arcs.values ∧ arc.target = id := by
  rw [indexed.incoming, List.mem_filter, decide_eq_true_eq]

theorem mem_arcsFrom (indexed : net.Indexed) {id : String} {arc : Arc} :
    arc ∈ net.arcsFrom id ↔ arc ∈ net.arcs.values ∧ arc.source = id := by
  rw [indexed.outgoing, List.mem_filter, decide_eq_true_eq]

theorem get?_name (indexed : net.Indexed) {arc : Arc} (member : arc ∈ net.arcs.values) :
    net.arcs.get? arc.name = some arc := by
  obtain ⟨name, found⟩ := Registry.mem_values_iff.mp member
  rw [indexed.named name arc found]
  exact found

/-- An arc is known by its text. -/
theorem eq_of_name (indexed : net.Indexed) {first second : Arc}
    (left : first ∈ net.arcs.values) (right : second ∈ net.arcs.values)
    (same : first.name = second.name) : first = second := by
  have found := indexed.get?_name left
  rw [same, indexed.get?_name right] at found
  exact (Option.some.inj found).symm

/-- An arc is known by its two ends. -/
theorem eq_of_ends (indexed : net.Indexed) {first second : Arc}
    (left : first ∈ net.arcs.values) (right : second ∈ net.arcs.values)
    (source : first.source = second.source) (target : first.target = second.target) :
    first = second :=
  indexed.eq_of_name left right (by rw [Arc.name, Arc.name, source, target])

theorem nodup_values (indexed : net.Indexed) : net.arcs.values.Nodup := by
  have named : net.arcs.names = net.arcs.values.map Arc.name := by
    rw [Registry.names, Registry.values, List.map_map]
    refine List.map_congr_left ?_
    rintro ⟨name, arc⟩ member
    exact (indexed.named name arc (Registry.get?_eq_some_iff.mpr member)).symm
  have distinct := named ▸ net.arcs.nodup_names
  exact (List.pairwise_map.mp distinct).imp fun differ same => differ (congrArg Arc.name same)

theorem isConnected_iff (indexed : net.Indexed) {source target : String} :
    net.isConnected source target = true ↔
      ∃ arc ∈ net.arcs.values, arc.name = arcName source target := by
  rw [isConnected, Registry.contains_eq_true]
  constructor
  · intro member
    obtain ⟨arc, found⟩ := Registry.exists_get?_of_mem_names member
    exact ⟨arc, Registry.mem_values_iff.mpr ⟨_, found⟩, indexed.named _ _ found⟩
  · rintro ⟨arc, member, same⟩
    exact same ▸ Registry.mem_names_of_get? (indexed.get?_name member)

/-- The listings do not look at places and transitions. -/
theorem congr {other : Net κ α} (indexed : net.Indexed) (arcs : other.arcs = net.arcs)
    (incoming : other.incoming = net.incoming) (outgoing : other.outgoing = net.outgoing) :
    other.Indexed where
  named := by rw [arcs]; exact indexed.named
  incoming := fun id => by
    rw [arcs, ← indexed.incoming id]
    exact congrArg (ArcIndex.under · id) incoming
  outgoing := fun id => by
    rw [arcs, ← indexed.outgoing id]
    exact congrArg (ArcIndex.under · id) outgoing

/-- The empty net is indexed. -/
theorem blank (name : String) :
    (⟨name, .empty, .empty, .empty, .empty, .empty⟩ : Net κ α).Indexed where
  named := by intro name arc found; cases found
  incoming := fun id => ArcIndex.under_empty id
  outgoing := fun id => ArcIndex.under_empty id

theorem pushArc (indexed : net.Indexed) {arc : Arc} (fresh : arc.name ∉ net.arcs.names) :
    (net.pushArc arc).Indexed where
  named := by
    intro name held found
    rw [Net.pushArc, Registry.get?_insert] at found
    split at found
    · next same =>
        rw [same, Option.some.inj found]
    · exact indexed.named name held found
  incoming := by
    intro id
    have old := indexed.incoming id
    simp only [arcsInto, Net.pushArc, ArcIndex.push, ArcIndex.under_put,
      Registry.values_insert_of_not_mem arc fresh, List.filter_append] at old ⊢
    by_cases same : arc.target = id
    · subst same
      simp [old]
    · simp [same, old]
  outgoing := by
    intro id
    have old := indexed.outgoing id
    simp only [arcsFrom, Net.pushArc, ArcIndex.push, ArcIndex.under_put,
      Registry.values_insert_of_not_mem arc fresh, List.filter_append] at old ⊢
    by_cases same : arc.source = id
    · subst same
      simp [old]
    · simp [same, old]

end Indexed

/-! ## Taking arcs out -/

private theorem entries_foldl_dropArc (gone : List Arc) (net : Net κ α) :
    (gone.foldl dropArc net).arcs.entries =
      net.arcs.entries.filter fun entry => entry.1 ∉ gone.map Arc.name := by
  induction gone generalizing net with
  | nil => exact (List.filter_eq_self.mpr (by simp)).symm
  | cons arc rest ih =>
      rw [List.foldl_cons, ih]
      simp only [dropArc, Registry.erase, List.filter_filter, List.map_cons, List.mem_cons,
        not_or, Bool.decide_and, Bool.and_comm]

private theorem arcsInto_foldl_dropArc (gone : List Arc) (net : Net κ α) (id : String) :
    (gone.foldl dropArc net).arcsInto id =
      (net.arcsInto id).filter fun other =>
        ∀ arc ∈ gone, arc.target = id → other.source ≠ arc.source := by
  induction gone generalizing net with
  | nil => exact (List.filter_eq_self.mpr (by simp)).symm
  | cons arc rest ih =>
      rw [List.foldl_cons, ih]
      simp only [arcsInto, dropArc, ArcIndex.keep, ArcIndex.under_put]
      split
      · next same =>
          subst same
          simp [List.filter_filter, Bool.and_comm]
      · next differ =>
          simp [differ]

private theorem arcsFrom_foldl_dropArc (gone : List Arc) (net : Net κ α) (id : String) :
    (gone.foldl dropArc net).arcsFrom id =
      (net.arcsFrom id).filter fun other =>
        ∀ arc ∈ gone, arc.source = id → other.target ≠ arc.target := by
  induction gone generalizing net with
  | nil => exact (List.filter_eq_self.mpr (by simp)).symm
  | cons arc rest ih =>
      rw [List.foldl_cons, ih]
      simp only [arcsFrom, dropArc, ArcIndex.keep, ArcIndex.under_put]
      split
      · next same =>
          subst same
          simp [List.filter_filter, Bool.and_comm]
      · next differ =>
          simp [differ]

private theorem arcsInto_detach (net : Net κ α) (id other : String) :
    (net.detach id).arcsInto other =
      (if id = other then [] else net.arcsInto other).filter fun left =>
        ∀ arc ∈ net.arcsInto id ++ net.arcsFrom id,
          arc.target = other → left.source ≠ arc.source := by
  rw [detach, arcsInto_foldl_dropArc]
  congr 1
  exact ArcIndex.under_put net.incoming id other []

private theorem arcsFrom_detach (net : Net κ α) (id other : String) :
    (net.detach id).arcsFrom other =
      (if id = other then [] else net.arcsFrom other).filter fun left =>
        ∀ arc ∈ net.arcsInto id ++ net.arcsFrom id,
          arc.source = other → left.target ≠ arc.target := by
  rw [detach, arcsFrom_foldl_dropArc]
  congr 1
  exact ArcIndex.under_put net.outgoing id other []

private theorem nodes_foldl_dropArc (gone : List Arc) (net : Net κ α) :
    (gone.foldl dropArc net).places = net.places ∧
      (gone.foldl dropArc net).transitions = net.transitions := by
  induction gone generalizing net with
  | nil => exact ⟨rfl, rfl⟩
  | cons arc rest ih => exact ih (net.dropArc arc)

@[simp] theorem places_detach (net : Net κ α) (id : String) :
    (net.detach id).places = net.places :=
  (nodes_foldl_dropArc _ _).1

@[simp] theorem transitions_detach (net : Net κ α) (id : String) :
    (net.detach id).transitions = net.transitions :=
  (nodes_foldl_dropArc _ _).2

/-- The arcs that are left when a node is taken out are those that do not touch it. -/
theorem values_detach {net : Net κ α} (indexed : net.Indexed) (id : String) :
    (net.detach id).arcs.values =
      net.arcs.values.filter fun arc => arc.source ≠ id ∧ arc.target ≠ id := by
  simp only [Registry.values, detach, entries_foldl_dropArc, List.filter_map]
  congr 1
  refine List.filter_congr ?_
  rintro ⟨name, arc⟩ listed
  have found := Registry.get?_eq_some_iff.mpr listed
  have member := Registry.mem_values_iff.mpr ⟨name, found⟩
  rw [Function.comp_apply, decide_eq_decide, ← indexed.named name arc found]
  constructor
  · intro kept
    refine ⟨fun source => kept (List.mem_map.mpr ⟨arc, ?_, rfl⟩),
      fun target => kept (List.mem_map.mpr ⟨arc, ?_, rfl⟩)⟩
    · exact List.mem_append_right _ (indexed.mem_arcsFrom.mpr ⟨member, source⟩)
    · exact List.mem_append_left _ (indexed.mem_arcsInto.mpr ⟨member, target⟩)
  · rintro ⟨source, target⟩ dropped
    obtain ⟨other, gone, same⟩ := List.mem_map.mp dropped
    rcases List.mem_append.mp gone with into | out
    · obtain ⟨known, ends⟩ := indexed.mem_arcsInto.mp into
      exact target (indexed.eq_of_name known member same ▸ ends)
    · obtain ⟨known, ends⟩ := indexed.mem_arcsFrom.mp out
      exact source (indexed.eq_of_name known member same ▸ ends)

private theorem get?_detach {net : Net κ α} {id name : String} {arc : Arc}
    (found : (net.detach id).arcs.get? name = some arc) : net.arcs.get? name = some arc := by
  rw [Registry.get?_eq_some_iff] at found ⊢
  rw [detach, entries_foldl_dropArc] at found
  exact (List.mem_filter.mp found).1

/-- Taking a node out keeps the listings of the arcs in step. -/
theorem Indexed.detach {net : Net κ α} (indexed : net.Indexed) (id : String) :
    (net.detach id).Indexed where
  named := fun name arc found => indexed.named name arc (get?_detach found)
  incoming := by
    intro other
    rw [values_detach indexed, List.filter_filter]
    rw [arcsInto_detach]
    by_cases same : id = other
    · subst same
      rw [if_pos rfl, List.filter_nil, eq_comm, List.filter_eq_nil_iff]
      intro arc _
      simp +contextual
    · rw [if_neg same, indexed.incoming other, List.filter_filter]
      refine List.filter_congr ?_
      intro arc member
      rw [Bool.eq_iff_iff]
      simp only [Bool.and_eq_true, decide_eq_true_eq]
      constructor
      · rintro ⟨differ, target⟩
        refine ⟨target, fun source => ?_, fun reached => same (reached.symm.trans target)⟩
        have gone := List.mem_append_right (net.arcsInto id)
          (indexed.mem_arcsFrom.mpr ⟨member, source⟩)
        exact differ arc gone target rfl
      · rintro ⟨target, source, -⟩
        refine ⟨fun held gone reached ends => ?_, target⟩
        rcases List.mem_append.mp gone with into | out
        · exact same ((indexed.mem_arcsInto.mp into).2.symm.trans reached)
        · exact source (ends.trans (indexed.mem_arcsFrom.mp out).2)
  outgoing := by
    intro other
    rw [values_detach indexed, List.filter_filter]
    rw [arcsFrom_detach]
    by_cases same : id = other
    · subst same
      rw [if_pos rfl, List.filter_nil, eq_comm, List.filter_eq_nil_iff]
      intro arc _
      simp +contextual
    · rw [if_neg same, indexed.outgoing other, List.filter_filter]
      refine List.filter_congr ?_
      intro arc member
      rw [Bool.eq_iff_iff]
      simp only [Bool.and_eq_true, decide_eq_true_eq]
      constructor
      · rintro ⟨differ, source⟩
        refine ⟨source, fun left => same (left.symm.trans source), fun target => ?_⟩
        have gone := List.mem_append_left (net.arcsFrom id)
          (indexed.mem_arcsInto.mpr ⟨member, target⟩)
        exact differ arc gone source rfl
      · rintro ⟨source, -, target⟩
        refine ⟨fun held gone left ends => ?_, source⟩
        rcases List.mem_append.mp gone with into | out
        · exact target (ends.trans (indexed.mem_arcsInto.mp into).2)
        · exact same ((indexed.mem_arcsFrom.mp out).2.symm.trans left)

end Net

end CardNet
