import CardNet.Proofs.Engine.Plans
import CardNet.Proofs.Graph.Collisions

/-!
# Plans of equal circuits

Whether plans can be made depends on the nodes and the arcs of a circuit only, and not on the
order in which they were entered (`Graph.recompile_of_congruent`): an order of a region of one
circuit ranks its nodes, and along this rank the same region of the other has an order.
-/

namespace CardNet

namespace Net

variable {κ α : Type} {first second : Net κ α}

/-- Two nets have the same nodes and the same arcs. -/
structure Congruent (first second : Net κ α) : Prop where
  places : ∀ id, id ∈ first.places.names ↔ id ∈ second.places.names
  transitions : ∀ id, id ∈ first.transitions.names ↔ id ∈ second.transitions.names
  joins : ∀ source target, first.Joins source target ↔ second.Joins source target

theorem Congruent.mem_nodes (congruent : first.Congruent second) {id : String} :
    id ∈ first.nodes ↔ id ∈ second.nodes := by
  rw [nodes, nodes, List.mem_append, List.mem_append, congruent.places, congruent.transitions]

theorem Congruent.mem_entryPlaces (congruent : first.Congruent second) (plain : first.Plain)
    (other : second.Plain) {id : String} : id ∈ first.entryPlaces ↔ id ∈ second.entryPlaces := by
  simp only [plain.mem_entryPlaces, other.mem_entryPlaces, congruent.places, congruent.joins]

/-- Every arc leads from one node to another node. -/
def Straight (net : Net κ α) : Prop :=
  ∀ source target, net.Joins source target → source ≠ target ∧ target ∈ net.nodes

/-- A region has an order in both of two nets with the same nodes and arcs, or in neither. -/
theorem Congruent.regionOrder (congruent : first.Congruent second) (plain : first.Plain)
    (distinct : first.nodes.Nodup) (straight : first.Straight) (other : second.Plain)
    (otherDistinct : second.nodes.Nodup) {starts others order : List String}
    (members : ∀ node ∈ others, node ∈ starts) (found : first.regionOrder starts = .ok order) :
    ∃ order, second.regionOrder others = .ok order := by
  have region := regionOrder_spec plain distinct found
  have start : ∀ node ∈ others, node ∈ order :=
    fun node member => region.starts node (members node member)
  refine regionOrder_of_closed other otherDistinct (· ∈ order) order.idxOf start ?_ ?_ ?_
  · intro source target inside joined
    have old := (congruent.joins source target).mpr joined
    exact region.closed source inside target old (straight source target old).2
  · intro source target inside joined
    have old := (congruent.joins source target).mpr joined
    obtain ⟨differ, known⟩ := straight source target old
    exact region.idxOf_lt inside (.single ⟨old, known⟩) differ
  · exact fun node member => congruent.mem_nodes.mp (region.within node (start node member))

end Net

/-- The nodes of a tidy circuit are distinct. -/
theorem Circuit.Tidy.nodup_nodes {net : Circuit} (tidy : net.Tidy) : net.nodes.Nodup := by
  refine List.nodup_append.mpr ⟨net.places.nodup_names, net.transitions.nodup_names, ?_⟩
  rintro id place _ transition rfl
  have named := tidy.place id place
  rw [tidy.transition id transition] at named
  cases named

/-- The region of some entries has a plan when it has an order. -/
theorem Plan.exists_ofEntries_iff {net : Circuit} (tidy : net.Tidy) {entries : List String} :
    (∃ plan, Plan.ofEntries net entries = .ok plan) ↔
      ∃ order, net.regionOrder entries = .ok order := by
  constructor
  · rintro ⟨plan, made⟩
    obtain ⟨order, found, -⟩ := Plan.ofEntries_eq_ok made
    exact ⟨order, found⟩
  · rintro ⟨order, found⟩
    have region := Net.regionOrder_spec tidy.plain tidy.nodup_nodes found
    obtain ⟨plan, made⟩ := Plan.exists_ofPath entries region.within
    exact ⟨plan, by rw [Plan.ofEntries, found]; exact made⟩

namespace Graph

theorem pathsOf_eq_ok {net : Circuit} {entries : List String} (paths : Registry Plan) :
    (pathsOf net entries paths).1 = .ok () ↔
      ∀ entry ∈ entries, ∃ plan, Plan.ofEntries net [entry] = .ok plan := by
  induction entries generalizing paths with
  | nil => simp [pathsOf]
  | cons entry rest ih =>
      unfold pathsOf
      split
      · next plan made => simp [ih, made]
      · next reason stopped => simp [stopped]

/-- When the plans of a graph can be made. -/
theorem compile_eq_ok {graph : Graph} : graph.compile.1 = .ok () ↔
    (∀ entry ∈ graph.net.entryPlaces, ∃ plan, Plan.ofEntries graph.net [entry] = .ok plan) ∧
      (graph.net.entryPlaces = [] ∨
        ∃ plan, Plan.ofEntries graph.net graph.net.entryPlaces = .ok plan) := by
  rw [← pathsOf_eq_ok .empty]
  unfold compile
  dsimp only
  split
  · next reason paths stopped => simp [stopped]
  · next paths made =>
      split
      · next none => simp [List.isEmpty_iff.mp none, pathsOf]
      · next some =>
          rw [List.isEmpty_iff] at some
          split
          · next reason stopped => simp [some, stopped]
          · next plan found => simp [made, found]

/-- The plans of a graph can be made when those of a graph with the same nodes and arcs can. -/
theorem recompile_of_congruent {first second : Graph} (congruent : first.net.Congruent second.net)
    (tidy : first.net.Tidy) (straight : first.net.Straight) (other : second.net.Tidy)
    (mode : second.mode = first.mode) (planned : first.recompile.1 = .ok ()) :
    second.recompile.1 = .ok () := by
  have transfer : ∀ {starts others : List String}, (∀ node ∈ others, node ∈ starts) →
      (∃ plan, Plan.ofEntries first.net starts = .ok plan) →
        ∃ plan, Plan.ofEntries second.net others = .ok plan := by
    intro starts others members made
    rw [Plan.exists_ofEntries_iff tidy] at made
    obtain ⟨order, found⟩ := made
    rw [Plan.exists_ofEntries_iff other]
    exact congruent.regionOrder tidy.plain tidy.nodup_nodes straight other.plain other.nodup_nodes
      members found
  have entries : ∀ id, id ∈ first.net.entryPlaces ↔ id ∈ second.net.entryPlaces :=
    fun _ => congruent.mem_entryPlaces tidy.plain other.plain
  cases kind : first.mode with
  | visual => rw [recompile_visual (mode.trans kind)]
  | function =>
      rw [recompile_function (mode.trans kind), compile_eq_ok]
      rw [recompile_function kind, compile_eq_ok] at planned
      refine ⟨fun entry member => ?_, ?_⟩
      · exact transfer (by simp) (planned.1 entry ((entries entry).mpr member))
      · rcases planned.2 with none | made
        · refine .inl (List.eq_nil_iff_forall_not_mem.mpr fun id member => ?_)
          rw [List.eq_nil_iff_forall_not_mem] at none
          exact none id ((entries id).mpr member)
        · exact .inr (transfer (fun node member => (entries node).mpr member) made)

/-- A graph whose plans were just made gets the same plans again. -/
theorem recompile_again {graph after : Graph} (recompiled : graph.recompile = (.ok (), after)) :
    after.recompile = (.ok (), after) := by
  cases kind : graph.mode with
  | visual =>
      rw [recompile_visual kind] at recompiled
      cases recompiled
      exact recompile_visual kind
  | function =>
      rw [recompile_function kind] at recompiled
      obtain ⟨paths, plan, rfl⟩ := (compile_spec recompiled).1
      have again : recompile { graph with paths := paths, plan := plan } = graph.compile :=
        recompile_function kind
      rw [again, recompiled]

end Graph

end CardNet
