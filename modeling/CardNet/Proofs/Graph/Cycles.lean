import CardNet.Proofs.Graph.FailedEdits
import CardNet.Proofs.Graph.Replanning
import CardNet.Proofs.Net.Operations

/-!
# Regions without an order

A region has an order exactly when no cycle can be reached from its starts, and otherwise it is
refused with a node on such a cycle (`Net.regionOrder_or_cycle`): a search finishes a node before
one of the nodes that its arcs lead to only when there is a way back, and where the arcs lead
forward in a list of the region no way leads back.
-/

namespace CardNet

namespace Net

variable {κ α : Type} {net : Net κ α}

/-- The net comes from a new one by operations, each of which may have failed. -/
def Operated (net : Net κ α) : Prop :=
  ∃ name start operations, create name = .ok start ∧ net = start.operateAll operations

/-- An arc leads from one node to another one. -/
def Arrow (net : Net κ α) (source target : String) : Prop :=
  ∃ arc ∈ net.arcs.values, arc.source = source ∧ arc.target = target

/-- Arcs lead from a node back to it. -/
def OnCycle (net : Net κ α) (node : String) : Prop := Relation.TransGen net.Arrow node node

/-- A node is one of the starts, or arcs lead to it from one of them. -/
def InRegion (net : Net κ α) (starts : List String) (node : String) : Prop :=
  ∃ start ∈ starts, Relation.ReflTransGen net.Arrow start node

namespace Operated

theorem blank (name : String) (net : Net κ α) (created : create name = .ok net) : net.Operated :=
  ⟨name, net, [], created, rfl⟩

theorem shape (operated : net.Operated) : net.Indexed ∧ net.WellFormed := by
  obtain ⟨name, start, operations, created, rfl⟩ := operated
  obtain ⟨shows, consistent⟩ :=
    (Shows.of_create created).operateAll Chronicle.consistent_blank operations
  exact ⟨shows.indexed, shows.wellFormed consistent⟩

theorem operateAll (operated : net.Operated) (operations : List (Operation κ α)) :
    (net.operateAll operations).Operated := by
  obtain ⟨name, start, before, created, rfl⟩ := operated
  exact ⟨name, start, before ++ operations, created, List.foldl_append.symm⟩

theorem operate (operated : net.Operated) (operation : Operation κ α) :
    (net.operate operation).Operated :=
  operated.operateAll [operation]

theorem of_setTokens {other : Net κ α} (places : List String)
    (same : other.bare = net.bare) (rest : ∀ place ∈ net.places.names, place ∉ places →
      other.tokens place = net.tokens place) :
    ∃ operations : List (Operation κ α), net.operateAll operations = other := by
  induction places generalizing net with
  | nil =>
      refine ⟨[], eq_of_tokens same.symm fun place known => ?_⟩
      exact (rest place known List.not_mem_nil).symm
  | cons place more ih =>
      have moved := net.bare_modifyTokens place fun _ => other.tokens place
      obtain ⟨operations, done⟩ := ih (same.trans moved.symm) (by
        intro id known absent
        rw [placeNames_of_bare moved] at known
        rw [tokens_modifyTokens net place _ known]
        by_cases here : id = place
        · rw [if_pos here, here]
        · rw [if_neg here]
          exact rest id known (by simp [here, absent]))
      exact ⟨.setTokens place (other.tokens place) :: operations, done⟩

/-- The tokens of a net can be set as one likes. -/
theorem of_bare {other : Net κ α} (operated : net.Operated) (same : other.bare = net.bare) :
    other.Operated := by
  obtain ⟨operations, rfl⟩ := of_setTokens net.places.names same fun place known absent =>
    absurd known absent
  exact operated.operateAll operations

end Operated

namespace WellFormed

variable (wellFormed : net.WellFormed)

include wellFormed

theorem nodup_nodes : net.nodes.Nodup := by
  refine List.nodup_append.mpr ⟨net.places.nodup_names, net.transitions.nodup_names, ?_⟩
  rintro id place _ transition rfl
  exact wellFormed.apart id place transition

/-- No arc leads from a node to itself. -/
theorem irrefl {source target : String} (arrow : net.Arrow source target) : source ≠ target := by
  obtain ⟨arc, member, rfl, rfl⟩ := arrow
  intro same
  rcases wellFormed.connects arc member with ⟨place, transition⟩ | ⟨transition, place⟩
  · exact wellFormed.apart _ place (same ▸ transition)
  · exact wellFormed.apart _ place (same ▸ transition)

theorem mem_successors {source target : String} :
    target ∈ net.successors source ↔ net.Arrow source target := by
  rw [successors, wellFormed.outgoing, List.mem_map]
  simp only [List.mem_filter, decide_eq_true_eq, Arrow, and_assoc]

theorem onward_iff {source target : String} :
    net.Onward source target ↔ net.Arrow source target := by
  refine ⟨fun onward => wellFormed.mem_successors.mp onward.1,
    fun arrow => ⟨wellFormed.mem_successors.mpr arrow, ?_⟩⟩
  obtain ⟨arc, member, -, rfl⟩ := arrow
  rcases wellFormed.connects arc member with ⟨-, transition⟩ | ⟨-, place⟩
  · exact List.mem_append_right _ transition
  · exact List.mem_append_left _ place

theorem onward_eq : net.Onward = net.Arrow := by
  funext source target
  exact propext wellFormed.onward_iff

/-! ### Regions with an order -/

variable {starts order : List String}

theorem mem_order_iff (found : net.regionOrder starts = .ok order) {node : String} :
    node ∈ order ↔ net.InRegion starts node := by
  obtain ⟨-, -, started, reached, closed, -⟩ := regionOrder_eq_ok wellFormed.nodup_nodes found
  rw [wellFormed.onward_eq] at reached closed
  refine ⟨reached node, ?_⟩
  rintro ⟨start, member, path⟩
  induction path with
  | refl => exact started start member
  | tail _ step ih => exact closed _ ih _ step

/-- An arc of a region leads forward in its order. -/
theorem idxOf_lt (found : net.regionOrder starts = .ok order) {source target : String}
    (inside : source ∈ order) (arrow : net.Arrow source target) :
    order.idxOf source < order.idxOf target := by
  obtain ⟨nodup, -, -, -, closed, forward⟩ := regionOrder_eq_ok wellFormed.nodup_nodes found
  have onward := wellFormed.onward_iff.mpr arrow
  obtain ⟨front, rest, split⟩ := List.append_of_mem (closed source inside target onward)
  have early := (forward front target rest split source inside onward.1).resolve_left
    (wellFormed.irrefl arrow)
  have fresh : target ∉ front := by
    rw [split, List.nodup_append] at nodup
    exact fun late => nodup.2.2 target late target (List.mem_cons_self ..) rfl
  rw [split, List.idxOf_append_of_mem early, List.idxOf_append_of_notMem fresh,
    List.idxOf_cons_self]
  exact Nat.lt_of_lt_of_le (List.idxOf_lt_length_of_mem early) (Nat.le_add_right ..)

/-- No cycle can be reached in a region that has an order. -/
theorem acyclic_of_order (found : net.regionOrder starts = .ok order) {node : String}
    (inside : net.InRegion starts node) : ¬ net.OnCycle node := by
  intro cycle
  suffices climbs : ∀ other, Relation.TransGen net.Arrow node other →
      other ∈ order ∧ order.idxOf node < order.idxOf other from Nat.lt_irrefl _ (climbs node cycle).2
  have member := (wellFormed.mem_order_iff found).mpr inside
  obtain ⟨-, -, -, -, closed, -⟩ := regionOrder_eq_ok wellFormed.nodup_nodes found
  rw [wellFormed.onward_eq] at closed
  intro other path
  induction path with
  | single step => exact ⟨closed _ member _ step, wellFormed.idxOf_lt found member step⟩
  | tail _ step ih =>
      exact ⟨closed _ ih.1 _ step, Nat.lt_trans ih.2 (wellFormed.idxOf_lt found ih.1 step)⟩

/-! ### Regions without one -/

/-- A region of known nodes has an order, or is refused with a node on a cycle in it. -/
theorem order_or_cycle (known : ∀ node ∈ starts, node ∈ net.nodes) :
    (∃ order, net.regionOrder starts = .ok order) ∨
      ∃ node, net.regionOrder starts = .error (.cyclic starts node) ∧ net.InRegion starts node ∧
        net.OnCycle node := by
  obtain ⟨region, reached⟩ := exists_reachableFrom known
  refine (regionOrder_cases wellFormed.nodup_nodes reached).imp_right ?_
  rintro ⟨node, member, cycle, refused⟩
  refine ⟨node, refused, ?_, ?_⟩
  · have started : ∀ start ∈ starts, net.InRegion starts start :=
      fun start member => ⟨start, member, .refl⟩
    refine inside_of_mem_reachableFrom started ?_ reached node member
    rintro source target ⟨start, first, path⟩ onward
    exact ⟨start, first, path.tail (wellFormed.onward_iff.mp onward)⟩
  · refine Relation.TransGen.mono (fun source target step => ?_) _ _ cycle
    refine wellFormed.onward_iff.mp ⟨step.1, ?_⟩
    exact (reachableFrom_eq_ok wellFormed.nodup_nodes reached).2.1 target step.2

/-- A region of known nodes has an order exactly when no cycle can be reached in it. -/
theorem order_iff_acyclic (known : ∀ node ∈ starts, node ∈ net.nodes) :
    (∃ order, net.regionOrder starts = .ok order) ↔
      ∀ node, net.InRegion starts node → ¬ net.OnCycle node := by
  constructor
  · rintro ⟨order, found⟩ node
    exact wellFormed.acyclic_of_order found
  · intro acyclic
    refine (wellFormed.order_or_cycle known).resolve_right ?_
    rintro ⟨node, -, inside, cycle⟩
    exact acyclic node inside cycle

end WellFormed

end Net

/-! ## The circuits of graphs -/

theorem Net.Operated.change {net after : Circuit} (operated : net.Operated) {edit : Edit}
    (changed : edit.change net = .ok after) : after.Operated := by
  have settled : ∀ {made : Except NetError Circuit}, made.mapError Failure.net = .ok after →
      (net.settle made).Operated → after.Operated := by
    intro made same operated
    cases made with
    | error error => cases same
    | ok made =>
        cases same
        exact operated
  have bound : ∀ {id content wanted}, net.bindPlace id content wanted = .ok after →
      after.Operated := by
    intro id content wanted changed
    unfold Circuit.bindPlace at changed
    split at changed
    · exact settled changed (operated.operate (.addPlace id _))
    · dsimp only at changed
      split at changed <;> cases changed
      exact operated
  cases edit with
  | anchorPlace card anchor => exact bound changed
  | eventPlace card anchor => exact bound changed
  | listen card anchor =>
      cases changed
      exact operated
  | place id held =>
      simp only [Edit.change, Circuit.ensurePlace] at changed
      split at changed
      · cases changed
        exact operated
      · exact settled changed (operated.operate (.addPlace id held))
  | transition id action =>
      simp only [Edit.change, Circuit.ensureTransition] at changed
      split at changed
      · cases changed
        exact operated
      · exact settled changed (operated.operate (.addTransition id action))
  | arc source target =>
      simp only [Edit.change, Circuit.ensureArc] at changed
      split at changed
      · cases changed
        exact operated
      · exact settled changed (operated.operate (.addArc source target 1))

namespace Bench

variable {bench after : Bench} (operated : bench.graph.net.Operated)

include operated

theorem operated_apply {edit : Edit} (applied : edit.apply bench = .ok after) :
    after.graph.net.Operated := by
  have netted : ∀ edit : Edit, bench.withNet (edit.change bench.graph.net) = .ok after →
      after.graph.net.Operated := by
    intro edit same
    cases made : edit.change bench.graph.net with
    | error failure =>
        rw [made] at same
        cases same
    | ok net =>
        rw [made] at same
        cases same
        exact operated.change made
  cases edit with
  | listen card anchor =>
      cases applied
      rw [bench.graph_listen]
      exact operated
  | anchorPlace card anchor => exact netted (.anchorPlace card anchor) applied
  | eventPlace card anchor => exact netted (.eventPlace card anchor) applied
  | place id held => exact netted (.place id held) applied
  | transition id action => exact netted (.transition id action) applied
  | arc source target => exact netted (.arc source target) applied

/-- Edits, up to the first that fails. -/
theorem operated_applyAll (edits : List Edit) : (bench.applyAll edits).2.graph.net.Operated := by
  induction edits generalizing bench with
  | nil => exact operated
  | cons edit rest ih =>
      rw [applyAll]
      split
      · next made => exact ih (operated_apply operated made)
      · exact operated

theorem operated_connect (connection : Connection) :
    (bench.connect connection).2.graph.net.Operated := by
  unfold connect
  dsimp only
  split
  · exact operated
  · next parties _ =>
      have laid := operated_applyAll operated (connection.layout parties bench.graph.channel)
      split
      · next same => rwa [same] at laid
      · next same => rwa [same] at laid

theorem operated_connectAll (connections : List Connection) :
    (bench.connectAll connections).2.graph.net.Operated := by
  induction connections generalizing bench with
  | nil => exact operated
  | cons connection rest ih =>
      have connected := operated_connect operated connection
      rw [connectAll]
      split
      · next same => exact ih (by rwa [same] at connected)
      · next same => rwa [same] at connected

theorem operated_recompile : bench.recompile.2.graph.net.Operated := by
  obtain ⟨paths, plan, same⟩ := Graph.recompile_frame (rfl : bench.graph.recompile = _)
  have frame : bench.recompile.2.graph = { bench.graph with paths := paths, plan := plan } := same
  rw [frame]
  exact operated

/-- The circuit of a graph comes by operations, also when the graph cannot be built. -/
theorem operated_construct (connections : List Connection) :
    (bench.construct connections).2.graph.net.Operated := by
  have connected := operated_connectAll operated connections
  unfold construct
  split
  · next same => rwa [same] at connected
  · next middle same =>
      rw [same] at connected
      have laid := operated_applyAll connected
        (middle.graph.cards.flatMap fun card => card.blueprint middle.graph.channel)
      dsimp only
      split
      · next other => rwa [other] at laid
      · next last other =>
          rw [other] at laid
          have seeded : last.seed.graph.net.Operated := laid.of_bare (Net.bare_seedAll ..)
          exact operated_recompile seeded

theorem operated_addConnection (connection : Connection) :
    (bench.addConnection connection).2.graph.net.Operated := by
  have connected := operated_connect operated connection
  unfold addConnection
  split
  · next same => rwa [same] at connected
  · next same => exact operated_recompile (by rwa [same] at connected)

theorem operated_removeConnection (id : String) :
    (bench.removeConnection id).2.graph.net.Operated := by
  unfold removeConnection
  split
  · exact operated
  · next connection _ =>
      refine operated_recompile ?_
      rw [graph_uproot]
      dsimp only
      have bared : (bench.graph.net.bared connection).Operated :=
        (operated.operate (.removeTransition connection.transfer)).operate
          (.removePlace connection.splitPlace)
      unfold Circuit.uprooted
      dsimp only
      split
      · exact bared.operate (.removeTransition _)
      · exact bared

end Bench

/-- The circuit of every graph comes by operations. -/
theorem Bench.Reached.operated {bench : Bench} (reached : bench.Reached) :
    bench.graph.net.Operated := by
  induction reached with
  | @build mode config cards globals board after graph built =>
      unfold Graph.build at built
      split at built
      · cases built
      · next net created =>
          dsimp only at built
          split at built
          · next bench made =>
              cases built
              generalize start : Bench.mk (.blank mode net cards _ _) _ = bare at made
              have fresh : bare.graph.net.Operated := by
                rw [← start]
                exact .blank _ net created
              have whole := operated_construct fresh config.connections
              rwa [made] at whole
          · cases built
  | add connection _ ih => exact operated_addConnection ih connection
  | remove id _ ih => exact operated_removeConnection ih id
  | run board same _ ih => exact ih.of_bare same

/-! ## Plans -/

section Plans

variable {net : Circuit} {entries : List String}

/-- Known entries have a plan where no cycle can be reached from them, and else are refused with a
node on such a cycle. -/
theorem Plan.ofEntries_or_cycle (wellFormed : net.WellFormed)
    (known : ∀ entry ∈ entries, entry ∈ net.nodes) :
    (∃ plan, Plan.ofEntries net entries = .ok plan) ∧
        (∀ node, net.InRegion entries node → ¬ net.OnCycle node) ∨
      ∃ node, Plan.ofEntries net entries = .error (.cyclic entries node) ∧
        net.InRegion entries node ∧ net.OnCycle node := by
  rcases wellFormed.order_or_cycle known with ⟨order, found⟩ | ⟨node, refused, inside, cycle⟩
  · have within := (Net.regionOrder_eq_ok wellFormed.nodup_nodes found).2.1
    obtain ⟨plan, made⟩ := Plan.exists_ofPath entries within
    refine .inl ⟨⟨plan, ?_⟩, fun node => wellFormed.acyclic_of_order found⟩
    rw [Plan.ofEntries, found]
    exact made
  · refine .inr ⟨node, ?_, inside, cycle⟩
    rw [Plan.ofEntries, refused]

theorem Graph.pathsOf_eq_error {paths : Registry Plan} {reason : RegionError}
    (stopped : (pathsOf net entries paths).1 = .error reason) :
    ∃ entry ∈ entries, Plan.ofEntries net [entry] = .error reason := by
  induction entries generalizing paths with
  | nil => cases stopped
  | cons entry rest ih =>
      unfold pathsOf at stopped
      split at stopped
      · obtain ⟨other, member, refused⟩ := ih stopped
        exact ⟨other, List.mem_cons_of_mem _ member, refused⟩
      · next reason refused =>
          obtain rfl := Except.error.inj stopped
          exact ⟨entry, List.mem_cons_self .., refused⟩

/-- The plans of a graph can be made where no entry reaches a cycle, and else are refused at an
entry that reaches one. -/
theorem Graph.compile_or_cycle {graph : Graph} (wellFormed : graph.net.WellFormed) :
    graph.compile.1 = .ok () ∧ (∀ entry ∈ graph.net.entryPlaces, ∀ node,
        graph.net.InRegion [entry] node → ¬ graph.net.OnCycle node) ∨
      ∃ entry ∈ graph.net.entryPlaces, ∃ node,
        graph.compile.1 = .error (.region (.cyclic [entry] node)) ∧
          graph.net.InRegion [entry] node ∧ graph.net.OnCycle node := by
  have places : ∀ entry ∈ graph.net.entryPlaces, entry ∈ graph.net.nodes :=
    fun entry member => List.mem_append_left _ (List.mem_filter.mp member).1
  have known : ∀ entry ∈ graph.net.entryPlaces, ∀ other ∈ [entry], other ∈ graph.net.nodes := by
    rintro entry member other single
    exact List.mem_singleton.mp single ▸ places entry member
  cases paths : (pathsOf graph.net graph.net.entryPlaces .empty).1 with
  | ok _ =>
      have made := (pathsOf_eq_ok .empty).mp paths
      have acyclic : ∀ entry ∈ graph.net.entryPlaces, ∀ node, graph.net.InRegion [entry] node →
          ¬ graph.net.OnCycle node := by
        intro entry member
        rcases Plan.ofEntries_or_cycle wellFormed (known entry member) with ⟨-, acyclic⟩ | refused
        · exact acyclic
        · obtain ⟨plan, found⟩ := made entry member
          obtain ⟨node, refused, -⟩ := refused
          rw [found] at refused
          cases refused
      refine .inl ⟨compile_eq_ok.mpr ⟨made, .inr ?_⟩, acyclic⟩
      rcases Plan.ofEntries_or_cycle wellFormed places with ⟨found, -⟩ | ⟨node, -, inside, cycle⟩
      · exact found
      · obtain ⟨start, member, path⟩ := inside
        exact absurd cycle
          (acyclic start member node ⟨start, List.mem_singleton_self start, path⟩)
  | error reason =>
      obtain ⟨entry, member, refused⟩ := pathsOf_eq_error paths
      rcases Plan.ofEntries_or_cycle wellFormed (known entry member) with
        ⟨⟨plan, found⟩, -⟩ | ⟨node, cyclic, inside, cycle⟩
      · rw [refused] at found
        cases found
      · obtain rfl := Except.error.inj (refused.symm.trans cyclic)
        refine .inr ⟨entry, member, node, ?_, inside, cycle⟩
        unfold compile
        dsimp only
        split
        · next stopped =>
            rw [stopped] at paths
            rw [Except.error.inj paths]
        · next done =>
            rw [done] at paths
            cases paths

end Plans

namespace Net

/-- In a net that comes from a new one by any operations, with any starts: when some are unknown
the region is refused with the first of those. When all are known and no cycle can be reached from
them, the region is ordered: each node that can be reached is listed once and no other, and every
arc of the region leads forward. When a cycle can be reached, the region is refused with a node
on a cycle that can be reached. So the plans of a circuit are refused for a cycle exactly when
some entry reaches one, and for no other reason. -/
theorem regionOrder_or_cycle {κ α : Type} {net : Net κ α} (operated : net.Operated)
    {graph : Graph} (ofGraph : graph.net.Operated) (starts : List String) :
    (∀ front unknown rest, starts = front ++ unknown :: rest →
      (∀ start ∈ front, start ∈ net.nodes) → unknown ∉ net.nodes →
        net.regionOrder starts = .error (.unknownNode unknown)) ∧
    ((∀ start ∈ starts, start ∈ net.nodes) →
      ((∀ node, net.InRegion starts node → ¬ net.OnCycle node) →
        ∃ order, net.regionOrder starts = .ok order ∧ order.Nodup ∧
          (∀ node, node ∈ order ↔ net.InRegion starts node) ∧
          ∀ source ∈ order, ∀ target, net.Arrow source target →
            order.idxOf source < order.idxOf target) ∧
      ((∃ node, net.InRegion starts node ∧ net.OnCycle node) →
        ∃ node, net.regionOrder starts = .error (.cyclic starts node) ∧
          net.InRegion starts node ∧ net.OnCycle node)) ∧
    (graph.compile.1 = .ok () ∨
      ∃ starts node, graph.compile.1 = .error (.region (.cyclic starts node))) ∧
    ((∃ starts node, graph.compile.1 = .error (.region (.cyclic starts node))) ↔
      ∃ entry ∈ graph.net.entryPlaces, ∃ node,
        graph.net.InRegion [entry] node ∧ graph.net.OnCycle node) := by
  have wellFormed : net.WellFormed := operated.shape.2
  refine ⟨?_, fun known => ⟨fun acyclic => ?_, ?_⟩, ?_⟩
  · rintro front unknown rest rfl before absent
    have found : (front ++ unknown :: rest).find? (fun start => !net.hasNode start) =
        some unknown := by
      rw [List.find?_append, List.find?_eq_none.mpr, Option.none_or, List.find?_cons_of_pos]
      · simpa using mt hasNode_eq_true.mp absent
      · intro start member
        simpa using hasNode_eq_true.mpr (before start member)
    rw [regionOrder, reachableFrom, found]
  · obtain ⟨order, found⟩ := (wellFormed.order_iff_acyclic known).mpr acyclic
    exact ⟨order, found, (regionOrder_eq_ok wellFormed.nodup_nodes found).1,
      fun node => wellFormed.mem_order_iff found,
      fun source inside target => wellFormed.idxOf_lt found inside⟩
  · rintro ⟨node, inside, cycle⟩
    refine (wellFormed.order_or_cycle known).resolve_left ?_
    rintro ⟨order, found⟩
    exact wellFormed.acyclic_of_order found inside cycle
  · rcases Graph.compile_or_cycle ofGraph.shape.2 with
      ⟨made, acyclic⟩ | ⟨entry, member, node, refused, inside, cycle⟩
    · refine ⟨.inl made, iff_of_false ?_ ?_⟩
      · rintro ⟨starts, node, refused⟩
        rw [made] at refused
        cases refused
      · rintro ⟨entry, member, node, inside, cycle⟩
        exact acyclic entry member node inside cycle
    · exact ⟨.inr ⟨[entry], node, refused⟩,
        iff_of_true ⟨[entry], node, refused⟩ ⟨entry, member, node, inside, cycle⟩⟩

/-- A place that leads into a cycle, and a place that leads nowhere. -/
def eddy : List (Operation Content Action) :=
  [.addPlace "spring" ⟨.start, 1, none⟩, .addPlace "upper" ⟨.process, 0, none⟩,
    .addPlace "lower" ⟨.process, 0, none⟩, .addTransition "down" .split, .addTransition "up" .split,
    .addArc "spring" "down" 1, .addArc "upper" "down" 1, .addArc "down" "lower" 2,
    .addArc "lower" "up" 1, .addArc "up" "upper" 1, .addPlace "pond" ⟨.finish, 0, none⟩]

theorem regionOrder_or_cycle_eddy : ∃ start : Circuit, create "eddy" = .ok start ∧
    let net := start.operateAll eddy
    net.regionOrder ["spring", "well", "sea"] = .error (.unknownNode "well") ∧
      (∃ order, net.regionOrder ["pond"] = .ok order ∧ ∀ node, node ∈ order ↔ node = "pond") ∧
      (∃ node, net.regionOrder ["spring"] = .error (.cyclic ["spring"] node) ∧
        net.OnCycle node) ∧
      ∃ starts node, (Graph.blank .function net [] 0 false).compile.1 =
        .error (.region (.cyclic starts node)) := by
  have created : create "eddy" =
      .ok (⟨"eddy", .empty, .empty, .empty, .empty, .empty⟩ : Circuit) := rfl
  refine ⟨_, created, ?_⟩
  intro net
  have operated : net.Operated := ⟨_, _, eddy, created, rfl⟩
  have nodes : net.nodes = ["spring", "upper", "lower", "pond", "down", "up"] := by decide +kernel
  have arcs : net.arcs.values = [⟨"spring", "down", 1⟩, ⟨"upper", "down", 1⟩, ⟨"down", "lower", 2⟩,
      ⟨"lower", "up", 1⟩, ⟨"up", "upper", 1⟩] := by decide +kernel
  have entries : net.entryPlaces = ["spring", "pond"] := by decide +kernel
  have arrow : ∀ source target weight, (⟨source, target, weight⟩ : Arc) ∈ net.arcs.values →
      net.Arrow source target := fun source target weight member => ⟨_, member, rfl, rfl⟩
  rw [arcs] at arrow
  have toLower : net.Arrow "down" "lower" := arrow _ _ 2 (by decide)
  have inside : net.InRegion ["spring"] "down" :=
    ⟨"spring", by decide, .single (arrow _ _ 1 (by decide))⟩
  have cycle : net.OnCycle "down" :=
    (((Relation.TransGen.single toLower).tail (arrow _ "up" 1 (by decide))).tail
      (arrow _ "upper" 1 (by decide))).tail (arrow _ _ 1 (by decide))
  have sources : ∀ arc ∈ net.arcs.values, arc.source ≠ "pond" := by
    rw [arcs]
    decide
  have still : ∀ next, ¬ net.Arrow "pond" next :=
    fun next ⟨arc, listed, source, _⟩ => sources arc listed source
  have alone : ∀ node, net.InRegion ["pond"] node → node = "pond" := by
    rintro node ⟨start, member, path⟩
    obtain rfl := List.mem_singleton.mp member
    rcases path.cases_head with same | ⟨next, first, -⟩
    · exact same.symm
    · exact absurd first (still next)
  have calm : ∀ node, net.InRegion ["pond"] node → ¬ net.OnCycle node := by
    intro node within cycle
    obtain rfl := alone node within
    obtain ⟨next, first, -⟩ := Relation.TransGen.head'_iff.mp cycle
    exact still next first
  have ofGraph : (Graph.blank .function net [] 0 false).net.Operated := operated
  have general := regionOrder_or_cycle operated ofGraph
  refine ⟨?_, ?_, ?_, ?_⟩
  · refine (general ["spring", "well", "sea"]).1 ["spring"] "well" ["sea"] rfl ?_ ?_ <;>
      rw [nodes] <;> decide
  · have known : ∀ start ∈ ["pond"], start ∈ net.nodes := by
      rw [nodes]
      decide
    obtain ⟨order, found, -, members, -⟩ := ((general ["pond"]).2.1 known).1 calm
    refine ⟨order, found, fun node => (members node).trans ⟨alone node, ?_⟩⟩
    rintro rfl
    exact ⟨"pond", List.mem_singleton_self _, .refl⟩
  · have known : ∀ start ∈ ["spring"], start ∈ net.nodes := by
      rw [nodes]
      decide
    obtain ⟨node, refused, -, around⟩ :=
      ((general ["spring"]).2.1 known).2 ⟨"down", inside, cycle⟩
    exact ⟨node, refused, around⟩
  · refine (general []).2.2.2.mpr ⟨"spring", ?_, "down", inside, cycle⟩
    show "spring" ∈ net.entryPlaces
    rw [entries]
    exact List.mem_cons_self ..

end Net

end CardNet
