import CardNet.Proofs.Graph.Cycles
import Mathlib.Order.Lattice.Nat

/-!
# Breadth-first lists

The nodes that can be reached from some starts are listed by ascending distance from the nearest
start, the starts first (`Net.reachableFrom_breadth_first`). The queue of the search ascends and
spans two distances at most, and what the search has not met is farther away than the front of the
queue (`Frontier.Layered`); following the front keeps to this (`Frontier.Layered.follow_front`).
-/

namespace CardNet

namespace Net

variable {κ α : Type} {net : Net κ α} {starts : List String}

/-! ## Distances -/

/-- Some number of arcs, one behind the other, lead from one node to another one. -/
inductive Walk (net : Net κ α) (source : String) : Nat → String → Prop where
  | stay : Walk net source 0 source
  | onward {n : Nat} {middle target : String} (before : Walk net source n middle)
      (arrow : net.Arrow middle target) : Walk net source (n + 1) target

theorem Walk.path {source target : String} {n : Nat} (walk : net.Walk source n target) :
    Relation.ReflTransGen net.Arrow source target := by
  induction walk with
  | stay => exact .refl
  | onward _ arrow ih => exact ih.tail arrow

theorem exists_walk {source target : String}
    (path : Relation.ReflTransGen net.Arrow source target) : ∃ n, net.Walk source n target := by
  induction path with
  | refl => exact ⟨0, .stay⟩
  | tail _ arrow ih =>
      obtain ⟨n, walk⟩ := ih
      exact ⟨n + 1, walk.onward arrow⟩

/-- The least number of arcs by which a node can be reached from one of the starts. -/
noncomputable def distance (net : Net κ α) (starts : List String) (node : String) : Nat :=
  sInf {n | ∃ start ∈ starts, net.Walk start n node}

theorem distance_le {start node : String} {n : Nat} (member : start ∈ starts)
    (walk : net.Walk start n node) : net.distance starts node ≤ n :=
  Nat.sInf_le ⟨start, member, walk⟩

namespace InRegion

variable {source target node : String}

theorem start (member : node ∈ starts) : net.InRegion starts node := ⟨node, member, .refl⟩

theorem next (inside : net.InRegion starts source) (arrow : net.Arrow source target) :
    net.InRegion starts target := by
  obtain ⟨start, member, path⟩ := inside
  exact ⟨start, member, path.tail arrow⟩

/-- The distance of a node that can be reached is that of a walk. -/
theorem exists_shortest (inside : net.InRegion starts node) :
    ∃ start ∈ starts, net.Walk start (net.distance starts node) node := by
  obtain ⟨start, member, path⟩ := inside
  obtain ⟨n, walk⟩ := exists_walk path
  have some : {n | ∃ start ∈ starts, net.Walk start n node}.Nonempty := ⟨n, start, member, walk⟩
  exact Nat.sInf_mem some

/-- An arc leads at most one step farther away. -/
theorem distance_next_le (inside : net.InRegion starts source) (arrow : net.Arrow source target) :
    net.distance starts target ≤ net.distance starts source + 1 := by
  obtain ⟨start, member, walk⟩ := inside.exists_shortest
  exact distance_le member (walk.onward arrow)

/-- An arc leads to each node that is no start from a node that is nearer. -/
theorem exists_nearer (inside : net.InRegion starts node) (later : node ∉ starts) :
    ∃ source, net.InRegion starts source ∧ net.Arrow source node ∧
      net.distance starts source < net.distance starts node := by
  obtain ⟨start, member, walk⟩ := inside.exists_shortest
  generalize away : net.distance starts node = n at walk
  cases walk with
  | stay => exact absurd member later
  | @onward n middle _ before arrow =>
      have near : net.distance starts middle ≤ n := distance_le member before
      exact ⟨middle, ⟨start, member, before.path⟩, arrow, by omega⟩

end InRegion

end Net

namespace Frontier

/-! ## The queue of a search -/

section

variable {successors : String → List String}

/-- What is met for the first time joins the queue in the order in which it is met. -/
theorem queue_foldl_meet (nodes : List String) (frontier : Frontier) :
    (nodes.foldl meet frontier).queue =
      frontier.queue ++ (nodes.filter (· ∈ frontier.unseen)).eraseDups := by
  induction nodes generalizing frontier with
  | nil => simp
  | cons node rest ih =>
      rw [List.foldl_cons, ih, meet]
      by_cases fresh : node ∈ frontier.unseen
      · have others : rest.filter (· ∈ without frontier.unseen node) =
            (rest.filter (· ∈ frontier.unseen)).filter fun other => !other == node := by
          rw [List.filter_filter]
          apply List.filter_congr
          intro other _
          simp only [mem_without, Bool.decide_and, decide_not, beq_eq_decide, Bool.and_comm]
        rw [if_pos fresh, List.filter_cons_of_pos (by simpa using fresh), List.eraseDups_cons,
          ← others, List.append_assoc, List.singleton_append]
      · rw [if_neg fresh, List.filter_cons_of_neg (by simpa using fresh)]

/-- The queue is followed first, and in its order. -/
theorem queue_prefix_follow (unseen queue : List String) :
    queue <+: follow successors unseen queue := by
  fun_induction follow successors unseen queue with
  | case1 => exact List.nil_prefix
  | case2 unseen first rest next ih =>
      have onward : rest <+: next.queue := by
        rw [show next.queue = _ from queue_foldl_meet _ _]
        exact List.prefix_append _ _
      rw [List.prefix_cons_inj]
      exact onward.trans ih

end

variable {κ α : Type}

/-- What holds all the time in a search from some starts. The starts are met, and so is every node
that an arc leads to from a node that was followed. The queue ascends by distance, and its distances
differ by one at most. -/
structure Layered (net : Net κ α) (starts : List String) (frontier : Frontier) : Prop where
  started : ∀ start ∈ starts, start ∉ frontier.unseen
  followed : ∀ source target, net.Arrow source target → source ∉ frontier.unseen →
    source ∉ frontier.queue → target ∉ frontier.unseen
  inside : ∀ node ∈ frontier.queue, net.InRegion starts node
  ascending : frontier.queue.Pairwise fun near far =>
    net.distance starts near ≤ net.distance starts far
  narrow : ∀ near ∈ frontier.queue, ∀ far ∈ frontier.queue,
    net.distance starts far ≤ net.distance starts near + 1

namespace Layered

variable {net : Net κ α} {starts unseen rest : List String} {frontier : Frontier}
  {first node : String}

/-- The way to a node that was not met leads over the queue. -/
theorem exists_nearer (layered : Layered net starts frontier) (fresh : node ∈ frontier.unseen)
    (inside : net.InRegion starts node) :
    ∃ queued ∈ frontier.queue, net.distance starts queued < net.distance starts node := by
  generalize away : net.distance starts node = n
  induction n using Nat.strongRecOn generalizing node with
  | ind n ih =>
      have later : node ∉ starts := fun member => layered.started node member fresh
      obtain ⟨source, held, arrow, nearer⟩ := inside.exists_nearer later
      by_cases queued : source ∈ frontier.queue
      · exact ⟨source, queued, by omega⟩
      · have unmet : source ∈ frontier.unseen := by
          by_contra met
          exact layered.followed source node arrow met queued fresh
        obtain ⟨other, member, less⟩ := ih _ (by omega) unmet held rfl
        exact ⟨other, member, by omega⟩

/-- The front of the queue is nearest. -/
theorem distance_front_le (layered : Layered net starts ⟨unseen, first :: rest⟩)
    (member : node ∈ first :: rest) :
    net.distance starts first ≤ net.distance starts node := by
  rcases List.mem_cons.mp member with rfl | later
  · exact Nat.le_refl _
  · exact (List.pairwise_cons.mp layered.ascending).1 node later

/-- What the front leads to and was not met is one step farther away than the front. -/
theorem distance_fresh (layered : Layered net starts ⟨unseen, first :: rest⟩)
    (arrow : net.Arrow first node) (fresh : node ∈ unseen) :
    net.distance starts node = net.distance starts first + 1 := by
  have front := layered.inside first (List.mem_cons_self ..)
  have most := front.distance_next_le arrow
  obtain ⟨queued, member, less⟩ := layered.exists_nearer fresh (front.next arrow)
  have least := layered.distance_front_le member
  omega

/-- Following the front keeps to the layers: what joins the queue is one step farther away than the
front, and nothing in the queue is farther. -/
theorem follow_front (wellFormed : net.WellFormed)
    (layered : Layered net starts ⟨unseen, first :: rest⟩) :
    Layered net starts ((net.successors first).foldl meet ⟨unseen, rest⟩) := by
  have front : net.InRegion starts first := layered.inside first (List.mem_cons_self ..)
  have queued : ∀ {other}, other ∈ ((net.successors first).foldl meet ⟨unseen, rest⟩).queue →
      other ∈ first :: rest ∨ net.Arrow first other ∧ other ∈ unseen := by
    intro other member
    rcases mem_queue_foldl_meet.mp member with old | ⟨leads, fresh⟩
    · exact .inl (List.mem_cons_of_mem _ old)
    · exact .inr ⟨wellFormed.mem_successors.mp leads, fresh⟩
  have least : ∀ other ∈ ((net.successors first).foldl meet ⟨unseen, rest⟩).queue,
      net.distance starts first ≤ net.distance starts other := by
    intro other member
    rcases queued member with old | ⟨arrow, fresh⟩
    · exact layered.distance_front_le old
    · have farther := layered.distance_fresh arrow fresh
      omega
  have most : ∀ other ∈ ((net.successors first).foldl meet ⟨unseen, rest⟩).queue,
      net.distance starts other ≤ net.distance starts first + 1 := by
    intro other member
    rcases queued member with old | ⟨arrow, -⟩
    · exact layered.narrow first (List.mem_cons_self ..) other old
    · exact front.distance_next_le arrow
  refine ⟨fun start member unmet => ?_, fun source target arrow met out unmet => ?_,
    fun other member => ?_, ?_, fun near member far joined => ?_⟩
  · exact layered.started start member (mem_unseen_foldl_meet.mp unmet).1
  · rw [mem_unseen_foldl_meet] at met unmet
    rw [mem_queue_foldl_meet, not_or] at out
    have known : source ∉ unseen := fun fresh => met ⟨fresh, fun leads => out.2 ⟨leads, fresh⟩⟩
    by_cases same : source = first
    · exact unmet.2 (wellFormed.mem_successors.mpr (same ▸ arrow))
    · exact layered.followed source target arrow known (by simp [same, out.1]) unmet.1
  · rcases queued member with old | ⟨arrow, -⟩
    · exact layered.inside other old
    · exact front.next arrow
  · rw [queue_foldl_meet, List.pairwise_append]
    have far : ∀ other ∈ ((net.successors first).filter (· ∈ unseen)).eraseDups,
        net.distance starts other = net.distance starts first + 1 := by
      intro other member
      rw [List.mem_eraseDups, List.mem_filter, decide_eq_true_eq] at member
      exact layered.distance_fresh (wellFormed.mem_successors.mp member.1) member.2
    refine ⟨(List.pairwise_cons.mp layered.ascending).2, ?_, fun near old other joined => ?_⟩
    · apply List.pairwise_of_forall_mem_list
      intro near joined other later
      rw [far near joined, far other later]
    · rw [far other joined]
      exact layered.narrow first (List.mem_cons_self ..) near (List.mem_cons_of_mem _ old)
  · have lower := least near member
    have upper := most far joined
    omega

/-- What is followed from here on is no nearer than the queue, and ascends. -/
theorem pairwise_follow (wellFormed : net.WellFormed) {queue : List String}
    (layered : Layered net starts ⟨unseen, queue⟩) :
    (follow net.successors unseen queue).Pairwise fun near far =>
      net.distance starts near ≤ net.distance starts far := by
  fun_induction follow net.successors unseen queue with
  | case1 => exact .nil
  | case2 unseen first rest next ih =>
      have after : Layered net starts next := layered.follow_front wellFormed
      refine List.pairwise_cons.mpr ⟨fun node member => ?_, ih after⟩
      have inside : net.InRegion starts node :=
        inside_of_mem_follow after.inside (fun source held target leads _ =>
          held.next (wellFormed.mem_successors.mp leads)) member
      have later : node ∈ follow net.successors unseen (first :: rest) := by
        rw [follow]
        exact List.mem_cons_of_mem _ member
      rcases mem_follow later with queued | fresh
      · exact layered.distance_front_le queued
      · obtain ⟨queued, held, less⟩ := layered.exists_nearer fresh inside
        exact Nat.le_trans (layered.distance_front_le held) (Nat.le_of_lt less)

end Layered

end Frontier

namespace Net

variable {κ α : Type} {net : Net κ α} {starts : List String}

/-- Arcs lead away from nodes only. -/
theorem WellFormed.source_mem_nodes (wellFormed : net.WellFormed) {source target : String}
    (arrow : net.Arrow source target) : source ∈ net.nodes := by
  obtain ⟨arc, member, rfl, -⟩ := arrow
  rcases wellFormed.connects arc member with ⟨place, -⟩ | ⟨transition, -⟩
  · exact List.mem_append_left _ place
  · exact List.mem_append_right _ transition

/-- A search starts with nothing but the starts in its queue. -/
theorem WellFormed.layered_starts (wellFormed : net.WellFormed) (starts : List String) :
    Frontier.Layered net starts (starts.foldl Frontier.meet ⟨net.nodes, []⟩) := by
  have queued : ∀ {node}, node ∈ (starts.foldl Frontier.meet ⟨net.nodes, []⟩).queue →
      node ∈ starts := by
    intro node member
    exact ((Frontier.mem_queue_foldl_meet.mp member).resolve_left List.not_mem_nil).1
  have none : ∀ {node}, node ∈ starts → net.distance starts node = 0 :=
    fun member => Nat.le_zero.mp (distance_le member .stay)
  refine ⟨fun start member unmet => ?_, fun source target arrow met out unmet => ?_,
    fun node member => .start (queued member), ?_, fun near _ far joined => ?_⟩
  · exact (Frontier.mem_unseen_foldl_meet.mp unmet).2 member
  · -- No arc leads away from what is not a node.
    have node : source ∈ net.nodes := wellFormed.source_mem_nodes arrow
    by_cases member : source ∈ starts
    · exact out (Frontier.mem_queue_foldl_meet.mpr (.inr ⟨member, node⟩))
    · exact met (Frontier.mem_unseen_foldl_meet.mpr ⟨node, member⟩)
  · apply List.pairwise_of_forall_mem_list
    intro near member far _
    rw [none (queued member)]
    exact Nat.zero_le _
  · rw [none (queued joined)]
    exact Nat.zero_le _

/-- A search from starts that are nodes is not refused. -/
theorem reachableFrom_eq_follow (known : ∀ start ∈ starts, start ∈ net.nodes) :
    net.reachableFrom starts = .ok (Frontier.follow net.successors
      (starts.foldl Frontier.meet ⟨net.nodes, []⟩).unseen
      (starts.foldl Frontier.meet ⟨net.nodes, []⟩).queue) := by
  have none : starts.find? (fun start => !net.hasNode start) = none := by
    rw [List.find?_eq_none]
    intro start member
    rw [Bool.not_eq_true, Bool.not_eq_false', hasNode_eq_true]
    exact known start member
  rw [reachableFrom, none]

/-- In a net that comes from a new one by any operations, a search from starts that are nodes ends.
It lists each node that can be reached from the starts once and no other, by ascending distance from
the nearest start, and begins with the starts in their order, each where it comes first. -/
theorem reachableFrom_breadth_first (operated : net.Operated)
    (known : ∀ start ∈ starts, start ∈ net.nodes) :
    ∃ order, net.reachableFrom starts = .ok order ∧ order.Nodup ∧
      (∀ node, node ∈ order ↔ net.InRegion starts node) ∧
      order.Pairwise (fun near far => net.distance starts near ≤ net.distance starts far) ∧
      starts.eraseDups <+: order := by
  have wellFormed : net.WellFormed := operated.shape.2
  have found := reachableFrom_eq_follow known
  obtain ⟨nodup, -, started, closed⟩ := reachableFrom_eq_ok wellFormed.nodup_nodes found
  refine ⟨_, found, nodup, fun node => ⟨fun member => ?_, ?_⟩,
    (wellFormed.layered_starts starts).pairwise_follow wellFormed, ?_⟩
  · refine inside_of_mem_reachableFrom (fun start member => .start member) ?_ found node member
    exact fun source target held onward => held.next (wellFormed.onward_iff.mp onward)
  · rintro ⟨start, member, path⟩
    induction path with
    | refl => exact started start member
    | tail _ arrow ih =>
        have onward := wellFormed.onward_iff.mpr arrow
        exact closed _ ih _ onward.1 onward.2
  · have queue : (starts.foldl Frontier.meet ⟨net.nodes, []⟩).queue = starts.eraseDups := by
      rw [Frontier.queue_foldl_meet, List.nil_append, List.filter_eq_self.mpr]
      exact fun start member => decide_eq_true (known start member)
    rw [← queue]
    exact Frontier.queue_prefix_follow _ _

/-- Starts on a cycle and before it, one of them twice. -/
theorem reachableFrom_breadth_first_eddy : ∃ start : Circuit, create "eddy" = .ok start ∧
    let net := start.operateAll eddy
    let starts := ["lower", "spring", "lower"]
    let order := ["lower", "spring", "up", "down", "upper"]
    (∀ start ∈ starts, start ∈ net.nodes) ∧ net.reachableFrom starts = .ok order ∧
      (∀ node, node ∈ order ↔ net.InRegion starts node) ∧
      order.Pairwise (fun near far => net.distance starts near ≤ net.distance starts far) ∧
      ["lower", "spring"] <+: order := by
  have created : create "eddy" =
      .ok (⟨"eddy", .empty, .empty, .empty, .empty, .empty⟩ : Circuit) := rfl
  refine ⟨_, created, ?_⟩
  intro net starts order
  have operated : net.Operated := ⟨_, _, eddy, created, rfl⟩
  have known : ∀ start ∈ starts, start ∈ net.nodes := by decide +kernel
  have listed : net.reachableFrom starts = .ok order := by decide +kernel
  obtain ⟨_, found, -, region, ascending, first⟩ := reachableFrom_breadth_first operated known
  obtain rfl := Except.ok.inj (listed.symm.trans found)
  have distinct : starts.eraseDups = ["lower", "spring"] := by decide
  exact ⟨known, listed, region, ascending, distinct ▸ first⟩

end Net

end CardNet
