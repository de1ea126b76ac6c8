import CardNet.Net.Region
import CardNet.Proofs.Net.MarkedGraph

/-!
# The order of a region

The breadth-first list of a region has every node that an arc of the region leads to
(`Net.reachableFrom_eq_ok`). A depth-first search finishes each node of the list once
(`Descent.order_perm`), and where arcs lead from lower to higher rank it finishes a node after all
nodes that its arcs lead to (`Descent.settled_order`). So a region without a cycle has an order
(`Net.regionOrder_of_ascending`), and every order that is accepted lists a node behind all nodes
that lead to it (`Net.regionOrder_spec`).
-/

namespace CardNet

theorem mem_without {nodes : List String} {node other : String} :
    other ∈ without nodes node ↔ other ∈ nodes ∧ other ≠ node := by
  simp [without]

namespace Frontier

variable {successors : String → List String}

/-- No node is listed twice. -/
structure Distinct (frontier : Frontier) : Prop where
  unseen : frontier.unseen.Nodup
  queue : frontier.queue.Nodup
  apart : ∀ node ∈ frontier.queue, node ∉ frontier.unseen

theorem mem_unseen_meet {frontier : Frontier} {node other : String} :
    other ∈ (frontier.meet node).unseen ↔ other ∈ frontier.unseen ∧ other ≠ node := by
  unfold meet
  split
  · exact mem_without
  · next absent => exact ⟨fun member => ⟨member, fun same => absent (same ▸ member)⟩, And.left⟩

theorem mem_queue_meet {frontier : Frontier} {node other : String} :
    other ∈ (frontier.meet node).queue ↔
      other ∈ frontier.queue ∨ other = node ∧ other ∈ frontier.unseen := by
  unfold meet
  split
  · next fresh =>
      simp only [List.mem_append, List.mem_singleton]
      exact or_congr_right ⟨fun same => ⟨same, same ▸ fresh⟩, And.left⟩
  · next absent =>
      exact ⟨.inl, fun either => either.resolve_right fun both => absent (both.1 ▸ both.2)⟩

theorem mem_unseen_foldl_meet {nodes : List String} {frontier : Frontier} {other : String} :
    other ∈ (nodes.foldl meet frontier).unseen ↔ other ∈ frontier.unseen ∧ other ∉ nodes := by
  induction nodes generalizing frontier with
  | nil => simp
  | cons node rest ih =>
      rw [List.foldl_cons, ih, mem_unseen_meet, List.mem_cons, not_or, and_assoc]

theorem mem_queue_foldl_meet {nodes : List String} {frontier : Frontier} {other : String} :
    other ∈ (nodes.foldl meet frontier).queue ↔
      other ∈ frontier.queue ∨ other ∈ nodes ∧ other ∈ frontier.unseen := by
  induction nodes generalizing frontier with
  | nil => simp
  | cons node rest ih =>
      rw [List.foldl_cons, ih, mem_queue_meet, mem_unseen_meet, List.mem_cons]
      by_cases same : other = node <;> simp [same]

theorem Distinct.meet {frontier : Frontier} (distinct : frontier.Distinct) (node : String) :
    (frontier.meet node).Distinct where
  unseen := by
    unfold Frontier.meet
    split
    · exact distinct.unseen.filter _
    · exact distinct.unseen
  queue := by
    unfold Frontier.meet
    split
    · next fresh =>
        refine List.nodup_append.mpr ⟨distinct.queue, by simp, ?_⟩
        rintro other member last single rfl
        exact distinct.apart other member (List.mem_singleton.mp single ▸ fresh)
    · exact distinct.queue
  apart := by
    intro other queued waiting
    obtain ⟨unseen, differ⟩ := mem_unseen_meet.mp waiting
    rcases mem_queue_meet.mp queued with member | ⟨same, -⟩
    · exact distinct.apart other member unseen
    · exact differ same

theorem Distinct.foldl_meet {frontier : Frontier} (distinct : frontier.Distinct)
    (nodes : List String) : (nodes.foldl Frontier.meet frontier).Distinct := by
  induction nodes generalizing frontier with
  | nil => exact distinct
  | cons node rest ih => exact ih (distinct.meet node)

theorem mem_follow {unseen queue : List String} {node : String}
    (member : node ∈ follow successors unseen queue) : node ∈ queue ∨ node ∈ unseen := by
  fun_induction follow successors unseen queue with
  | case1 => simp at member
  | case2 unseen first rest next ih =>
      rcases List.mem_cons.mp member with rfl | later
      · exact .inl (List.mem_cons_self ..)
      · rcases ih later with queued | waiting
        · rcases mem_queue_foldl_meet.mp queued with old | ⟨-, fresh⟩
          · exact .inl (List.mem_cons_of_mem _ old)
          · exact .inr fresh
        · exact .inr (mem_unseen_foldl_meet.mp waiting).1

/-- Whatever is followed has what the queue has, if arcs pass it on. -/
theorem inside_of_mem_follow {inside : String → Prop} {unseen queue : List String} {node : String}
    (queued : ∀ other ∈ queue, inside other)
    (closed : ∀ source, inside source → ∀ target ∈ successors source, target ∈ unseen →
      inside target)
    (member : node ∈ follow successors unseen queue) : inside node := by
  fun_induction follow successors unseen queue with
  | case1 => simp at member
  | case2 unseen first rest next ih =>
      rcases List.mem_cons.mp member with rfl | later
      · exact queued node (List.mem_cons_self ..)
      · refine ih (fun other waiting => ?_) (fun source held target leads fresh => ?_) later
        · rcases mem_queue_foldl_meet.mp waiting with old | ⟨leads, fresh⟩
          · exact queued other (List.mem_cons_of_mem _ old)
          · exact closed first (queued first (List.mem_cons_self ..)) other leads fresh
        · exact closed source held target leads (mem_unseen_foldl_meet.mp fresh).1

theorem mem_follow_of_mem_queue {unseen queue : List String} {node : String}
    (member : node ∈ queue) : node ∈ follow successors unseen queue := by
  fun_induction follow successors unseen queue with
  | case1 => exact member
  | case2 unseen first rest next ih =>
      rcases List.mem_cons.mp member with rfl | later
      · exact List.mem_cons_self ..
      · exact List.mem_cons_of_mem _ (ih (mem_queue_foldl_meet.mpr (.inl later)))

/-- What is met on the way is followed too. -/
theorem mem_follow_of_mem_successors {unseen queue : List String} {node other : String}
    (member : node ∈ follow successors unseen queue) (next : other ∈ successors node)
    (fresh : other ∈ unseen) : other ∈ follow successors unseen queue := by
  fun_induction follow successors unseen queue with
  | case1 => simp at member
  | case2 unseen first rest met ih =>
      rcases List.mem_cons.mp member with rfl | later
      · refine List.mem_cons_of_mem _ (mem_follow_of_mem_queue ?_)
        exact mem_queue_foldl_meet.mpr (.inr ⟨next, fresh⟩)
      · by_cases known : other ∈ successors first
        · refine List.mem_cons_of_mem _ (mem_follow_of_mem_queue ?_)
          exact mem_queue_foldl_meet.mpr (.inr ⟨known, fresh⟩)
        · exact List.mem_cons_of_mem _ (ih later (mem_unseen_foldl_meet.mpr ⟨fresh, known⟩))

theorem nodup_follow {unseen queue : List String}
    (distinct : (⟨unseen, queue⟩ : Frontier).Distinct) :
    (follow successors unseen queue).Nodup := by
  fun_induction follow successors unseen queue with
  | case1 => exact List.nodup_nil
  | case2 unseen first rest next ih =>
      have fewer : (⟨unseen, rest⟩ : Frontier).Distinct :=
        ⟨distinct.unseen, (List.nodup_cons.mp distinct.queue).2,
          fun node member => distinct.apart node (List.mem_cons_of_mem _ member)⟩
      refine List.nodup_cons.mpr ⟨fun again => ?_, ih (fewer.foldl_meet _)⟩
      have gone := distinct.apart first (List.mem_cons_self ..)
      rcases mem_follow again with queued | waiting
      · rcases mem_queue_foldl_meet.mp queued with old | ⟨-, fresh⟩
        · exact (List.nodup_cons.mp distinct.queue).1 old
        · exact gone fresh
      · exact gone (mem_unseen_foldl_meet.mp waiting).1

end Frontier

namespace Descent

variable {successors : String → List String} {nodes unmet finished stack : List String}

/-- What holds all the time in a search of some nodes: no node is finished twice, and a node that
was met and is not finished is on the stack. -/
structure Sound (nodes unmet finished stack : List String) : Prop where
  stacked : ∀ node ∈ stack, node ∈ nodes
  waiting : ∀ node ∈ unmet, node ∈ nodes
  within : ∀ node ∈ finished, node ∈ nodes
  nodup : finished.Nodup
  apart : ∀ node ∈ finished, node ∉ unmet
  opened : ∀ node ∈ nodes, node ∉ unmet → node ∉ finished → node ∈ stack

namespace Sound

variable {node : String} {rest : List String}

/-- A node that is met for the first time. -/
theorem expand (sound : Sound nodes unmet finished (node :: rest)) :
    Sound nodes (without unmet node) finished
      ((successors node).filter (· ∈ without unmet node) ++ node :: rest) where
  stacked := by
    intro other member
    rcases List.mem_append.mp member with next | old
    · have fresh := of_decide_eq_true (List.mem_filter.mp next).2
      exact sound.waiting other (mem_without.mp fresh).1
    · exact sound.stacked other old
  waiting := fun other member => sound.waiting other (mem_without.mp member).1
  within := sound.within
  nodup := sound.nodup
  apart := fun other member fresh => sound.apart other member (mem_without.mp fresh).1
  opened := by
    intro other known met unfinished
    refine List.mem_append_right _ ?_
    by_cases same : other = node
    · exact same ▸ List.mem_cons_self ..
    · exact sound.opened other known (fun fresh => met (mem_without.mpr ⟨fresh, same⟩)) unfinished

/-- A node that was finished before. -/
theorem skip (sound : Sound nodes unmet finished (node :: rest)) (done : node ∈ finished) :
    Sound nodes unmet finished rest where
  stacked := fun other member => sound.stacked other (List.mem_cons_of_mem _ member)
  waiting := sound.waiting
  within := sound.within
  nodup := sound.nodup
  apart := sound.apart
  opened := fun other known met unfinished =>
    (List.mem_cons.mp (sound.opened other known met unfinished)).resolve_left
      fun same => unfinished (same ▸ done)

/-- A node that is finished now. -/
theorem finish (sound : Sound nodes unmet finished (node :: rest)) (met : node ∉ unmet)
    (open' : node ∉ finished) : Sound nodes unmet (node :: finished) rest where
  stacked := fun other member => sound.stacked other (List.mem_cons_of_mem _ member)
  waiting := sound.waiting
  within := by
    intro other member
    rcases List.mem_cons.mp member with rfl | old
    · exact sound.stacked other (List.mem_cons_self ..)
    · exact sound.within other old
  nodup := List.nodup_cons.mpr ⟨open', sound.nodup⟩
  apart := by
    intro other member
    rcases List.mem_cons.mp member with rfl | old
    · exact met
    · exact sound.apart other old
  opened := by
    intro other known unseen unfinished
    rw [List.mem_cons, not_or] at unfinished
    exact (List.mem_cons.mp (sound.opened other known unseen unfinished.2)).resolve_left
      unfinished.1

/-- Working the stack off meets all nodes on it and leaves no node unfinished that it meets. -/
theorem descend (sound : Sound nodes unmet finished stack) :
    Sound nodes (Descent.descend successors unmet finished stack).unmet
        (Descent.descend successors unmet finished stack).finished [] ∧
      (∀ other ∈ (Descent.descend successors unmet finished stack).unmet, other ∈ unmet) ∧
      ∀ other ∈ stack, other ∉ (Descent.descend successors unmet finished stack).unmet := by
  fun_induction Descent.descend successors unmet finished stack with
  | case1 unmet finished => exact ⟨sound, fun _ member => member, by simp⟩
  | case2 unmet finished node rest fresh fewer next ih =>
      obtain ⟨after, shrunk, met⟩ := ih sound.expand
      refine ⟨after, fun other member => (mem_without.mp (shrunk other member)).1, ?_⟩
      exact fun other member => met other (List.mem_append_right _ member)
  | case3 unmet finished node rest seen done ih =>
      obtain ⟨after, shrunk, met⟩ := ih (sound.skip done)
      refine ⟨after, shrunk, fun other member again => ?_⟩
      rcases List.mem_cons.mp member with rfl | later
      · exact seen (shrunk other again)
      · exact met other later again
  | case4 unmet finished node rest seen unfinished ih =>
      obtain ⟨after, shrunk, met⟩ := ih (sound.finish seen unfinished)
      refine ⟨after, shrunk, fun other member again => ?_⟩
      rcases List.mem_cons.mp member with rfl | later
      · exact seen (shrunk other again)
      · exact met other later again

/-- Between visits the stack is empty, so every node that was met is finished. -/
theorem start (sound : Sound nodes unmet finished []) (known : node ∈ nodes) :
    Sound nodes unmet finished [node] :=
  { sound with
    stacked := by simpa using known
    opened := fun other inside met unfinished =>
      (List.not_mem_nil (sound.opened other inside met unfinished)).elim }

theorem visit {search : Descent} (sound : Sound nodes search.unmet search.finished [])
    (known : node ∈ nodes) :
    Sound nodes (search.visit successors node).unmet (search.visit successors node).finished [] ∧
      (∀ other ∈ (search.visit successors node).unmet, other ∈ search.unmet) ∧
      node ∉ (search.visit successors node).unmet := by
  unfold Descent.visit
  split
  · obtain ⟨after, shrunk, met⟩ := (sound.start known).descend
    exact ⟨after, shrunk, met node (List.mem_singleton_self node)⟩
  · next met => exact ⟨sound, fun _ member => member, met⟩

theorem foldl_visit (search : Descent) (sound : Sound nodes search.unmet search.finished [])
    {visited : List String} (known : ∀ node ∈ visited, node ∈ nodes) :
    Sound nodes (visited.foldl (Descent.visit successors) search).unmet
        (visited.foldl (Descent.visit successors) search).finished [] ∧
      (∀ other ∈ (visited.foldl (Descent.visit successors) search).unmet,
        other ∈ search.unmet) ∧
      ∀ other ∈ visited, other ∉ (visited.foldl (Descent.visit successors) search).unmet := by
  induction visited generalizing search with
  | nil => exact ⟨sound, fun _ member => member, by simp⟩
  | cons node rest ih =>
      obtain ⟨after, shrunk, met⟩ :=
        sound.visit (known node (List.mem_cons_self ..))
      obtain ⟨last, fewer, all⟩ := ih _ after fun other member =>
        known other (List.mem_cons_of_mem _ member)
      refine ⟨last, fun other member => shrunk other (fewer other member), ?_⟩
      intro other member again
      rcases List.mem_cons.mp member with rfl | later
      · exact met (fewer other again)
      · exact all other later again

end Sound

theorem sound_start (nodes : List String) : Sound nodes nodes [] [] where
  stacked := by simp
  waiting := fun _ member => member
  within := by simp
  nodup := List.nodup_nil
  apart := by simp
  opened := fun _ known fresh => (fresh known).elim

/-- The search finishes each node once. -/
theorem order_perm (distinct : nodes.Nodup) : (order successors nodes).Perm nodes := by
  obtain ⟨sound, -, met⟩ := (sound_start nodes).foldl_visit ⟨nodes, []⟩
    fun _ member => member
  refine (List.perm_ext_iff_of_nodup sound.nodup distinct).mpr fun node => ?_
  refine ⟨sound.within node, fun known => ?_⟩
  by_contra unfinished
  exact List.not_mem_nil (sound.opened node known (met node known) unfinished)

/-! ### What the search says about cycles -/

/-- A node of some nodes has an arc to another one. -/
def Step (successors : String → List String) (nodes : List String) (source target : String) :
    Prop :=
  target ∈ successors source ∧ target ∈ nodes

/-- Every node of the list is followed by the nodes that its arcs lead to, but for those from which
it can be reached. -/
def Settled (successors : String → List String) (nodes : List String) : List String → Prop
  | [] => True
  | node :: rest =>
      (∀ other ∈ successors node, other ∈ nodes →
        other ∈ rest ∨ Relation.ReflTransGen (Step successors nodes) other node) ∧
      Settled successors nodes rest

/-- What holds all the time in a search: above a node that was met and is not finished the stack
has only nodes that can be reached from it, and among them all nodes that its arcs lead to and
that were not met so far. -/
structure Nested (successors : String → List String) (nodes unmet finished stack : List String) :
    Prop where
  settled : Settled successors nodes finished
  above : ∀ node ∈ stack, node ∉ unmet → node ∉ finished →
    ∀ other ∈ stack.takeWhile (· ≠ node), Relation.TransGen (Step successors nodes) node other
  pending : ∀ node ∈ stack, node ∉ unmet → node ∉ finished →
    ∀ other ∈ successors node, other ∈ unmet → other ∈ stack.takeWhile (· ≠ node)

namespace Nested

variable {node : String} {rest : List String}

/-- The node on top was met, and nothing is expected above it any more. -/
private theorem drop (nested : Nested successors nodes unmet finished (node :: rest))
    (met : node ∉ unmet) {done : List String} (settled : Settled successors nodes done)
    (more : ∀ other, other ∉ done → node ≠ other ∧ other ∉ finished) :
    Nested successors nodes unmet done rest where
  settled := settled
  above := by
    intro other member seen open'
    obtain ⟨differ, unfinished⟩ := more other open'
    have old := nested.above other (List.mem_cons_of_mem _ member) seen unfinished
    rw [List.takeWhile_cons_of_pos (by simpa using differ)] at old
    exact fun higher inside => old higher (List.mem_cons_of_mem _ inside)
  pending := by
    intro other member seen open' target leads fresh
    obtain ⟨differ, unfinished⟩ := more other open'
    have old := nested.pending other (List.mem_cons_of_mem _ member) seen unfinished target leads
      fresh
    rw [List.takeWhile_cons_of_pos (by simpa using differ), List.mem_cons] at old
    exact old.resolve_left fun same => met (same ▸ fresh)

theorem skip (nested : Nested successors nodes unmet finished (node :: rest)) (met : node ∉ unmet)
    (done : node ∈ finished) : Nested successors nodes unmet finished rest :=
  nested.drop met nested.settled fun _ unfinished => ⟨fun same => unfinished (same ▸ done),
    unfinished⟩

/-- When a node is finished its arcs lead to finished nodes, and to nodes below it on the stack,
from which it can be reached. -/
theorem finish (nested : Nested successors nodes unmet finished (node :: rest))
    (sound : Sound nodes unmet finished (node :: rest)) (met : node ∉ unmet)
    (unfinished : node ∉ finished) : Nested successors nodes unmet (node :: finished) rest := by
  refine nested.drop met ⟨fun other leads known => ?_, nested.settled⟩ fun other open' => ?_
  · by_cases done : other ∈ finished
    · exact .inl done
    by_cases same : other = node
    · exact .inr (same ▸ .refl)
    have pending := nested.pending node (List.mem_cons_self ..) met unfinished other leads
    rw [List.takeWhile_cons_of_neg (by simp)] at pending
    have seen : other ∉ unmet := fun fresh => List.not_mem_nil (pending fresh)
    refine .inr (nested.above other (sound.opened other known seen done) seen done node ?_).to_reflTransGen
    rw [List.takeWhile_cons_of_pos (by simpa using Ne.symm same)]
    exact List.mem_cons_self ..
  · rw [List.mem_cons, not_or] at open'
    exact ⟨Ne.symm open'.1, open'.2⟩

theorem expand (nested : Nested successors nodes unmet finished (node :: rest))
    (sound : Sound nodes unmet finished (node :: rest)) :
    Nested successors nodes (without unmet node) finished
      ((successors node).filter (· ∈ without unmet node) ++ node :: rest) := by
  have next : ∀ other, other ∉ without unmet node →
      ((successors node).filter (· ∈ without unmet node) ++ node :: rest).takeWhile (· ≠ other) =
        (successors node).filter (· ∈ without unmet node) ++
          (node :: rest).takeWhile (· ≠ other) := by
    intro other met
    refine List.takeWhile_append_of_pos fun above member => ?_
    have waiting := of_decide_eq_true (List.mem_filter.mp member).2
    exact decide_eq_true fun same => met (same ▸ waiting)
  have old : ∀ other, other ≠ node → other ∉ without unmet node → other ∉ unmet :=
    fun other differ met waiting => met (mem_without.mpr ⟨waiting, differ⟩)
  have listed : ∀ other, other ∉ without unmet node → other ∈
      (successors node).filter (· ∈ without unmet node) ++ node :: rest →
        other ∈ node :: rest := by
    intro other met member
    refine (List.mem_append.mp member).resolve_left fun waiting => ?_
    exact met (of_decide_eq_true (List.mem_filter.mp waiting).2)
  have step : ∀ other ∈ (successors node).filter (· ∈ without unmet node),
      Step successors nodes node other := by
    intro other member
    obtain ⟨leads, waiting⟩ := List.mem_filter.mp member
    exact ⟨leads, sound.waiting other (mem_without.mp (of_decide_eq_true waiting)).1⟩
  refine ⟨nested.settled, ?_, ?_⟩
  · intro other member met unfinished higher inside
    rw [next other met, List.mem_append] at inside
    by_cases same : other = node
    · subst same
      rw [List.takeWhile_cons_of_neg (by simp)] at inside
      exact .single (step higher (inside.resolve_right List.not_mem_nil))
    · have before := nested.above other (listed other met member) (old other same met) unfinished
      rcases inside with waiting | inside
      · refine .tail (before node ?_) (step higher waiting)
        rw [List.takeWhile_cons_of_pos (by simpa using Ne.symm same)]
        exact List.mem_cons_self ..
      · exact before higher inside
  · intro other member met unfinished target leads fresh
    rw [next other met, List.mem_append]
    by_cases same : other = node
    · exact .inl (List.mem_filter.mpr ⟨same ▸ leads, decide_eq_true fresh⟩)
    · exact .inr (nested.pending other (listed other met member) (old other same met) unfinished
        target leads (mem_without.mp fresh).1)

theorem descend (nested : Nested successors nodes unmet finished stack)
    (sound : Sound nodes unmet finished stack) :
    Settled successors nodes (Descent.descend successors unmet finished stack).finished := by
  fun_induction Descent.descend successors unmet finished stack with
  | case1 => exact nested.settled
  | case2 unmet finished node rest fresh fewer next ih =>
      exact ih (nested.expand sound) sound.expand
  | case3 unmet finished node rest seen done ih =>
      exact ih (nested.skip seen done) (sound.skip done)
  | case4 unmet finished node rest seen unfinished ih =>
      exact ih (nested.finish sound seen unfinished) (sound.finish seen unfinished)

end Nested

/-- The search lists every node before the nodes that its arcs lead to, or they lie on a cycle. -/
theorem settled_order (successors : String → List String) (nodes : List String) :
    Settled successors nodes (order successors nodes) := by
  suffices go : ∀ (visited : List String) (search : Descent), (∀ node ∈ visited, node ∈ nodes) →
      Sound nodes search.unmet search.finished [] → Settled successors nodes search.finished →
        Settled successors nodes (visited.foldl (visit successors) search).finished from
    go nodes ⟨nodes, []⟩ (fun _ member => member) (sound_start nodes) trivial
  intro visited
  induction visited with
  | nil => exact fun _ _ _ settled => settled
  | cons node rest ih =>
      intro search known sound settled
      refine ih _ (fun other member => known other (List.mem_cons_of_mem _ member))
        (sound.visit (known node (List.mem_cons_self ..))).1 ?_
      unfold visit
      split
      · next fresh =>
          have start := sound.start (known node (List.mem_cons_self ..))
          refine Nested.descend ⟨settled, ?_, ?_⟩ start
          · intro other member met
            exact absurd (List.mem_singleton.mp member ▸ fresh) met
          · intro other member met
            exact absurd (List.mem_singleton.mp member ▸ fresh) met
      · exact settled

theorem Settled.mem_rest {order front rest : List String} {node other : String}
    (settled : Settled successors nodes order) (split : order = front ++ node :: rest)
    (next : other ∈ successors node) (known : other ∈ nodes) :
    other ∈ rest ∨ Relation.ReflTransGen (Step successors nodes) other node := by
  induction front generalizing order with
  | nil =>
      subst split
      exact settled.1 other next known
  | cons head tail ih =>
      subst split
      exact ih settled.2 rfl

end Descent

/-- A list is accepted when each node comes after all nodes that lead to it, itself apart. -/
theorem misplaced?_eq_none {predecessors : String → List String} {before list : List String} :
    misplaced? predecessors before list = none ↔
      ∀ front node rest, list = front ++ node :: rest →
        ∀ other ∈ predecessors node, other = node ∨ other ∈ front ∨ other ∈ before := by
  induction list generalizing before with
  | nil => simp [misplaced?]
  | cons head tail ih =>
      unfold misplaced?
      split
      · next late found =>
          simp only [reduceCtorEq, false_iff, not_forall]
          have missing := List.find?_some found
          refine ⟨[], head, tail, rfl, late, List.mem_of_find?_eq_some found, ?_⟩
          simpa using missing
      · next all =>
          rw [ih]
          constructor
          · intro later front node rest split other leads
            cases front with
            | nil =>
                obtain ⟨rfl, rfl⟩ := List.cons.inj split
                have inside := List.find?_eq_none.mp all other leads
                simp only [decide_not, Bool.not_eq_true', decide_eq_false_iff_not,
                  Decidable.not_not, List.mem_cons] at inside
                exact inside.imp_right .inr
            | cons first front =>
                obtain ⟨rfl, cut⟩ := List.cons.inj split
                have placed := later front node rest cut other leads
                simp only [List.mem_cons] at placed ⊢
                tauto
          · intro placed front node rest split other leads
            have early := placed (head :: front) node rest (by rw [split]; rfl) other leads
            simp only [List.mem_cons] at early ⊢
            tauto

/-- What is found misplaced leads to a node of the list that comes no later. -/
theorem misplaced?_eq_some {predecessors : String → List String} {before list : List String}
    {late : String} (found : misplaced? predecessors before list = some late) :
    ∃ front node rest, list = front ++ node :: rest ∧ late ∈ predecessors node ∧ late ≠ node ∧
      late ∉ front ∧ late ∉ before := by
  induction list generalizing before with
  | nil => cases found
  | cons head tail ih =>
      unfold misplaced? at found
      split at found
      · next first here =>
          obtain rfl := Option.some.inj found
          have missing := List.find?_some here
          simp only [decide_eq_true_eq, List.mem_cons, not_or] at missing
          exact ⟨[], head, tail, rfl, List.mem_of_find?_eq_some here, missing.1, List.not_mem_nil,
            missing.2⟩
      · obtain ⟨front, node, rest, split, leads, differ, outside, unseen⟩ := ih found
        rw [List.mem_cons, not_or] at unseen
        refine ⟨head :: front, node, rest, by rw [split]; rfl, leads, differ, ?_, unseen.2⟩
        rw [List.mem_cons, not_or]
        exact ⟨unseen.1, outside⟩

/-- A node that is found misplaced in the order of a search lies on a cycle: the node that it leads
to was finished after it, so it can be reached from that node. -/
theorem Descent.cyclic_of_misplaced {successors : String → List String} {nodes : List String}
    (distinct : nodes.Nodup) {late : String}
    (found : misplaced? (fun node => nodes.filter (node ∈ successors ·)) []
      (order successors nodes) = some late) :
    late ∈ nodes ∧ Relation.TransGen (Step successors nodes) late late := by
  obtain ⟨front, node, rest, split, leads, differ, outside, -⟩ := misplaced?_eq_some found
  obtain ⟨inside, next⟩ := List.mem_filter.mp leads
  have step := of_decide_eq_true next
  have perm : (order successors nodes).Perm nodes := order_perm distinct
  have known : node ∈ nodes := perm.mem_iff.mp (by rw [split]; simp)
  have behind : late ∈ rest := by
    have listed := perm.mem_iff.mpr inside
    rw [split, List.mem_append, List.mem_cons] at listed
    exact (listed.resolve_left outside).resolve_left differ
  obtain ⟨middle, last, rfl⟩ := List.append_of_mem behind
  have twice : order successors nodes = (front ++ node :: middle) ++ late :: last := by
    rw [split, List.append_assoc, List.cons_append]
  have fresh : node ∉ last := by
    have once := perm.nodup_iff.mpr distinct
    rw [split, List.nodup_append, List.nodup_cons] at once
    exact fun again => once.2.1.1 (List.mem_append_right _ (List.mem_cons_of_mem _ again))
  have back := ((settled_order successors nodes).mem_rest twice step known).resolve_left fresh
  exact ⟨inside, .head' ⟨step, known⟩ back⟩

namespace Net

variable {κ α : Type} {net : Net κ α}

theorem hasNode_eq_true {id : String} : net.hasNode id = true ↔ id ∈ net.nodes := by
  rw [hasNode, Bool.or_eq_true, Registry.contains_eq_true, Registry.contains_eq_true, nodes,
    List.mem_append]

/-- The region of known nodes holds them and all nodes that an arc of the region leads to. -/
theorem reachableFrom_eq_ok (distinct : net.nodes.Nodup) {starts region : List String}
    (found : net.reachableFrom starts = .ok region) :
    region.Nodup ∧ (∀ node ∈ region, node ∈ net.nodes) ∧ (∀ node ∈ starts, node ∈ region) ∧
      ∀ node ∈ region, ∀ other ∈ net.successors node, other ∈ net.nodes → other ∈ region := by
  unfold reachableFrom at found
  split at found
  · cases found
  · next known =>
      have present : ∀ node ∈ starts, node ∈ net.nodes := by
        intro node member
        have held := List.find?_eq_none.mp known node member
        rw [Bool.not_eq_true, Bool.not_eq_false', hasNode_eq_true] at held
        exact held
      have same := Except.ok.inj found
      subst same
      have first : (⟨net.nodes, []⟩ : Frontier).Distinct := ⟨distinct, List.nodup_nil, by simp⟩
      have queued : ∀ node, node ∈ (starts.foldl Frontier.meet ⟨net.nodes, []⟩).queue ↔
          node ∈ starts ∧ node ∈ net.nodes := by
        intro node
        rw [Frontier.mem_queue_foldl_meet]
        simp
      refine ⟨Frontier.nodup_follow (first.foldl_meet starts), ?_, ?_, ?_⟩
      · intro node member
        rcases Frontier.mem_follow member with start | fresh
        · exact ((queued node).mp start).2
        · exact (Frontier.mem_unseen_foldl_meet.mp fresh).1
      · intro node member
        exact Frontier.mem_follow_of_mem_queue ((queued node).mpr ⟨member, present node member⟩)
      · intro node member other next inside
        by_cases start : other ∈ starts
        · exact Frontier.mem_follow_of_mem_queue ((queued other).mpr ⟨start, inside⟩)
        · exact Frontier.mem_follow_of_mem_successors member next
            (Frontier.mem_unseen_foldl_meet.mpr ⟨inside, start⟩)

theorem exists_reachableFrom {starts : List String} (known : ∀ node ∈ starts, node ∈ net.nodes) :
    ∃ region, net.reachableFrom starts = .ok region := by
  have none : starts.find? (fun start => !net.hasNode start) = none := by
    rw [List.find?_eq_none]
    intro node member
    rw [Bool.not_eq_true, Bool.not_eq_false', hasNode_eq_true]
    exact known node member
  rw [reachableFrom, none]
  exact ⟨_, rfl⟩

/-- An arc leads from one node to another one. -/
def Onward (net : Net κ α) (source target : String) : Prop :=
  target ∈ net.successors source ∧ target ∈ net.nodes

/-- The region of some starts has what the starts have, if arcs pass it on. -/
theorem inside_of_mem_reachableFrom {inside : String → Prop} {starts region : List String}
    (start : ∀ node ∈ starts, inside node)
    (closed : ∀ source target, inside source → net.Onward source target → inside target)
    (reached : net.reachableFrom starts = .ok region) : ∀ node ∈ region, inside node := by
  unfold reachableFrom at reached
  split at reached
  · cases reached
  · obtain rfl := Except.ok.inj reached
    refine fun node => Frontier.inside_of_mem_follow (fun other waiting => ?_)
      fun source held target next fresh => closed source target held
        ⟨next, (Frontier.mem_unseen_foldl_meet.mp fresh).1⟩
    have queued := Frontier.mem_queue_foldl_meet.mp waiting
    exact queued.elim (absurd · List.not_mem_nil) fun started => start other started.1

/-- An order of a region, or a node on a cycle in it. -/
theorem regionOrder_cases (distinct : net.nodes.Nodup) {starts region : List String}
    (reached : net.reachableFrom starts = .ok region) :
    (∃ order, net.regionOrder starts = .ok order) ∨
      ∃ node ∈ region, Relation.TransGen (Descent.Step net.successors region) node node ∧
        net.regionOrder starts = .error (.cyclic starts node) := by
  have nodup := (reachableFrom_eq_ok distinct reached).1
  rw [regionOrder, reached]
  cases found : misplaced? (net.predecessorsIn region) []
      (Descent.order net.successors region) with
  | none =>
      simp only [found]
      exact .inl ⟨_, rfl⟩
  | some late =>
      obtain ⟨inside, cycle⟩ := Descent.cyclic_of_misplaced nodup found
      simp only [found]
      exact .inr ⟨late, inside, cycle, rfl⟩

/-- What is listed in the order of a region, and how. -/
theorem regionOrder_eq_ok (distinct : net.nodes.Nodup) {starts order : List String}
    (found : net.regionOrder starts = .ok order) :
    order.Nodup ∧ (∀ node ∈ order, node ∈ net.nodes) ∧ (∀ node ∈ starts, node ∈ order) ∧
      (∀ node ∈ order, ∃ start ∈ starts, Relation.ReflTransGen net.Onward start node) ∧
      (∀ node ∈ order, ∀ other, net.Onward node other → other ∈ order) ∧
      ∀ front node rest, order = front ++ node :: rest →
        ∀ other ∈ order, node ∈ net.successors other → other = node ∨ other ∈ front := by
  unfold regionOrder at found
  split at found
  · cases found
  next region reached =>
  obtain ⟨nodup, within, start, closed⟩ := reachableFrom_eq_ok distinct reached
  have perm : (Descent.order net.successors region).Perm region := Descent.order_perm nodup
  dsimp only at found
  split at found
  · cases found
  next placed =>
  obtain rfl := Except.ok.inj found
  rw [misplaced?_eq_none] at placed
  refine ⟨perm.nodup_iff.mpr nodup, fun node member => within node (perm.mem_iff.mp member),
    fun node member => perm.mem_iff.mpr (start node member), fun node member => ?_,
    fun node member other next => ?_, fun front node rest split other member joined => ?_⟩
  · have started : ∀ first ∈ starts,
        ∃ start ∈ starts, Relation.ReflTransGen net.Onward start first :=
      fun first member => ⟨first, member, .refl⟩
    refine inside_of_mem_reachableFrom started ?_ reached node (perm.mem_iff.mp member)
    rintro source target ⟨first, started, leads⟩ next
    exact ⟨first, started, leads.tail next⟩
  · exact perm.mem_iff.mpr (closed node (perm.mem_iff.mp member) other next.1 next.2)
  · have leads : other ∈ net.predecessorsIn region node :=
      List.mem_filter.mpr ⟨perm.mem_iff.mp member, decide_eq_true joined⟩
    simpa using placed front node rest split other leads

/-- Arcs lead from one node to another, over nodes in between. -/
def Reaches (net : Net κ α) : String → String → Prop :=
  Relation.TransGen fun source target => net.Joins source target ∧ target ∈ net.nodes

/-- An order of a region lists each node once, the starts and all nodes that can be reached from
them, and each node behind all nodes of the region that lead to it. -/
structure RegionOrder (net : Net κ α) (starts order : List String) : Prop where
  nodup : order.Nodup
  within : ∀ node ∈ order, node ∈ net.nodes
  reached : ∀ node ∈ order, node ∈ starts ∨ ∃ start ∈ starts, net.Reaches start node
  starts : ∀ node ∈ starts, node ∈ order
  closed : ∀ node ∈ order, ∀ other, net.Joins node other → other ∈ net.nodes → other ∈ order
  forward : ∀ front node rest, order = front ++ node :: rest →
    ∀ other ∈ order, net.Joins other node → other = node ∨ other ∈ front

theorem Plain.onward_iff (plain : net.Plain) {source target : String} :
    net.Onward source target ↔ net.Joins source target ∧ target ∈ net.nodes := by
  rw [Onward, plain.mem_successors]

theorem regionOrder_spec (plain : net.Plain) (distinct : net.nodes.Nodup)
    {starts order : List String} (found : net.regionOrder starts = .ok order) :
    net.RegionOrder starts order := by
  obtain ⟨nodup, within, start, reached, closed, forward⟩ := regionOrder_eq_ok distinct found
  refine ⟨nodup, within, fun node member => ?_, start, fun node member other joined known =>
    closed node member other (plain.onward_iff.mpr ⟨joined, known⟩),
    fun front node rest split other member joined =>
      forward front node rest split other member (plain.mem_successors.mpr joined)⟩
  obtain ⟨first, started, path⟩ := reached node member
  rcases Relation.reflTransGen_iff_eq_or_transGen.mp path with rfl | leads
  · exact .inl started
  · exact .inr ⟨first, started, Relation.TransGen.mono (fun _ _ => plain.onward_iff.mp) _ _ leads⟩

/-- Where arcs lead from lower to higher rank, at least among what can be reached from the starts,
the region of the starts has an order. -/
theorem regionOrder_of_closed (plain : net.Plain) (distinct : net.nodes.Nodup)
    (inside : String → Prop) (rank : String → Nat) {starts : List String}
    (start : ∀ node ∈ starts, inside node)
    (closed : ∀ source target, inside source → net.Joins source target → inside target)
    (ascending : ∀ source target, inside source → net.Joins source target →
      rank source < rank target) (known : ∀ node ∈ starts, node ∈ net.nodes) :
    ∃ order, net.regionOrder starts = .ok order := by
  obtain ⟨region, reached⟩ := exists_reachableFrom known
  refine (regionOrder_cases distinct reached).resolve_right ?_
  rintro ⟨node, member, cycle, -⟩
  have held : inside node := inside_of_mem_reachableFrom start
    (fun source target held next => closed source target held (plain.onward_iff.mp next).1)
    reached node member
  -- Along the cycle the rank grows, so it would be above itself at the end.
  suffices climbs : ∀ other, Relation.TransGen (Descent.Step net.successors region) node other →
      inside other ∧ rank node < rank other from Nat.lt_irrefl _ (climbs node cycle).2
  intro other path
  induction path with
  | single step =>
      have joined := plain.mem_successors.mp step.1
      exact ⟨closed _ _ held joined, ascending _ _ held joined⟩
  | tail _ step ih =>
      have joined := plain.mem_successors.mp step.1
      exact ⟨closed _ _ ih.1 joined, Nat.lt_trans ih.2 (ascending _ _ ih.1 joined)⟩

/-- Where all arcs lead from lower to higher rank every region has an order. -/
theorem regionOrder_of_ascending (plain : net.Plain) (distinct : net.nodes.Nodup)
    {rank : String → Nat} (ascending : ∀ source target, net.Joins source target →
      rank source < rank target)
    {starts : List String} (known : ∀ node ∈ starts, node ∈ net.nodes) :
    ∃ order, net.regionOrder starts = .ok order := by
  exact regionOrder_of_closed plain distinct (fun _ => True) rank (fun _ _ => trivial)
    (fun _ _ _ _ => trivial) (fun source target _ => ascending source target) known

namespace RegionOrder

variable {starts order : List String} {source target : String}

/-- What can be reached from a region belongs to it. -/
theorem mem_of_reaches (region : net.RegionOrder starts order) (inside : source ∈ order)
    (leads : net.Reaches source target) : target ∈ order := by
  induction leads with
  | single step => exact region.closed _ inside _ step.1 step.2
  | tail _ step ih => exact region.closed _ ih _ step.1 step.2

/-- The nodes of a region are the starts and what can be reached from them. -/
theorem mem_iff (region : net.RegionOrder starts order) {node : String} :
    node ∈ order ↔ node ∈ starts ∨ ∃ start ∈ starts, net.Reaches start node := by
  refine ⟨region.reached node, ?_⟩
  rintro (started | ⟨start, started, leads⟩)
  · exact region.starts node started
  · exact region.mem_of_reaches (region.starts start started) leads

/-- No arc of a region leads back in its order. -/
theorem idxOf_le (region : net.RegionOrder starts order) (inside : source ∈ order)
    (joined : net.Joins source target) (known : target ∈ net.nodes) :
    order.idxOf source ≤ order.idxOf target := by
  obtain ⟨front, rest, split⟩ := List.append_of_mem (region.closed source inside target joined known)
  rcases region.forward front target rest split source inside joined with rfl | early
  · exact Nat.le_refl _
  have fresh : target ∉ front := by
    have nodup := region.nodup
    rw [split, List.nodup_append] at nodup
    exact fun late => nodup.2.2 target late target (List.mem_cons_self ..) rfl
  rw [split, List.idxOf_append_of_mem early, List.idxOf_append_of_notMem fresh,
    List.idxOf_cons_self]
  exact Nat.le_of_lt (Nat.lt_of_lt_of_le (List.idxOf_lt_length_of_mem early) (Nat.le_add_right ..))

/-- What can be reached from a node of a region comes behind it, itself apart. -/
theorem idxOf_lt (region : net.RegionOrder starts order) (inside : source ∈ order)
    (leads : net.Reaches source target) (differ : source ≠ target) :
    order.idxOf source < order.idxOf target := by
  have behind : order.idxOf source ≤ order.idxOf target := by
    clear differ
    induction leads with
    | single step => exact region.idxOf_le inside step.1 step.2
    | tail before step ih =>
        exact Nat.le_trans ih (region.idxOf_le (region.mem_of_reaches inside before) step.1 step.2)
  exact Nat.lt_of_le_of_ne behind fun same => differ ((List.idxOf_inj inside).mp same)

end RegionOrder

/-! ### The region of all entries -/

namespace RegionOrder

variable {order : List String} {rank : String → Nat}

/-- The entries of an acyclic marked graph lead to all of its nodes. -/
theorem mem_of_marked (region : net.RegionOrder net.entryPlaces order)
    (graph : net.MarkedGraph rank) (node : String) (known : node ∈ net.nodes) : node ∈ order := by
  generalize height : rank node = n
  induction n using Nat.strongRecOn generalizing node with
  | ind n ih =>
      subst height
      by_cases leads : ∃ other, net.Joins other node
      · obtain ⟨other, joined⟩ := leads
        refine region.closed other ?_ node joined known
        refine ih (rank other) (graph.ascending _ _ joined) other ?_ rfl
        rcases List.mem_append.mp known with place | transition
        · exact List.mem_append_right _ (graph.source node place other joined)
        · exact List.mem_append_left _ (graph.known other node joined transition)
      · rw [not_exists] at leads
        rcases List.mem_append.mp known with place | transition
        · exact region.starts node (graph.plain.mem_entryPlaces.mpr ⟨place, leads⟩)
        · obtain ⟨other, joined⟩ := graph.fed node transition
          exact (leads other joined).elim

/-- In the order of all entries each transition occurs once. -/
theorem perm_transitions (region : net.RegionOrder net.entryPlaces order)
    (graph : net.MarkedGraph rank) :
    (order.filter net.transitions.contains).Perm net.transitions.names := by
  refine (List.perm_ext_iff_of_nodup (region.nodup.filter _) net.transitions.nodup_names).mpr ?_
  intro transition
  rw [List.mem_filter, Registry.contains_eq_true]
  exact ⟨And.right, fun known =>
    ⟨region.mem_of_marked graph transition (List.mem_append_right _ known), known⟩⟩

/-- In the order of all entries each transition comes after those that it depends on. -/
theorem arranged (region : net.RegionOrder net.entryPlaces order)
    (graph : net.MarkedGraph rank) :
    Arranged (Relation.TransGen net.Feeds) (order.filter net.transitions.contains) := by
  refine .of_closed (region.nodup.filter _) ?_
  intro front second rest split first feeds
  obtain ⟨place, put, take⟩ := feeds
  obtain ⟨before, behind, whole, same, last⟩ := List.filter_eq_append_iff.mp split
  obtain ⟨skipped, after, begins, none, isSecond, -⟩ := List.filter_eq_cons_iff.mp last
  rw [Registry.contains_eq_true] at isSecond
  have known : place ∈ net.places.names := graph.known place second take isSecond
  have isFirst : first ∈ net.transitions.names := graph.source place known first put
  have everywhere := region.mem_of_marked graph
  have differ := fun {one two} (joined : net.Joins one two) (same : one = two) =>
    Nat.lt_irrefl _ (same ▸ graph.ascending one two joined)
  -- The place stands before the transition, and the feeding transition before the place.
  have placed : place ∈ before ++ skipped :=
    (region.forward (before ++ skipped) second after (by rw [whole, begins, List.append_assoc])
      place (everywhere place (List.mem_append_left _ known)) take).resolve_left (differ take)
  obtain ⟨head, tail, cut⟩ := List.append_of_mem placed
  have fed : first ∈ head :=
    (region.forward head place (tail ++ second :: after)
      (by rw [whole, begins, ← List.append_assoc, cut, List.append_assoc, List.cons_append])
      first (everywhere first (List.mem_append_right _ isFirst)) put).resolve_left (differ put)
  have inside : first ∈ before ++ skipped := cut ▸ List.mem_append_left _ fed
  rw [← same, List.mem_filter, Registry.contains_eq_true]
  refine ⟨(List.mem_append.mp inside).resolve_right fun skip => none first skip ?_, isFirst⟩
  exact Registry.contains_eq_true.mpr isFirst

end RegionOrder

/-- Regions do not depend on tokens. -/
theorem regionOrder_of_bare {first second : Net κ α} (same : first.bare = second.bare) :
    first.regionOrder = second.regionOrder := by
  have nodes : first.nodes = second.nodes := by
    rw [Net.nodes, Net.nodes, placeNames_of_bare same, transitions_of_bare same]
  have successors : first.successors = second.successors := by
    funext id
    rw [Net.successors, Net.successors, arcsFrom_of_bare same]
  have known : first.hasNode = second.hasNode := by
    funext id
    exact Bool.eq_iff_iff.mpr (by rw [hasNode_eq_true, hasNode_eq_true, nodes])
  have leading : first.predecessorsIn = second.predecessorsIn := by
    funext region id
    rw [predecessorsIn, predecessorsIn, successors]
  funext starts
  simp only [regionOrder, reachableFrom, leading, nodes, successors, known]

end Net

end CardNet
