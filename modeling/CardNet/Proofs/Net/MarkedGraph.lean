import CardNet.Proofs.Confluence
import CardNet.Proofs.Net.Tokens
import Mathlib.Data.List.Induction

/-!
# Acyclic marked graphs

In an acyclic marked graph every place has at most one transition before it and at most one
behind it, and arcs lead from lower to higher rank. When each place without a transition before
it starts with one token and each other place with none (`Net.Seeded`), the passes over the
transitions fire each of them exactly once (`MarkedGraph.exists_exhausts`,
`Exhausts.perm`), in an order in which the transitions that feed another one come first
(`MarkedGraph.arranged`), and leave the tokens on the places that nothing is behind
(`Exhausts.tokens_inner`, `Exhausts.tokens_exit`).
-/

namespace CardNet

namespace Net

variable {κ α : Type}

/-- A transition puts a token on a place that another one takes it from. -/
def Feeds (net : Net κ α) (first second : String) : Prop :=
  ∃ place, net.Joins first place ∧ net.Joins place second

/-- A net in which arcs lead from lower to higher rank and every place lies between at most two
transitions. -/
structure MarkedGraph (net : Net κ α) (rank : String → Nat) : Prop where
  plain : net.Plain
  known : ∀ place transition, net.Joins place transition → transition ∈ net.transitions.names →
    place ∈ net.places.names
  target : ∀ place transition, net.Joins place transition → place ∈ net.places.names →
    transition ∈ net.transitions.names
  fed : ∀ transition ∈ net.transitions.names, ∃ place, net.Joins place transition
  producer : ∀ place ∈ net.places.names, ∀ first second,
    net.Joins first place → net.Joins second place → first = second
  source : ∀ place ∈ net.places.names, ∀ transition,
    net.Joins transition place → transition ∈ net.transitions.names
  consumer : ∀ place ∈ net.places.names, ∀ first second,
    net.Joins place first → net.Joins place second → first = second
  ascending : ∀ source target, net.Joins source target → rank source < rank target

/-- A place with no transition before it but one behind it holds one token, and a place with a
transition before it holds none. -/
structure Seeded (net : Net κ α) : Prop where
  entry : ∀ place ∈ net.places.names, (∀ transition, ¬net.Joins transition place) →
    (∃ transition, net.Joins place transition) → net.tokens place = 1
  inner : ∀ place ∈ net.places.names, ∀ transition, net.Joins transition place →
    net.tokens place = 0

namespace MarkedGraph

variable {net : Net κ α} {rank : String → Nat} {trace : List String}

private theorem countP_producer_le_one (graph : net.MarkedGraph rank) {place : String}
    (known : place ∈ net.places.names) (nodup : trace.Nodup) :
    trace.countP (fun t => net.Joins t place) ≤ 1 := by
  rw [List.countP_eq_length_filter]
  have distinct := nodup.filter fun t => decide (net.Joins t place)
  refine Nat.not_lt.mp fun more => ?_
  have first := List.getElem_mem (Nat.lt_trans Nat.zero_lt_one more)
  have second := List.getElem_mem more
  have equal := graph.producer place known _ _ (of_decide_eq_true (List.mem_filter.mp first).2)
    (of_decide_eq_true (List.mem_filter.mp second).2)
  exact absurd (distinct.getElem_inj_iff.mp equal) (by decide)

/-- What a place of a seeded net holds after firings: never more than one token, and none as soon
as the transition behind it has fired. -/
private theorem tokens_eq_zero (graph : net.MarkedGraph rank) (seeded : net.Seeded)
    (fireable : net.Fireable trace) (nodup : trace.Nodup) {place transition : String}
    (known : place ∈ net.places.names) (joined : net.Joins place transition)
    (fired : transition ∈ trace) : (net.firedAll trace).tokens place = 0 := by
  have balance := graph.plain.tokens_firedAll fireable known
  have taken : 0 < trace.countP fun t => net.Joins place t :=
    List.countP_pos_iff.mpr ⟨transition, fired, decide_eq_true joined⟩
  by_cases inner : ∃ t, net.Joins t place
  · obtain ⟨producer, behind⟩ := inner
    have most := countP_producer_le_one graph known nodup
    rw [seeded.inner place known producer behind] at balance
    omega
  · have none : trace.countP (fun t => net.Joins t place) = 0 :=
      List.countP_eq_zero.mpr fun t _ => by simpa using not_exists.mp inner t
    rw [seeded.entry place known (not_exists.mp inner) ⟨transition, joined⟩, none] at balance
    omega

theorem subset_of_fireable (graph : net.MarkedGraph rank) (fireable : net.Fireable trace) :
    ∀ transition ∈ trace, transition ∈ net.transitions.names := by
  intro transition member
  obtain ⟨front, rest, rfl⟩ := List.append_of_mem member
  have enabled := (fireable_append.mp fireable).2.1
  have plain := graph.plain.of_bare (net.bare_firedAll front).symm
  rw [← transitions_of_bare (net.bare_firedAll front)]
  exact (plain.isEnabled_iff.mp enabled).1

/-- No transition of a seeded net fires twice. -/
theorem nodup_of_fireable (graph : net.MarkedGraph rank) (seeded : net.Seeded)
    (fireable : net.Fireable trace) : trace.Nodup := by
  induction trace using List.reverseRecOn with
  | nil => exact List.nodup_nil
  | append_singleton front transition ih =>
      obtain ⟨early, enabled, -⟩ := fireable_append.mp fireable
      have nodup := ih early
      refine List.nodup_append.mpr ⟨nodup, by simp, ?_⟩
      rintro other member last single rfl
      rw [List.mem_singleton] at single
      subst single
      have plain := graph.plain.of_bare (net.bare_firedAll front).symm
      obtain ⟨-, ⟨place, joined⟩, full⟩ := plain.isEnabled_iff.mp enabled
      have some := full place joined
      rw [joins_of_bare (net.bare_firedAll front)] at joined
      have transitionKnown := graph.subset_of_fireable early other member
      have known := graph.known place other joined transitionKnown
      rw [graph.tokens_eq_zero seeded early nodup known joined member] at some
      exact Nat.lt_irrefl 0 some

/-- What feeds a transition has fired before it. -/
theorem mem_of_feeds (graph : net.MarkedGraph rank) (seeded : net.Seeded)
    (fireable : net.Fireable trace) {front rest : List String} {first second : String}
    (split : trace = front ++ second :: rest) (feeds : net.Feeds first second) :
    first ∈ front := by
  subst split
  obtain ⟨early, enabled, -⟩ := fireable_append.mp fireable
  obtain ⟨place, behind, before⟩ := feeds
  have plain := graph.plain.of_bare (net.bare_firedAll front).symm
  obtain ⟨transitionKnown, -, full⟩ := plain.isEnabled_iff.mp enabled
  rw [transitions_of_bare (net.bare_firedAll front)] at transitionKnown
  rw [joins_of_bare (net.bare_firedAll front)] at full
  have known := graph.known place second before transitionKnown
  have balance := graph.plain.tokens_firedAll early known
  have some := full place before
  rw [seeded.inner place known first behind] at balance
  have produced : 0 < front.countP fun t => net.Joins t place := by omega
  obtain ⟨producer, member, joined⟩ := List.countP_pos_iff.mp produced
  exact graph.producer place known _ _ (of_decide_eq_true joined) behind ▸ member

/-- Transitions of a seeded net fire in an order in which each comes after those that it depends
on. -/
theorem arranged (graph : net.MarkedGraph rank) (seeded : net.Seeded)
    (fireable : net.Fireable trace) : Arranged (Relation.TransGen net.Feeds) trace :=
  .of_closed (graph.nodup_of_fireable seeded fireable) fun _ _ _ split _ feeds =>
    graph.mem_of_feeds seeded fireable split feeds

theorem length_le_of_fireable (graph : net.MarkedGraph rank) (seeded : net.Seeded)
    (fireable : net.Fireable trace) : trace.length ≤ net.transitions.names.length :=
  (graph.nodup_of_fireable seeded fireable).length_le_of_subset
    (graph.subset_of_fireable fireable)

/-- The passes over a seeded net come to an end. -/
theorem exists_exhausts (graph : net.MarkedGraph rank) (seeded : net.Seeded) :
    ∃ trace, net.Exhausts trace := by
  suffices go : ∀ left trace, net.Fireable trace →
      net.transitions.names.length - trace.length ≤ left →
        ∃ rest, (net.firedAll trace).Exhausts rest from go _ [] trivial (Nat.le_refl _)
  intro left
  induction left with
  | zero =>
      intro trace fireable most
      refine ⟨[], .still ?_⟩
      by_contra moving
      have longer := fireable_append.mpr ⟨fireable, fireable_sweep _ (net.firedAll trace).transitions.names⟩
      have bound := graph.length_le_of_fireable seeded longer
      have positive := List.length_pos_iff.mpr moving
      rw [List.length_append] at bound
      omega
  | succ left ih =>
      intro trace fireable most
      by_cases still : (net.firedAll trace).sweep (net.firedAll trace).transitions.names = []
      · exact ⟨[], .still still⟩
      · have longer := fireable_append.mpr
          ⟨fireable, fireable_sweep _ (net.firedAll trace).transitions.names⟩
        have positive := List.length_pos_iff.mpr still
        obtain ⟨rest, exhausts⟩ := ih _ longer (by rw [List.length_append]; omega)
        exact ⟨_, .pass rfl still (firedAll_append .. ▸ exhausts)⟩

end MarkedGraph

namespace Exhausts

variable {net : Net κ α} {rank : String → Nat} {trace : List String}

/-- Every transition of a seeded net has fired when the passes are over. -/
theorem mem_of_marked (exhausts : net.Exhausts trace) (graph : net.MarkedGraph rank)
    (seeded : net.Seeded) (transition : String) (member : transition ∈ net.transitions.names) :
    transition ∈ trace := by
  induction height : rank transition using Nat.strongRecOn generalizing transition with
  | _ level ih =>
      by_contra waiting
      have same := net.bare_firedAll trace
      have plain := graph.plain.of_bare same.symm
      have blocked := exhausts.quiet transition
      rw [← Bool.not_eq_true, plain.isEnabled_iff, transitions_of_bare same,
        joins_of_bare same] at blocked
      refine blocked ⟨member, graph.fed transition member, fun place joined => ?_⟩
      have known := graph.known place transition joined member
      have balance := graph.plain.tokens_firedAll exhausts.fireable known
      have untouched : trace.countP (fun t => net.Joins place t) = 0 := by
        refine List.countP_eq_zero.mpr fun other fired taken => waiting ?_
        exact graph.consumer place known _ _ (of_decide_eq_true taken) joined ▸ fired
      by_cases inner : ∃ t, net.Joins t place
      · obtain ⟨producer, behind⟩ := inner
        have lower : rank producer < level := by
          have up := graph.ascending producer place behind
          have onward := graph.ascending place transition joined
          omega
        have fired := ih _ lower producer (graph.source place known producer behind) rfl
        have produced : 0 < trace.countP fun t => net.Joins t place :=
          List.countP_pos_iff.mpr ⟨producer, fired, decide_eq_true behind⟩
        omega
      · have one := seeded.entry place known (not_exists.mp inner) ⟨transition, joined⟩
        omega

/-- The passes over a seeded net fire each transition exactly once. -/
theorem perm (exhausts : net.Exhausts trace) (graph : net.MarkedGraph rank)
    (seeded : net.Seeded) : trace.Perm net.transitions.names :=
  (List.perm_ext_iff_of_nodup (graph.nodup_of_fireable seeded exhausts.fireable)
    net.transitions.nodup_names).mpr fun transition =>
      ⟨graph.subset_of_fireable exhausts.fireable transition,
        exhausts.mem_of_marked graph seeded transition⟩

/-- When the passes over a seeded net are over, no token is left in front of a transition. -/
theorem tokens_inner (exhausts : net.Exhausts trace) (graph : net.MarkedGraph rank)
    (seeded : net.Seeded) {place transition : String} (known : place ∈ net.places.names)
    (joined : net.Joins place transition) : (net.firedAll trace).tokens place = 0 := by
  have fired := exhausts.mem_of_marked graph seeded transition
    (graph.target place transition joined known)
  exact graph.tokens_eq_zero seeded exhausts.fireable
    (graph.nodup_of_fireable seeded exhausts.fireable) known joined fired

private theorem tokens_add (exhausts : net.Exhausts trace) (graph : net.MarkedGraph rank)
    {place : String} (known : place ∈ net.places.names)
    (last : ∀ transition, ¬net.Joins place transition) :
    (net.firedAll trace).tokens place =
      net.tokens place + trace.countP fun t => net.Joins t place := by
  have untouched : trace.countP (fun t => net.Joins place t) = 0 :=
    List.countP_eq_zero.mpr fun t _ => by simpa using last t
  have balance := graph.plain.tokens_firedAll exhausts.fireable known
  omega

/-- When the passes over a seeded net are over, one token lies where only a transition before the
place is. -/
theorem tokens_exit (exhausts : net.Exhausts trace) (graph : net.MarkedGraph rank)
    (seeded : net.Seeded) {place producer : String} (known : place ∈ net.places.names)
    (behind : net.Joins producer place) (last : ∀ transition, ¬net.Joins place transition) :
    (net.firedAll trace).tokens place = 1 := by
  have fired := exhausts.mem_of_marked graph seeded producer
    (graph.source place known producer behind)
  have produced : 0 < trace.countP fun t => net.Joins t place :=
    List.countP_pos_iff.mpr ⟨producer, fired, decide_eq_true behind⟩
  have most := graph.countP_producer_le_one known
    (graph.nodup_of_fireable seeded exhausts.fireable)
  rw [exhausts.tokens_add graph known last, seeded.inner place known producer behind]
  omega

/-- The passes leave a place alone that no arc touches. -/
theorem tokens_apart (exhausts : net.Exhausts trace) (graph : net.MarkedGraph rank)
    {place : String} (known : place ∈ net.places.names)
    (first : ∀ transition, ¬net.Joins transition place)
    (last : ∀ transition, ¬net.Joins place transition) :
    (net.firedAll trace).tokens place = net.tokens place := by
  have none : trace.countP (fun t => net.Joins t place) = 0 :=
    List.countP_eq_zero.mpr fun t _ => by simpa using first t
  rw [exhausts.tokens_add graph known last, none, Nat.add_zero]

end Exhausts

end Net

end CardNet
