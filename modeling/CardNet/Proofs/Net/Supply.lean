import CardNet.Proofs.Net.Region

/-!
# Supplies

What a transition takes up comes from the places that lead to it, at once or through a split
(`Net.Supplies`). In a run that starts with tokens on entries only, and in the order of a region,
a place that is filled at all is filled before anything is taken from it (`Net.Fed`), in cycles
too. So nothing that such a run leaves behind matters to the next one.
-/

namespace CardNet

namespace Net

variable {κ α : Type} {net : Net κ α}

/-- A place leads to a transition at once, or through a split and a place that is behind the split
alone. -/
def Supplies (net : Net κ α) (place transition : String) : Prop :=
  net.Joins place transition ∨ ∃ split relay,
    net.Joins place split ∧ net.Joins split relay ∧ net.Joins relay transition ∧
      ∀ other, net.Joins other relay → other = split

/-- A place that supplies a transition of the trace is filled before it, or not at all. -/
def Fed (net : Net κ α) (trace : List String) : Prop :=
  ∀ front transition rest, trace = front ++ transition :: rest →
    ∀ place, net.Supplies place transition →
      (∃ other ∈ front, net.Joins other place) ∨ ∀ other ∈ trace, ¬net.Joins other place

theorem Fed.of_bare {other : Net κ α} {trace : List String} (fed : net.Fed trace)
    (same : net.bare = other.bare) : other.Fed trace := by
  unfold Fed Supplies at fed ⊢
  rw [← joins_of_bare same]
  exact fed

/-- A transition that may fire finds a token on each place before it, so when there are transitions
before the place, one of them has put a token there. -/
private theorem Plain.exists_joins (plain : net.Plain) (seeded : net.Seeded) {front : List String}
    (fireable : net.Fireable front) {transition : String}
    (enabled : (net.firedAll front).isEnabled transition = true) {source place : String}
    (put : net.Joins source place) (take : net.Joins place transition) :
    ∃ other ∈ front, net.Joins other place := by
  have same : (net.firedAll front).bare = net.bare := bare_firedAll net front
  have held := ((plain.of_bare same.symm).isEnabled_iff.mp enabled).2.2 place
    (by rwa [joins_of_bare same])
  have known : place ∈ net.places.names := by
    rw [← placeNames_of_bare same]
    by_contra absent
    rw [tokens, tokens?, place?, Registry.get?_eq_none_iff.mpr absent] at held
    exact Nat.lt_irrefl _ held
  have count := plain.tokens_firedAll fireable known
  have empty := seeded.inner place known source put
  have positive : 0 < front.countP fun other => net.Joins other place := by omega
  obtain ⟨other, member, joined⟩ := List.countP_pos_iff.mp positive
  exact ⟨other, member, of_decide_eq_true joined⟩

/-- When only entries have tokens at first, each place is filled before anything is taken from
it. -/
theorem Plain.fed (plain : net.Plain) (seeded : net.Seeded) {trace : List String}
    (fireable : net.Fireable trace) : net.Fed trace := by
  have filled : ∀ front transition rest, trace = front ++ transition :: rest →
      ∀ source place, net.Joins source place → net.Joins place transition →
        ∃ other ∈ front, net.Joins other place := by
    intro front transition rest split source place put take
    rw [split] at fireable
    obtain ⟨begun, enabled, -⟩ := fireable_append.mp fireable
    exact plain.exists_joins seeded begun enabled put take
  intro front transition rest split place supplies
  by_cases put : ∃ other ∈ trace, net.Joins other place
  · obtain ⟨source, -, joined⟩ := put
    rcases supplies with take | ⟨splitter, relay, hand, spread, take, only⟩
    · exact .inl (filled front transition rest split source place joined take)
    · -- The split has fired before, and found the place filled.
      obtain ⟨other, member, filling⟩ := filled front transition rest split splitter relay spread
        take
      obtain rfl := only other filling
      obtain ⟨head, tail, cut⟩ := List.append_of_mem member
      obtain ⟨first, early, fills⟩ := filled head other (tail ++ transition :: rest)
        (by rw [split, cut, List.append_assoc, List.cons_append]) source place joined hand
      exact .inl ⟨first, cut ▸ List.mem_append_left _ early, fills⟩
  · exact .inr fun other member joined => put ⟨other, member, joined⟩

/-- In the order of a region each place comes behind all that fills it and before all that it
supplies. -/
theorem RegionOrder.fed {starts order : List String} (region : net.RegionOrder starts order)
    (differ : ∀ source target, net.Joins source target → source ≠ target)
    (known : ∀ source target, net.Joins source target → target ∈ net.nodes) :
    net.Fed (order.filter net.transitions.contains) := by
  have closed : ∀ front node rest, order = front ++ node :: rest →
      ∀ other, other ∈ order ∧ net.Joins other node → other ∈ front :=
    fun front node rest split other leads =>
      (region.forward front node rest split other leads.1 leads.2).resolve_left
        (differ _ _ leads.2)
  intro front transition rest split place supplies
  by_cases put : ∃ other ∈ order.filter net.transitions.contains, net.Joins other place
  · obtain ⟨source, member, joined⟩ := put
    obtain ⟨inside, acts⟩ := List.mem_filter.mp member
    obtain ⟨before, behind, whole, same, last⟩ := List.filter_eq_append_iff.mp split
    obtain ⟨skipped, after, begins, none, -, -⟩ := List.filter_eq_cons_iff.mp last
    have next : ∀ {node other}, node ∈ order → net.Joins node other → other ∈ order :=
      fun held leads => region.closed _ held _ leads (known _ _ leads)
    have held : place ∈ order := next inside joined
    have path : Relation.TransGen (fun one two => one ∈ order ∧ net.Joins one two) source
        transition := by
      rcases supplies with take | ⟨splitter, relay, hand, spread, take, -⟩
      · exact .tail (.single ⟨inside, joined⟩) ⟨held, take⟩
      · have behindSplit : splitter ∈ order := next held hand
        exact .tail (.tail (.tail (.single ⟨inside, joined⟩) ⟨held, hand⟩) ⟨behindSplit, spread⟩)
          ⟨next behindSplit spread, take⟩
    have early : source ∈ before ++ skipped :=
      mem_of_transGen closed path (by rw [whole, begins, List.append_assoc])
    refine .inl ⟨source, ?_, joined⟩
    rw [← same, List.mem_filter]
    exact ⟨(List.mem_append.mp early).resolve_right fun skip => none source skip acts, acts⟩
  · exact .inr fun other member joined => put ⟨other, member, joined⟩

end Net

end CardNet
