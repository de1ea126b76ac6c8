import CardNet.Proofs.Net.Tokens

/-!
# Ledgers of tokens

A ledger says which tokens the places of a net held at some moment, and what has been done to them
since: which events were noted, and which transitions have fired. It balances when every place
holds what the ledger makes of it, where a firing that is under way has taken its tokens and put
down none (`Ledger.Balances`). Each part of a firing keeps the balance, and so does an event; a
firing that is taken back leaves no trace in the ledger.
-/

namespace CardNet

namespace Net

variable {κ α : Type}

/-- The weight of the arcs from one node to another. -/
def weight (net : Net κ α) (source target : String) : Nat :=
  ((net.arcs.values.filter fun arc => arc.source = source ∧ arc.target = target).map
    Arc.weight).sum

theorem weight_of_bare {first second : Net κ α} (same : first.bare = second.bare) :
    first.weight = second.weight := by
  funext source target
  rw [weight, weight, arcs_of_bare same]

namespace Indexed

variable {net : Net κ α} (indexed : net.Indexed)

include indexed

theorem of_bare {other : Net κ α} (same : other.bare = net.bare) : other.Indexed :=
  indexed.congr (arcs_of_bare same) (incoming_of_bare same) (outgoing_of_bare same)

theorem sum_arcsInto (transition place : String) :
    (((net.arcsInto transition).filter fun arc => arc.source = place).map Arc.weight).sum =
      net.weight place transition := by
  simp only [weight, indexed.incoming, List.filter_filter, Bool.decide_and]

theorem sum_arcsFrom (transition place : String) :
    (((net.arcsFrom transition).filter fun arc => arc.target = place).map Arc.weight).sum =
      net.weight transition place := by
  simp only [weight, indexed.outgoing, List.filter_filter, Bool.decide_and, Bool.and_comm]

theorem tokens_deduct (transition place : String) :
    (net.deduct (net.arcsInto transition)).tokens place =
      net.tokens place - net.weight place transition := by
  rw [tokens, tokens?_deduct, indexed.sum_arcsInto, tokens]
  cases net.tokens? place with
  | none => exact (Nat.zero_sub _).symm
  | some tokens => rfl

theorem tokens_refund (transition : String) {place : String} (known : place ∈ net.places.names) :
    (net.refund (net.arcsInto transition)).tokens place =
      net.tokens place + net.weight place transition := by
  obtain ⟨held, found⟩ := Registry.exists_get?_of_mem_names known
  rw [tokens, tokens?_refund, indexed.sum_arcsInto, tokens, tokens?, place?, found]
  rfl

theorem tokens_credit (transition : String) {place : String} (known : place ∈ net.places.names) :
    (net.credit (net.arcsFrom transition)).tokens place =
      net.tokens place + net.weight transition place := by
  obtain ⟨held, found⟩ := Registry.exists_get?_of_mem_names known
  rw [tokens, tokens?_credit, indexed.sum_arcsFrom, tokens, tokens?, place?, found]
  rfl

omit indexed in
/-- An arc into a transition that may fire lacks nothing. -/
theorem shortfall?_of_isEnabled {transition : String} (enabled : net.isEnabled transition = true)
    {arc : Arc} (member : arc ∈ net.arcsInto transition) : net.shortfall? arc = none := by
  rw [isEnabled, blocked?] at enabled
  split at enabled
  · cases enabled
  · split at enabled
    · cases enabled
    · split at enabled
      · next none => exact List.filterMap_eq_nil_iff.mp none arc member
      · cases enabled

/-- No two arcs have the same ends, so the weight of an arc is all the weight between them. -/
theorem weight_eq {arc : Arc} (member : arc ∈ net.arcs.values) :
    net.weight arc.source arc.target = arc.weight := by
  have only : (net.arcs.values.filter fun other =>
      other.source = arc.source ∧ other.target = arc.target) =
        net.arcs.values.filter (· = arc) := by
    refine List.filter_congr fun other known => ?_
    rw [decide_eq_decide]
    constructor
    · rintro ⟨source, target⟩
      exact indexed.eq_of_ends known member source target
    · rintro rfl
      exact ⟨rfl, rfl⟩
  rw [weight, only, List.filter_eq, indexed.nodup_values.count, if_pos member]
  rfl

/-- A transition that may fire finds on every place what it takes from there. -/
theorem weight_le_tokens {transition : String} (enabled : net.isEnabled transition = true)
    (place : String) : net.weight place transition ≤ net.tokens place := by
  by_cases joined : ∃ arc ∈ net.arcs.values, arc.source = place ∧ arc.target = transition
  · obtain ⟨arc, member, rfl, rfl⟩ := joined
    have enough := shortfall?_of_isEnabled enabled (indexed.mem_arcsInto.mpr ⟨member, rfl⟩)
    rw [shortfall?] at enough
    split at enough
    · cases enough
    · next tokens held =>
        split at enough
        · cases enough
        · next plenty =>
            rw [indexed.weight_eq member, Net.tokens, held]
            exact Nat.le_of_not_lt plenty
  · have none : (net.arcs.values.filter fun arc =>
        arc.source = place ∧ arc.target = transition) = [] := by
      rw [List.filter_eq_nil_iff]
      intro arc member ends
      exact joined ⟨arc, member, of_decide_eq_true ends⟩
    rw [weight, none]
    exact Nat.zero_le _

end Indexed

end Net

/-! ## Ledgers -/

/-- What a net held on its places at some moment, and what has happened to its tokens since. -/
structure Ledger where
  /-- The tokens that each place held. -/
  base : String → Nat
  /-- The places on which events were noted. -/
  events : List String
  /-- The transitions that have fired, each as often as it has. -/
  fired : List String

namespace Ledger

variable {κ α : Type}

/-- The ledger of a net to which nothing has happened. -/
def opened (net : Net κ α) : Ledger := ⟨net.tokens, [], []⟩

/-- Enter an event. -/
def note (ledger : Ledger) (place : String) : Ledger :=
  { ledger with events := place :: ledger.events }

/-- Enter a firing. -/
def commit (ledger : Ledger) (transition : String) : Ledger :=
  { ledger with fired := transition :: ledger.fired }

/-- Every place holds what a ledger makes of it while firings of some transitions are under way:
what it held, with the events on it, the tokens that were put down and without those that were
taken. -/
def Balances (ledger : Ledger) (net : Net κ α) (underway : List String) : Prop :=
  ∀ place ∈ net.places.names,
    net.tokens place + ((underway ++ ledger.fired).map (net.weight place)).sum =
      ledger.base place + ledger.events.count place +
        (ledger.fired.map (net.weight · place)).sum

theorem balances_opened (net : Net κ α) : (opened net).Balances net [] := fun _ _ => rfl

namespace Balances

variable {ledger : Ledger} {net : Net κ α} {transition : String}

theorem note (balances : ledger.Balances net []) (place : String) :
    (ledger.note place).Balances (net.modifyTokens place (· + 1)) [] := by
  intro other known
  rw [Net.placeNames_of_bare (net.bare_modifyTokens place _)] at known
  obtain ⟨held, found⟩ := Registry.exists_get?_of_mem_names known
  have before := balances other known
  have tokens : (net.modifyTokens place (· + 1)).tokens other =
      net.tokens other + if other = place then 1 else 0 := by
    rw [Net.tokens, Net.tokens?_modifyTokens, Net.tokens, Net.tokens?, Net.place?, found]
    split <;> rfl
  rw [tokens, Net.weight_of_bare (net.bare_modifyTokens place _)]
  simp only [Ledger.note, List.count_cons, beq_iff_eq, @eq_comm _ place] at before ⊢
  omega

variable (indexed : net.Indexed)

include indexed

theorem begin (balances : ledger.Balances net []) (enabled : net.isEnabled transition = true) :
    ledger.Balances (net.deduct (net.arcsInto transition)) [transition] := by
  intro place known
  have same := net.bare_deduct (net.arcsInto transition)
  rw [Net.placeNames_of_bare same] at known
  have before := balances place known
  have enough := indexed.weight_le_tokens enabled place
  rw [indexed.tokens_deduct, Net.weight_of_bare same]
  simp only [List.nil_append, List.cons_append, List.map_cons, List.sum_cons] at before ⊢
  omega

theorem rollback (balances : ledger.Balances net [transition]) :
    ledger.Balances (net.refund (net.arcsInto transition)) [] := by
  intro place known
  have same := net.bare_refund (net.arcsInto transition)
  rw [Net.placeNames_of_bare same] at known
  have before := balances place known
  rw [indexed.tokens_refund transition known, Net.weight_of_bare same]
  simp only [List.nil_append, List.cons_append, List.map_cons, List.sum_cons] at before ⊢
  omega

theorem commit (balances : ledger.Balances net [transition]) :
    (ledger.commit transition).Balances (net.credit (net.arcsFrom transition)) [] := by
  intro place known
  have same := net.bare_credit (net.arcsFrom transition)
  rw [Net.placeNames_of_bare same] at known
  have before := balances place known
  rw [indexed.tokens_credit transition known, Net.weight_of_bare same]
  simp only [Ledger.commit, List.nil_append, List.cons_append, List.map_cons,
    List.sum_cons] at before ⊢
  omega

end Balances

end Ledger

end CardNet
