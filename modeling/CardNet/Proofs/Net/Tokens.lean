import CardNet.Net.Firing
import CardNet.Proofs.Net.Arcs
import Mathlib.Algebra.GroupWithZero.Nat
import Mathlib.Data.List.Nodup

/-!
# The token game

Firing a transition whose action succeeds moves one token along each of its arcs. `Net.Plain`
nets have arcs of weight one only, and in them a transition may fire as soon as there is a token
on every place before it (`Plain.isEnabled_iff`). Nothing but tokens ever changes
(`Net.bare_fired`), and the tokens of a place after a sequence of firings are counted by the
firings before and behind it (`Plain.tokens_firedAll`).

A pass over a list of transitions fires those whose turn finds them enabled (`Net.sweep`);
passes follow one another until one fires nothing (`Net.Exhausts`).
-/

namespace CardNet

namespace Net

variable {κ α : Type}

/-! ## What does not change -/

/-- The net without its tokens. -/
def bare (net : Net κ α) : Net κ α :=
  { net with places := net.places.map fun _ place => { place with tokens := 0 } }

@[simp] theorem bare_modifyTokens (net : Net κ α) (id : String) (change : Nat → Nat) :
    (net.modifyTokens id change).bare = net.bare := by
  simp only [bare, modifyTokens, Registry.modify, Registry.map_map]
  congr
  funext name place
  split <;> rfl

@[simp] theorem bare_deduct (net : Net κ α) (arcs : List Arc) :
    (net.deduct arcs).bare = net.bare := by
  induction arcs generalizing net with
  | nil => rfl
  | cons arc rest ih => exact (ih _).trans (bare_modifyTokens net _ _)

@[simp] theorem bare_refund (net : Net κ α) (arcs : List Arc) :
    (net.refund arcs).bare = net.bare := by
  induction arcs generalizing net with
  | nil => rfl
  | cons arc rest ih => exact (ih _).trans (bare_modifyTokens net _ _)

@[simp] theorem bare_credit (net : Net κ α) (arcs : List Arc) :
    (net.credit arcs).bare = net.bare := by
  induction arcs generalizing net with
  | nil => rfl
  | cons arc rest ih => exact (ih _).trans (bare_modifyTokens net _ _)

theorem transitions_of_bare {first second : Net κ α} (same : first.bare = second.bare) :
    first.transitions = second.transitions := by
  change first.bare.transitions = second.bare.transitions
  rw [same]

theorem arcs_of_bare {first second : Net κ α} (same : first.bare = second.bare) :
    first.arcs = second.arcs := by
  change first.bare.arcs = second.bare.arcs
  rw [same]

theorem arcsInto_of_bare {first second : Net κ α} (same : first.bare = second.bare) :
    first.arcsInto = second.arcsInto := by
  change first.bare.arcsInto = second.bare.arcsInto
  rw [same]

theorem arcsFrom_of_bare {first second : Net κ α} (same : first.bare = second.bare) :
    first.arcsFrom = second.arcsFrom := by
  change first.bare.arcsFrom = second.bare.arcsFrom
  rw [same]

theorem incoming_of_bare {first second : Net κ α} (same : first.bare = second.bare) :
    first.incoming = second.incoming := by
  change first.bare.incoming = second.bare.incoming
  rw [same]

theorem outgoing_of_bare {first second : Net κ α} (same : first.bare = second.bare) :
    first.outgoing = second.outgoing := by
  change first.bare.outgoing = second.bare.outgoing
  rw [same]

theorem placeNames_bare (net : Net κ α) : net.bare.places.names = net.places.names :=
  Registry.names_map _ _

theorem placeNames_of_bare {first second : Net κ α} (same : first.bare = second.bare) :
    first.places.names = second.places.names := by
  rw [← placeNames_bare, same, placeNames_bare]

theorem content?_bare (net : Net κ α) : net.bare.content? = net.content? := by
  funext id
  simp only [content?, place?, bare, Registry.get?_map]
  cases net.places.get? id <;> rfl

theorem content?_of_bare {first second : Net κ α} (same : first.bare = second.bare) :
    first.content? = second.content? := by
  rw [← content?_bare, same, content?_bare]

theorem entryPlaces_of_bare {first second : Net κ α} (same : first.bare = second.bare) :
    first.entryPlaces = second.entryPlaces := by
  rw [entryPlaces, entryPlaces, placeNames_of_bare same, arcsInto_of_bare same]

theorem exitPlaces_of_bare {first second : Net κ α} (same : first.bare = second.bare) :
    first.exitPlaces = second.exitPlaces := by
  rw [exitPlaces, exitPlaces, placeNames_of_bare same, arcsFrom_of_bare same]

/-! ## Counting tokens -/

/-- The tokens on a place; a place that does not exist has none. -/
def tokens (net : Net κ α) (place : String) : Nat := (net.tokens? place).getD 0

theorem tokens?_modifyTokens (net : Net κ α) (id place : String) (change : Nat → Nat) :
    (net.modifyTokens id change).tokens? place =
      if place = id then (net.tokens? place).map change else net.tokens? place := by
  simp only [tokens?, place?, modifyTokens, Registry.get?_modify]
  split
  · rw [Option.map_map, Option.map_map]
    rfl
  · rfl

theorem tokens?_credit (net : Net κ α) (arcs : List Arc) (place : String) :
    (net.credit arcs).tokens? place = (net.tokens? place).map
      (· + ((arcs.filter fun arc => arc.target = place).map Arc.weight).sum) := by
  induction arcs generalizing net with
  | nil => simp [credit]
  | cons arc rest ih =>
      have step := ih (net.modifyTokens arc.target (· + arc.weight))
      rw [tokens?_modifyTokens] at step
      refine Eq.trans step ?_
      by_cases same : place = arc.target
      · subst same
        simp [Function.comp_def, Nat.add_assoc]
      · simp [same, Ne.symm same]

theorem tokens?_deduct (net : Net κ α) (arcs : List Arc) (place : String) :
    (net.deduct arcs).tokens? place = (net.tokens? place).map
      (· - ((arcs.filter fun arc => arc.source = place).map Arc.weight).sum) := by
  induction arcs generalizing net with
  | nil => simp [deduct]
  | cons arc rest ih =>
      have step := ih (net.modifyTokens arc.source (· - arc.weight))
      rw [tokens?_modifyTokens] at step
      refine Eq.trans step ?_
      by_cases same : place = arc.source
      · subst same
        simp [Function.comp_def, Nat.sub_sub]
      · simp [same, Ne.symm same]

theorem tokens?_refund (net : Net κ α) (arcs : List Arc) (place : String) :
    (net.refund arcs).tokens? place = (net.tokens? place).map
      (· + ((arcs.filter fun arc => arc.source = place).map Arc.weight).sum) := by
  induction arcs generalizing net with
  | nil => simp [refund]
  | cons arc rest ih =>
      have step := ih (net.modifyTokens arc.source (· + arc.weight))
      rw [tokens?_modifyTokens] at step
      refine Eq.trans step ?_
      by_cases same : place = arc.source
      · subst same
        simp [Function.comp_def, Nat.add_assoc]
      · simp [same, Ne.symm same]

/-- Nets that differ neither in tokens nor in anything else are equal. -/
theorem eq_of_tokens {first second : Net κ α} (same : first.bare = second.bare)
    (tokens : ∀ place ∈ first.places.names, first.tokens place = second.tokens place) :
    first = second := by
  have names := placeNames_of_bare same
  have entries : first.places = second.places := by
    have bares : first.bare.places = second.bare.places := congrArg Net.places same
    refine Registry.ext (List.ext_getElem ?_ ?_)
    · have length := congrArg List.length names
      simpa [Registry.names] using length
    · intro i left right
      have atLeft : (first.places.entries[i].1, first.places.entries[i].2) ∈
          first.places.entries := List.getElem_mem left
      have atRight : (second.places.entries[i].1, second.places.entries[i].2) ∈
          second.places.entries := List.getElem_mem right
      have name : first.places.entries[i].1 = second.places.entries[i].1 := by
        have here := congrArg (·[i]?) names
        simpa [Registry.names, List.getElem?_map, left, right] using here
      have foundLeft := Registry.get?_eq_some_iff.mpr atLeft
      have foundRight := Registry.get?_eq_some_iff.mpr atRight
      have count := tokens _ (Registry.mem_names_of_get? foundLeft)
      have blank := congrArg (Registry.get? · first.places.entries[i].1) bares
      rw [← name] at foundRight
      simp only [bare, Registry.get?_map, foundLeft, foundRight, Option.map_some,
        Option.some.injEq, Place.mk.injEq] at blank
      simp only [Net.tokens, tokens?, place?, foundLeft, foundRight, Option.map_some,
        Option.getD_some] at count
      refine Prod.ext name ?_
      obtain ⟨kind, -, content⟩ := blank
      cases left : first.places.entries[i].2
      cases right : second.places.entries[i].2
      simp_all
  have transitions := transitions_of_bare same
  have arcs := arcs_of_bare same
  have incoming := incoming_of_bare same
  have outgoing := outgoing_of_bare same
  have named : first.name = second.name := by simpa [bare] using congrArg Net.name same
  cases first
  cases second
  simp_all

/-- The net after a firing of a transition whose action succeeds. -/
def fired (net : Net κ α) (transition : String) : Net κ α :=
  (net.deduct (net.arcsInto transition)).credit (net.arcsFrom transition)

@[simp] theorem bare_fired (net : Net κ α) (transition : String) :
    (net.fired transition).bare = net.bare := by
  rw [fired, bare_credit, bare_deduct]

theorem placeNames_fired (net : Net κ α) (transition : String) :
    (net.fired transition).places.names = net.places.names :=
  placeNames_of_bare (net.bare_fired transition)

/-- An arc of weight one leads from one node to another. -/
def Joins (net : Net κ α) (source target : String) : Prop :=
  (⟨source, target, 1⟩ : Arc) ∈ net.arcs.values

instance (net : Net κ α) (source target : String) : Decidable (net.Joins source target) :=
  inferInstanceAs (Decidable (_ ∈ _))

theorem joins_of_bare {first second : Net κ α} (same : first.bare = second.bare) :
    first.Joins = second.Joins := by
  funext source target
  rw [Joins, Joins, arcs_of_bare same]

/-- The listings of the arcs agree, and all arcs have weight one. -/
structure Plain (net : Net κ α) : Prop where
  indexed : net.Indexed
  weight : ∀ arc ∈ net.arcs.values, arc.weight = 1

namespace Plain

variable {net : Net κ α}

theorem of_bare {other : Net κ α} (plain : net.Plain) (same : net.bare = other.bare) :
    other.Plain where
  indexed := plain.indexed.congr (arcs_of_bare same.symm) (incoming_of_bare same.symm)
    (outgoing_of_bare same.symm)
  weight := arcs_of_bare same ▸ plain.weight

theorem eq_of_mem (plain : net.Plain) {arc : Arc} (member : arc ∈ net.arcs.values) :
    arc = ⟨arc.source, arc.target, 1⟩ := by
  rw [← plain.weight arc member]

theorem mem_arcsInto (plain : net.Plain) {id : String} {arc : Arc} :
    arc ∈ net.arcsInto id ↔ net.Joins arc.source id ∧ arc = ⟨arc.source, id, 1⟩ := by
  rw [plain.indexed.mem_arcsInto]
  constructor
  · rintro ⟨member, rfl⟩
    exact ⟨plain.eq_of_mem member ▸ member, plain.eq_of_mem member⟩
  · rintro ⟨member, same⟩
    rw [Joins, ← same] at member
    exact ⟨member, congrArg Arc.target same⟩

theorem mem_arcsFrom (plain : net.Plain) {id : String} {arc : Arc} :
    arc ∈ net.arcsFrom id ↔ net.Joins id arc.target ∧ arc = ⟨id, arc.target, 1⟩ := by
  rw [plain.indexed.mem_arcsFrom]
  constructor
  · rintro ⟨member, rfl⟩
    exact ⟨plain.eq_of_mem member ▸ member, plain.eq_of_mem member⟩
  · rintro ⟨member, same⟩
    rw [Joins, ← same] at member
    exact ⟨member, congrArg Arc.source same⟩

theorem arcsInto_eq_nil (plain : net.Plain) {id : String} :
    net.arcsInto id = [] ↔ ∀ source, ¬net.Joins source id := by
  rw [List.eq_nil_iff_forall_not_mem]
  constructor
  · exact fun none source joined => none ⟨source, id, 1⟩ (plain.mem_arcsInto.mpr ⟨joined, rfl⟩)
  · exact fun none arc member => none arc.source (plain.mem_arcsInto.mp member).1

theorem arcsFrom_eq_nil (plain : net.Plain) {id : String} :
    net.arcsFrom id = [] ↔ ∀ target, ¬net.Joins id target := by
  rw [List.eq_nil_iff_forall_not_mem]
  constructor
  · exact fun none target joined => none ⟨id, target, 1⟩ (plain.mem_arcsFrom.mpr ⟨joined, rfl⟩)
  · exact fun none arc member => none arc.target (plain.mem_arcsFrom.mp member).1

theorem mem_entryPlaces (plain : net.Plain) {id : String} :
    id ∈ net.entryPlaces ↔ id ∈ net.places.names ∧ ∀ source, ¬net.Joins source id := by
  rw [entryPlaces, List.mem_filter, List.isEmpty_iff, plain.arcsInto_eq_nil]

theorem mem_exitPlaces (plain : net.Plain) {id : String} :
    id ∈ net.exitPlaces ↔ id ∈ net.places.names ∧ ∀ target, ¬net.Joins id target := by
  rw [exitPlaces, List.mem_filter, List.isEmpty_iff, plain.arcsFrom_eq_nil]

theorem mem_successors (plain : net.Plain) {id other : String} :
    other ∈ net.successors id ↔ net.Joins id other := by
  rw [successors, List.mem_map]
  constructor
  · rintro ⟨arc, member, rfl⟩
    exact (plain.mem_arcsFrom.mp member).1
  · exact fun joined => ⟨⟨id, other, 1⟩, plain.mem_arcsFrom.mpr ⟨joined, rfl⟩, rfl⟩

private theorem sum_weights (plain : net.Plain) (source target : String) :
    ((net.arcs.values.filter fun arc => arc.source = source ∧ arc.target = target).map
      Arc.weight).sum = if net.Joins source target then 1 else 0 := by
  have only : (net.arcs.values.filter fun arc => arc.source = source ∧ arc.target = target) =
      net.arcs.values.filter (· = ⟨source, target, 1⟩) := by
    refine List.filter_congr ?_
    intro arc member
    rw [decide_eq_decide]
    constructor
    · rintro ⟨rfl, rfl⟩
      exact plain.eq_of_mem member
    · rintro rfl
      exact ⟨rfl, rfl⟩
  rw [only, List.filter_eq, plain.indexed.nodup_values.count]
  by_cases joined : net.Joins source target
  · rw [if_pos joined, if_pos (show _ ∈ net.arcs.values from joined)]
    rfl
  · rw [if_neg joined, if_neg (show _ ∉ net.arcs.values from joined)]
    rfl

theorem tokens_fired (plain : net.Plain) (transition : String) {place : String}
    (known : place ∈ net.places.names) :
    (net.fired transition).tokens place =
      net.tokens place - (if net.Joins place transition then 1 else 0) +
        if net.Joins transition place then 1 else 0 := by
  obtain ⟨held, found⟩ := Registry.exists_get?_of_mem_names known
  have before := plain.sum_weights place transition
  have behind := plain.sum_weights transition place
  simp only [tokens, fired, tokens?_credit, tokens?_deduct, plain.indexed.incoming,
    plain.indexed.outgoing, List.filter_filter, Bool.decide_and, Bool.and_comm] at *
  simp [tokens?, place?, found, before, behind]

private theorem shortfall?_eq_none {arc : Arc} (weight : arc.weight = 1) :
    net.shortfall? arc = none ↔ 0 < net.tokens arc.source := by
  rw [shortfall?, tokens]
  cases net.tokens? arc.source with
  | none => simp
  | some tokens => simp [weight, Nat.pos_iff_ne_zero]

/-- A transition may fire when there is a place before it and a token on each such place. -/
theorem isEnabled_iff (plain : net.Plain) {transition : String} :
    net.isEnabled transition = true ↔
      transition ∈ net.transitions.names ∧ (∃ place, net.Joins place transition) ∧
        ∀ place, net.Joins place transition → 0 < net.tokens place := by
  have short : (net.arcsInto transition).filterMap net.shortfall? = [] ↔
      ∀ place, net.Joins place transition → 0 < net.tokens place := by
    rw [List.filterMap_eq_nil_iff]
    constructor
    · intro none place joined
      have member : (⟨place, transition, 1⟩ : Arc) ∈ net.arcsInto transition :=
        plain.mem_arcsInto.mpr ⟨joined, rfl⟩
      exact (shortfall?_eq_none rfl).mp (none _ member)
    · intro fed arc member
      obtain ⟨joined, same⟩ := plain.mem_arcsInto.mp member
      exact (shortfall?_eq_none (congrArg Arc.weight same)).mpr (fed arc.source joined)
  have behind : net.arcsInto transition ≠ [] ↔ ∃ place, net.Joins place transition := by
    rw [Ne, plain.arcsInto_eq_nil, not_forall_not]
  rw [isEnabled, blocked?, ← short, ← behind, ← Registry.contains_eq_true]
  cases net.transitions.contains transition with
  | false => simp
  | true =>
      by_cases none : net.arcsInto transition = []
      · simp [none]
      · cases (net.arcsInto transition).filterMap net.shortfall? <;> simp [none]

end Plain

/-! ## Sequences of firings -/

/-- The net after firings of transitions in order. -/
def firedAll (net : Net κ α) (trace : List String) : Net κ α := trace.foldl fired net

/-- Each transition may fire when its turn comes. -/
def Fireable (net : Net κ α) : List String → Prop
  | [] => True
  | transition :: rest => net.isEnabled transition = true ∧ (net.fired transition).Fireable rest

@[simp] theorem bare_firedAll (net : Net κ α) (trace : List String) :
    (net.firedAll trace).bare = net.bare := by
  induction trace generalizing net with
  | nil => rfl
  | cons transition rest ih => exact (ih _).trans (net.bare_fired transition)

theorem firedAll_append (net : Net κ α) (first second : List String) :
    net.firedAll (first ++ second) = (net.firedAll first).firedAll second :=
  List.foldl_append

theorem fireable_append {net : Net κ α} {first second : List String} :
    net.Fireable (first ++ second) ↔ net.Fireable first ∧ (net.firedAll first).Fireable second := by
  induction first generalizing net with
  | nil => simp [Fireable, firedAll]
  | cons transition rest ih => simp [Fireable, firedAll, ih, and_assoc]

/-- What a place holds after firings and what the firings behind it took, together, is what it
held and what the firings before it put down. -/
theorem Plain.tokens_firedAll {net : Net κ α} (plain : net.Plain) {trace : List String}
    (fireable : net.Fireable trace) {place : String} (known : place ∈ net.places.names) :
    (net.firedAll trace).tokens place + trace.countP (fun t => net.Joins place t) =
      net.tokens place + trace.countP (fun t => net.Joins t place) := by
  induction trace generalizing net with
  | nil => rfl
  | cons transition rest ih =>
      obtain ⟨enabled, fireable⟩ := fireable
      have same := net.bare_fired transition
      have step := ih (plain.of_bare same.symm) fireable (placeNames_fired net transition ▸ known)
      simp only [joins_of_bare same, plain.tokens_fired transition known] at step
      have fed := (plain.isEnabled_iff.mp enabled).2.2 place
      simp only [firedAll, List.foldl_cons, List.countP_cons, decide_eq_true_eq] at step ⊢
      split at step <;> split at step <;> simp_all <;> omega

/-! ## Passes -/

/-- The transitions of a list that fire in a pass over it. -/
def sweep (net : Net κ α) : List String → List String
  | [] => []
  | transition :: rest =>
      if net.isEnabled transition then transition :: (net.fired transition).sweep rest
      else net.sweep rest

theorem fireable_sweep (net : Net κ α) (transitions : List String) :
    net.Fireable (net.sweep transitions) := by
  induction transitions generalizing net with
  | nil => trivial
  | cons transition rest ih =>
      unfold sweep
      split
      · next enabled => exact ⟨enabled, ih _⟩
      · exact ih net

theorem not_enabled_of_sweep_eq_nil {net : Net κ α} {transitions : List String}
    (still : net.sweep transitions = []) :
    ∀ transition ∈ transitions, net.isEnabled transition = false := by
  induction transitions with
  | nil => simp
  | cons transition rest ih =>
      unfold sweep at still
      split at still
      · cases still
      · next blocked =>
          intro other member
          rcases List.mem_cons.mp member with rfl | inRest
          · exact (Bool.not_eq_true _).mp blocked
          · exact ih still other inRest

/-- Passes over all transitions, one after the other until one fires nothing, fire just these
transitions in this order. -/
inductive Exhausts : Net κ α → List String → Prop where
  | still {net : Net κ α} : net.sweep net.transitions.names = [] → Exhausts net []
  | pass {net : Net κ α} {trace rest : List String} :
      net.sweep net.transitions.names = trace → trace ≠ [] →
      Exhausts (net.firedAll trace) rest → Exhausts net (trace ++ rest)

namespace Exhausts

variable {net : Net κ α} {trace : List String}

theorem fireable (exhausts : net.Exhausts trace) : net.Fireable trace := by
  induction exhausts with
  | still _ => trivial
  | pass same _ _ ih => exact fireable_append.mpr ⟨same ▸ fireable_sweep _ _, ih⟩

/-- When the passes are over no transition may fire. -/
theorem quiet (exhausts : net.Exhausts trace) (transition : String) :
    (net.firedAll trace).isEnabled transition = false := by
  induction exhausts with
  | @still net still =>
      by_cases known : transition ∈ net.transitions.names
      · exact not_enabled_of_sweep_eq_nil still transition known
      · have absent := (Bool.not_eq_true _).mp (mt Registry.contains_eq_true.mp known)
        simp [firedAll, isEnabled, blocked?, absent]
  | pass _ _ _ ih => rwa [firedAll_append]

end Exhausts

/-! ## In the middle of the passes -/

variable {net : Net κ α} {done rest : List String} {transition : String} {progressed : Bool}

/-- Some passes that have fired something are over. -/
def Between (net : Net κ α) (done : List String) : Prop :=
  ∀ tail, (net.firedAll done).Exhausts tail → net.Exhausts (done ++ tail)

/-- Some passes are over and another one is under way, with these transitions to be tried; it has
fired something or not. -/
def Passing (net : Net κ α) (done : List String) (progressed : Bool) (rest : List String) :
    Prop :=
  ∃ before swept, done = before ++ swept ∧ net.Between before ∧
    (net.firedAll before).sweep net.transitions.names = swept ++ (net.firedAll done).sweep rest ∧
    (progressed = true ↔ swept ≠ [])

theorem between_nil (net : Net κ α) : net.Between [] := fun _ exhausts => exhausts

theorem Between.passing (between : net.Between done) :
    net.Passing done false net.transitions.names :=
  ⟨done, [], (List.append_nil done).symm, between, rfl, by simp⟩

/-- A transition that may not fire is left out. -/
theorem Passing.skip (passing : net.Passing done progressed (transition :: rest))
    (blocked : (net.firedAll done).isEnabled transition = false) :
    net.Passing done progressed rest := by
  obtain ⟨before, swept, split, between, sweeps, flag⟩ := passing
  refine ⟨before, swept, split, between, ?_, flag⟩
  rw [sweeps, sweep, blocked]
  rfl

/-- A transition that may fire is fired. -/
theorem Passing.fire (passing : net.Passing done progressed (transition :: rest))
    (enabled : (net.firedAll done).isEnabled transition = true) :
    net.Passing (done ++ [transition]) true rest := by
  obtain ⟨before, swept, split, between, sweeps, -⟩ := passing
  refine ⟨before, swept ++ [transition], by rw [split, List.append_assoc], between, ?_, by simp⟩
  rw [sweeps, sweep, if_pos enabled, firedAll_append, List.append_assoc]
  rfl

/-- Another pass follows one that has fired something. -/
theorem Passing.between (passing : net.Passing done true []) : net.Between done := by
  obtain ⟨before, swept, split, between, sweeps, flag⟩ := passing
  intro tail exhausts
  rw [split, List.append_assoc]
  refine between _ (.pass ?_ (flag.mp rfl) ?_)
  · rw [transitions_of_bare (bare_firedAll net before), sweeps]
    exact List.append_nil swept
  · rw [← firedAll_append, ← split]
    exact exhausts

/-- After a pass that has fired nothing the net is exhausted. -/
theorem Passing.exhausts (passing : net.Passing done false []) : net.Exhausts done := by
  obtain ⟨before, swept, split, between, sweeps, flag⟩ := passing
  obtain rfl : swept = [] := by
    by_contra some
    cases flag.mpr some
  rw [List.append_nil] at split
  subst split
  have whole := between [] (.still ?_)
  · rwa [List.append_nil] at whole
  · rw [transitions_of_bare (bare_firedAll net done), sweeps]
    rfl

end Net

end CardNet
