import CardNet.Proofs.Net.Ledger
import CardNet.Proofs.Net.Removal

/-!
# Nets after any operations

A net is built and used by operations that may fail, and one that fails leaves the net alone
(`Net.operate`). A chronicle of the operations keeps plain lists of the nodes and arcs that were
entered and not taken out since, in order of entry (`Chronicle.note`). Whatever the operations
are, the net lists just what the chronicle lists, and the arcs that it lists under its nodes are
those of the list of arcs (`Net.Shows.operate`); what holds of the lists of a chronicle then holds
of the net (`Net.representation_kept`).
-/

namespace CardNet

/-- An operation on nets. -/
inductive Net.Operation (κ α : Type) where
  | addPlace (id : String) (place : Place κ)
  | addTransition (id : String) (action : α)
  | addArc (source target : String) (weight : Nat)
  | removePlace (id : String)
  | removeTransition (id : String)
  | setTokens (id : String) (tokens : Nat)
  | restore (marking : Std.ExtTreeMap String Nat)
  /-- A transition is fired; its action succeeds, or it fails or is given up. -/
  | fire (transition : String) (succeeds : Bool)

namespace Net

variable {κ α : Type}

/-- The net after a change that may be refused. -/
def settle (net : Net κ α) : Except NetError (Net κ α) → Net κ α
  | .ok changed => changed
  | .error _ => net

/-- Fire a transition if it may fire, with an action that succeeds or does not. -/
def attempt (net : Net κ α) (transition : String) (succeeds : Bool) : Net κ α :=
  match net.begin transition with
  | .error _ => net
  | .ok (firing, taken) => if succeeds then taken.commit firing else taken.rollback firing

/-- The net after an operation, which may have failed. -/
def operate (net : Net κ α) : Operation κ α → Net κ α
  | .addPlace id place => net.settle (net.addPlace id place)
  | .addTransition id action => net.settle (net.addTransition id action)
  | .addArc source target weight => net.settle (net.addArc source target weight)
  | .removePlace id => (net.removePlace id).2
  | .removeTransition id => (net.removeTransition id).2
  | .setTokens id tokens => (net.setTokens id tokens).2
  | .restore marking => net.restore marking
  | .fire transition succeeds => net.attempt transition succeeds

/-- The net after operations in order. -/
def operateAll (net : Net κ α) (operations : List (Operation κ α)) : Net κ α :=
  operations.foldl operate net

end Net

/-! ## Chronicles -/

/-- The nodes and arcs that were entered and not taken out since, in order of entry. -/
structure Chronicle where
  places : List String
  transitions : List String
  arcs : List Arc
deriving DecidableEq

namespace Chronicle

variable {κ α : Type}

/-- Nothing was entered. -/
def blank : Chronicle := ⟨[], [], []⟩

/-- One of two nodes is a place and the other one a transition. -/
def Pairs (chronicle : Chronicle) (source target : String) : Prop :=
  source ∈ chronicle.places ∧ target ∈ chronicle.transitions ∨
    source ∈ chronicle.transitions ∧ target ∈ chronicle.places

instance (chronicle : Chronicle) (source target : String) :
    Decidable (chronicle.Pairs source target) :=
  inferInstanceAs (Decidable (_ ∨ _))

/-- The arcs that do not touch a node. -/
def arcsWithout (chronicle : Chronicle) (id : String) : List Arc :=
  chronicle.arcs.filter fun arc => arc.source ≠ id ∧ arc.target ≠ id

/-- Enter an operation: a node under a free name, an arc of some weight between a place and a
transition under a text of its own, a node that goes with the arcs that touch it. -/
def note (chronicle : Chronicle) : Net.Operation κ α → Chronicle
  | .addPlace id _ =>
      if id ∈ chronicle.places ∨ id ∈ chronicle.transitions then chronicle
      else { chronicle with places := chronicle.places ++ [id] }
  | .addTransition id _ =>
      if id ∈ chronicle.places ∨ id ∈ chronicle.transitions then chronicle
      else { chronicle with transitions := chronicle.transitions ++ [id] }
  | .addArc source target weight =>
      if chronicle.Pairs source target ∧ 0 < weight ∧
          ∀ arc ∈ chronicle.arcs, arc.name ≠ arcName source target then
        { chronicle with arcs := chronicle.arcs ++ [⟨source, target, weight⟩] }
      else chronicle
  | .removePlace id =>
      if id ∈ chronicle.places then
        { chronicle with
          places := chronicle.places.filter (· ≠ id), arcs := chronicle.arcsWithout id }
      else chronicle
  | .removeTransition id =>
      if id ∈ chronicle.transitions then
        { chronicle with
          transitions := chronicle.transitions.filter (· ≠ id), arcs := chronicle.arcsWithout id }
      else chronicle
  | .setTokens _ _ | .restore _ | .fire _ _ => chronicle

/-- The chronicle of operations in order. -/
def ofOperations (operations : List (Net.Operation κ α)) : Chronicle := operations.foldl note blank

/-- No name belongs to a place and to a transition, and every arc has some weight and connects two
nodes that are there, one of each kind. Arcs are known by their texts. -/
structure Consistent (chronicle : Chronicle) : Prop where
  apart : ∀ id ∈ chronicle.places, id ∉ chronicle.transitions
  weight : ∀ arc ∈ chronicle.arcs, 1 ≤ arc.weight
  pairs : ∀ arc ∈ chronicle.arcs, chronicle.Pairs arc.source arc.target
  named : (chronicle.arcs.map Arc.name).Nodup

theorem consistent_blank : blank.Consistent := by
  refine ⟨?_, ?_, ?_, ?_⟩ <;> simp [blank]

variable {chronicle : Chronicle}

theorem Pairs.mono {more : Chronicle} {source target : String}
    (pairs : chronicle.Pairs source target)
    (places : ∀ id ∈ chronicle.places, id ∈ more.places)
    (transitions : ∀ id ∈ chronicle.transitions, id ∈ more.transitions) :
    more.Pairs source target :=
  pairs.imp (fun ends => ⟨places _ ends.1, transitions _ ends.2⟩)
    fun ends => ⟨transitions _ ends.1, places _ ends.2⟩

/-- Arcs that do not touch a node connect nodes that stay when it goes. -/
private theorem Consistent.without (consistent : chronicle.Consistent) {rest : Chronicle}
    {id : String} (places : ∀ other, other ∈ rest.places ↔
      other ∈ chronicle.places ∧ (other = id → other ∈ rest.places))
    (transitions : ∀ other, other ∈ rest.transitions ↔
      other ∈ chronicle.transitions ∧ (other = id → other ∈ rest.transitions))
    (arcs : rest.arcs = chronicle.arcsWithout id) : rest.Consistent := by
  have kept : ∀ arc ∈ rest.arcs, arc ∈ chronicle.arcs ∧ arc.source ≠ id ∧ arc.target ≠ id := by
    intro arc member
    rw [arcs, arcsWithout, List.mem_filter, decide_eq_true_eq] at member
    exact member
  refine ⟨fun other member transition => ?_, fun arc member => ?_, fun arc member => ?_, ?_⟩
  · exact consistent.apart other ((places other).mp member).1 ((transitions other).mp transition).1
  · exact consistent.weight arc (kept arc member).1
  · obtain ⟨old, source, target⟩ := kept arc member
    rcases consistent.pairs arc old with ⟨left, right⟩ | ⟨left, right⟩
    · exact .inl ⟨(places _).mpr ⟨left, fun same => absurd same source⟩,
        (transitions _).mpr ⟨right, fun same => absurd same target⟩⟩
    · exact .inr ⟨(transitions _).mpr ⟨left, fun same => absurd same source⟩,
        (places _).mpr ⟨right, fun same => absurd same target⟩⟩
  · rw [arcs]
    exact consistent.named.sublist (List.filter_sublist.map _)

theorem Consistent.note (consistent : chronicle.Consistent) (operation : Net.Operation κ α) :
    (chronicle.note operation).Consistent := by
  cases operation with
  | addPlace id place =>
      rw [Chronicle.note]
      split
      · exact consistent
      · next free =>
          push Not at free
          refine ⟨fun other member => ?_, consistent.weight, fun arc member => ?_,
            consistent.named⟩
          · rcases List.mem_append.mp member with old | new
            · exact consistent.apart other old
            · rw [List.mem_singleton.mp new]
              exact free.2
          · exact (consistent.pairs arc member).mono (fun _ => List.mem_append_left _)
              fun _ known => known
  | addTransition id action =>
      rw [Chronicle.note]
      split
      · exact consistent
      · next free =>
          push Not at free
          refine ⟨fun other member transition => ?_, consistent.weight, fun arc member => ?_,
            consistent.named⟩
          · rcases List.mem_append.mp transition with old | new
            · exact consistent.apart other member old
            · exact free.1 (List.mem_singleton.mp new ▸ member)
          · exact (consistent.pairs arc member).mono (fun _ known => known)
              fun _ => List.mem_append_left _
  | addArc source target weight =>
      rw [Chronicle.note]
      split
      · next admitted =>
          obtain ⟨pairs, positive, fresh⟩ := admitted
          refine ⟨consistent.apart, fun arc member => ?_, fun arc member => ?_, ?_⟩
          · rcases List.mem_append.mp member with old | new
            · exact consistent.weight arc old
            · rw [List.mem_singleton.mp new]
              exact positive
          · rcases List.mem_append.mp member with old | new
            · exact consistent.pairs arc old
            · rw [List.mem_singleton.mp new]
              exact pairs
          · rw [List.map_append, List.nodup_append]
            refine ⟨consistent.named, List.nodup_singleton _, ?_⟩
            rintro _ old _ new rfl
            obtain ⟨arc, member, same⟩ := List.mem_map.mp old
            exact fresh arc member (same.trans (List.mem_singleton.mp new))
      · exact consistent
  | removePlace id =>
      rw [Chronicle.note]
      split
      · refine consistent.without (fun other => ?_) (fun other => ?_) rfl
        · rw [List.mem_filter, decide_eq_true_eq]
          exact and_congr_right fun _ => ⟨fun differ same => absurd same differ,
            fun stays same => (stays same).2 same⟩
        · exact ⟨fun member => ⟨member, fun _ => member⟩, And.left⟩
      · exact consistent
  | removeTransition id =>
      rw [Chronicle.note]
      split
      · refine consistent.without (fun other => ?_) (fun other => ?_) rfl
        · exact ⟨fun member => ⟨member, fun _ => member⟩, And.left⟩
        · rw [List.mem_filter, decide_eq_true_eq]
          exact and_congr_right fun _ => ⟨fun differ same => absurd same differ,
            fun stays same => (stays same).2 same⟩
      · exact consistent
  | setTokens | restore | fire => exact consistent

end Chronicle

/-! ## What a net lists -/

namespace Net

variable {κ α : Type} {net : Net κ α} {chronicle : Chronicle}

@[simp] theorem bare_restore (net : Net κ α) (marking : Std.ExtTreeMap String Nat) :
    (net.restore marking).bare = net.bare := by
  rw [restore, Std.ExtTreeMap.foldl_eq_foldl_toList]
  induction marking.toList generalizing net with
  | nil => rfl
  | cons entry rest ih => exact (ih _).trans (bare_modifyTokens net _ _)

/-- A firing moves tokens only, however it ends. -/
theorem bare_attempt (net : Net κ α) (transition : String) (succeeds : Bool) :
    (net.attempt transition succeeds).bare = net.bare := by
  unfold attempt
  split
  · rfl
  · next firing taken begun =>
      have took : taken = net.deduct firing.inputs := by
        unfold begin at begun
        grind
      cases succeeds with
      | true => exact (bare_credit _ _).trans (took ▸ bare_deduct _ _)
      | false => exact (bare_refund _ _).trans (took ▸ bare_deduct _ _)

/-- A net lists the nodes and arcs of a chronicle, and lists its arcs under their ends too. -/
structure Shows (net : Net κ α) (chronicle : Chronicle) : Prop where
  places : net.places.names = chronicle.places
  transitions : net.transitions.names = chronicle.transitions
  arcs : net.arcs.values = chronicle.arcs
  indexed : net.Indexed

namespace Shows

theorem blank (name : String) :
    (⟨name, .empty, .empty, .empty, .empty, .empty⟩ : Net κ α).Shows .blank :=
  ⟨rfl, rfl, rfl, .blank name⟩

theorem of_create {name : String} (created : create name = .ok net) : net.Shows .blank := by
  unfold create at created
  split at created
  · cases created
  · cases created
    exact .blank name

variable (shows : net.Shows chronicle)

include shows

/-- Tokens are not listed. -/
theorem of_bare {other : Net κ α} (same : other.bare = net.bare) : other.Shows chronicle where
  places := (placeNames_of_bare same).trans shows.places
  transitions := (congrArg Registry.names (transitions_of_bare same)).trans shows.transitions
  arcs := (congrArg Registry.values (arcs_of_bare same)).trans shows.arcs
  indexed := shows.indexed.of_bare same

theorem hasNode_iff {id : String} :
    net.hasNode id = true ↔ id ∈ chronicle.places ∨ id ∈ chronicle.transitions := by
  rw [hasNode, Bool.or_eq_true, Registry.contains_eq_true, Registry.contains_eq_true,
    shows.places, shows.transitions]

theorem isConnected_iff (source target : String) :
    net.isConnected source target = true ↔
      ∃ arc ∈ chronicle.arcs, arc.name = arcName source target := by
  rw [shows.indexed.isConnected_iff, shows.arcs]

theorem nodeKind?_eq (id : String) :
    net.nodeKind? id = if id ∈ chronicle.places then some .place
      else if id ∈ chronicle.transitions then some .transition else none := by
  simp only [nodeKind?, Registry.contains_eq_true, shows.places, shows.transitions]

theorem addPlace (id : String) (place : Place κ) :
    (net.operate (.addPlace id place)).Shows
      (chronicle.note (.addPlace id place : Operation κ α)) := by
  rw [operate, Net.addPlace, Chronicle.note]
  by_cases taken : id ∈ chronicle.places ∨ id ∈ chronicle.transitions
  · rw [if_pos (shows.hasNode_iff.mpr taken), if_pos taken]
    exact shows
  · rw [if_neg (mt shows.hasNode_iff.mp taken), if_neg taken]
    have fresh : id ∉ net.places.names := shows.places ▸ fun member => taken (.inl member)
    exact ⟨(Registry.names_insert_of_not_mem place fresh).trans (by rw [shows.places]),
      shows.transitions, shows.arcs, shows.indexed.congr rfl rfl rfl⟩

theorem addTransition (id : String) (action : α) :
    (net.operate (.addTransition id action)).Shows
      (chronicle.note (.addTransition id action : Operation κ α)) := by
  rw [operate, Net.addTransition, Chronicle.note]
  by_cases taken : id ∈ chronicle.places ∨ id ∈ chronicle.transitions
  · rw [if_pos (shows.hasNode_iff.mpr taken), if_pos taken]
    exact shows
  · rw [if_neg (mt shows.hasNode_iff.mp taken), if_neg taken]
    have fresh : id ∉ net.transitions.names :=
      shows.transitions ▸ fun member => taken (.inr member)
    exact ⟨shows.places,
      (Registry.names_insert_of_not_mem action fresh).trans (by rw [shows.transitions]),
      shows.arcs, shows.indexed.congr rfl rfl rfl⟩

/-- An arc is entered exactly when its ends are of different kinds, it has some weight and its
text is free. -/
private theorem addArc_eq (consistent : chronicle.Consistent) (source target : String)
    (weight : Nat) : net.settle (net.addArc source target weight) =
      if chronicle.Pairs source target ∧ 0 < weight ∧
          ∀ arc ∈ chronicle.arcs, arc.name ≠ arcName source target then
        net.pushArc ⟨source, target, weight⟩
      else net := by
  have connected := shows.isConnected_iff source target
  have left := consistent.apart source
  have right := consistent.apart target
  simp only [Net.addArc, shows.nodeKind?_eq, Chronicle.Pairs]
  grind [settle]

theorem addArc (consistent : chronicle.Consistent) (source target : String) (weight : Nat) :
    (net.operate (.addArc source target weight)).Shows
      (chronicle.note (.addArc source target weight : Operation κ α)) := by
  rw [operate, shows.addArc_eq consistent, Chronicle.note]
  split
  · next admitted =>
      have fresh : Arc.name ⟨source, target, weight⟩ ∉ net.arcs.names := by
        intro taken
        obtain ⟨arc, found⟩ := Registry.exists_get?_of_mem_names taken
        have member := Registry.mem_values_iff.mpr ⟨_, found⟩
        exact admitted.2.2 arc (shows.arcs ▸ member) (shows.indexed.named _ arc found)
      exact ⟨shows.places, shows.transitions,
        (Registry.values_insert_of_not_mem _ fresh).trans (by rw [shows.arcs]),
        shows.indexed.pushArc fresh⟩
  · exact shows

theorem removePlace (id : String) : (net.operate (.removePlace id)).Shows
    (chronicle.note (.removePlace id : Operation κ α)) := by
  rw [operate, Chronicle.note]
  by_cases member : id ∈ chronicle.places
  · rw [if_pos member]
    obtain ⟨place, found⟩ := Registry.exists_get?_of_mem_names (shows.places ▸ member)
    have bared : Net.Indexed { net with places := net.places.erase id } :=
      shows.indexed.congr rfl rfl rfl
    have removed : (net.removePlace id).2 =
        Net.detach { net with places := net.places.erase id } id := by
      rw [Net.removePlace, place?, found]
    refine ⟨?_, ?_, ?_, removed ▸ bared.detach id⟩
    · rw [places_removePlace, Registry.names_erase, shows.places]
    · rw [transitions_removePlace, shows.transitions]
    · rw [removed, values_detach bared, Chronicle.arcsWithout, ← shows.arcs]
  · rw [if_neg member, Net.removePlace, place?,
      Registry.get?_eq_none_iff.mpr (shows.places ▸ member)]
    exact shows

theorem removeTransition (id : String) : (net.operate (.removeTransition id)).Shows
    (chronicle.note (.removeTransition id : Operation κ α)) := by
  rw [operate, Chronicle.note]
  by_cases member : id ∈ chronicle.transitions
  · rw [if_pos member]
    obtain ⟨action, found⟩ := Registry.exists_get?_of_mem_names (shows.transitions ▸ member)
    have bared : Net.Indexed { net with transitions := net.transitions.erase id } :=
      shows.indexed.congr rfl rfl rfl
    have removed : (net.removeTransition id).2 =
        Net.detach { net with transitions := net.transitions.erase id } id := by
      rw [Net.removeTransition, found]
    refine ⟨?_, ?_, ?_, removed ▸ bared.detach id⟩
    · rw [places_removeTransition, shows.places]
    · rw [transitions_removeTransition, Registry.names_erase, shows.transitions]
    · rw [removed, values_detach bared, Chronicle.arcsWithout, ← shows.arcs]
  · rw [if_neg member, Net.removeTransition,
      Registry.get?_eq_none_iff.mpr (shows.transitions ▸ member)]
    exact shows

/-- An operation does to the net what it does to the chronicle. -/
theorem operate (consistent : chronicle.Consistent) (operation : Operation κ α) :
    (net.operate operation).Shows (chronicle.note operation) := by
  cases operation with
  | addPlace id place => exact shows.addPlace id place
  | addTransition id action => exact shows.addTransition id action
  | addArc source target weight => exact shows.addArc consistent source target weight
  | removePlace id => exact shows.removePlace id
  | removeTransition id => exact shows.removeTransition id
  | setTokens id tokens => exact shows.of_bare (bare_modifyTokens net id _)
  | restore marking => exact shows.of_bare (bare_restore net marking)
  | fire transition succeeds => exact shows.of_bare (bare_attempt net transition succeeds)

/-- By induction on the operations: each of them keeps the chronicle consistent, which the next
one needs. -/
theorem operateAll (consistent : chronicle.Consistent) (operations : List (Operation κ α)) :
    (net.operateAll operations).Shows (operations.foldl Chronicle.note chronicle) ∧
      (operations.foldl Chronicle.note chronicle).Consistent := by
  induction operations generalizing net chronicle with
  | nil => exact ⟨shows, consistent⟩
  | cons operation rest ih =>
      exact ih (shows.operate consistent operation) (consistent.note operation)

end Shows

/-! ## The representation of a net -/

/-- The nodes and the three listings of the arcs fit together. -/
structure WellFormed (net : Net κ α) : Prop where
  apart : ∀ id ∈ net.places.names, id ∉ net.transitions.names
  weight : ∀ arc ∈ net.arcs.values, 1 ≤ arc.weight
  connects : ∀ arc ∈ net.arcs.values,
    arc.source ∈ net.places.names ∧ arc.target ∈ net.transitions.names ∨
      arc.source ∈ net.transitions.names ∧ arc.target ∈ net.places.names
  ends : (net.arcs.values.map fun arc => (arc.source, arc.target)).Nodup
  incoming : ∀ id, net.arcsInto id = net.arcs.values.filter fun arc => arc.target = id
  outgoing : ∀ id, net.arcsFrom id = net.arcs.values.filter fun arc => arc.source = id
  entries : net.entryPlaces =
    net.places.names.filter fun id => ∀ arc ∈ net.arcs.values, arc.target ≠ id
  exits : net.exitPlaces =
    net.places.names.filter fun id => ∀ arc ∈ net.arcs.values, arc.source ≠ id

theorem Shows.wellFormed (shows : net.Shows chronicle) (consistent : chronicle.Consistent) :
    net.WellFormed where
  apart := by
    rw [shows.places, shows.transitions]
    exact consistent.apart
  weight := by
    rw [shows.arcs]
    exact consistent.weight
  connects := by
    rw [shows.arcs, shows.places, shows.transitions]
    exact consistent.pairs
  ends := by
    rw [shows.arcs]
    refine List.Nodup.of_map (fun ends : String × String => arcName ends.1 ends.2) ?_
    rw [List.map_map]
    exact consistent.named
  incoming := shows.indexed.incoming
  outgoing := shows.indexed.outgoing
  entries := by
    refine List.filter_congr fun id _ => ?_
    rw [Bool.eq_iff_iff, List.isEmpty_iff, shows.indexed.incoming, List.filter_eq_nil_iff,
      decide_eq_true_eq]
    simp only [decide_eq_true_eq, ne_eq]
  exits := by
    refine List.filter_congr fun id _ => ?_
    rw [Bool.eq_iff_iff, List.isEmpty_iff, shows.indexed.outgoing, List.filter_eq_nil_iff,
      decide_eq_true_eq]
    simp only [decide_eq_true_eq, ne_eq]

/-- Whatever operations a new net goes through, and whether they succeed or not: no name belongs
to a place and to a transition; every arc has some weight and connects a place and a transition
that are there; no two arcs share their ends; the arcs listed under a node, and with them the
places that no arc enters or leaves, are those of the list of arcs, in its order. The lists are
those of what was entered and not taken out since, in order of entry. -/
theorem representation_kept {name : String} {net : Net κ α} (created : Net.create name = .ok net)
    (operations : List (Operation κ α)) :
    (net.operateAll operations).WellFormed ∧
      (net.operateAll operations).places.names = (Chronicle.ofOperations operations).places ∧
      (net.operateAll operations).transitions.names =
        (Chronicle.ofOperations operations).transitions ∧
      (net.operateAll operations).arcs.values = (Chronicle.ofOperations operations).arcs := by
  obtain ⟨shows, consistent⟩ :=
    (Shows.of_create created).operateAll Chronicle.consistent_blank operations
  exact ⟨shows.wellFormed consistent, shows.places, shows.transitions, shows.arcs⟩

/-- Arcs both ways between two nodes, an arc whose text is taken by an arc between other nodes,
refused operations, firings of each kind, and a place that comes back without its arcs. -/
def reentered : List (Operation Unit Unit) :=
  [.addPlace "a" ⟨.start, 1, none⟩, .addTransition "b" (), .addTransition "b->c" (),
    .addPlace "a->b" ⟨.process, 0, none⟩, .addTransition "c" (), .addTransition "a" (),
    .addArc "a" "b" 1, .addArc "b" "a" 2, .addArc "a->b" "c" 1, .addArc "a" "b->c" 1,
    .addArc "b" "c" 1, .addArc "b" "a->b" 0, .fire "b" true, .fire "b" false, .fire "c" true,
    .setTokens "a" 5, .restore ∅, .removeTransition "a", .removePlace "a",
    .addPlace "a" ⟨.finish, 0, none⟩, .addArc "a" "b" 3]

theorem representation_kept_reentered : ∃ net : Net Unit Unit, Net.create "net" = .ok net ∧
    (net.operateAll reentered).WellFormed ∧
    (net.operateAll reentered).places.names = ["a->b", "a"] ∧
    (net.operateAll reentered).transitions.names = ["b", "b->c", "c"] ∧
    (net.operateAll reentered).arcs.values = [⟨"a->b", "c", 1⟩, ⟨"a", "b", 3⟩] := by
  have noted : Chronicle.ofOperations reentered =
      ⟨["a->b", "a"], ["b", "b->c", "c"], [⟨"a->b", "c", 1⟩, ⟨"a", "b", 3⟩]⟩ := by
    decide +kernel
  have created : Net.create "net" =
      .ok (⟨"net", .empty, .empty, .empty, .empty, .empty⟩ : Net Unit Unit) := rfl
  obtain ⟨wellFormed, places, transitions, arcs⟩ := representation_kept created reentered
  rw [noted] at places transitions arcs
  exact ⟨_, created, wellFormed, places, transitions, arcs⟩

end Net

end CardNet
