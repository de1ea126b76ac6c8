import CardNet.Proofs.Graph.Cycles

/-!
# Arcs and their texts

A net asks for an arc by the text `source->target`, and two names of nodes can give the text of
two others when an arrow stands in them. `Net.Discerns` says that of two nodes the net tells from
the text whether an arc leads from the one to the other. It does unless an arc between other nodes
goes under the text (`Net.discerns_iff`), which needs an arrow in one of the two names.
-/

namespace CardNet

/-! ## Reading texts of arcs -/

private def arrowChars : List Char := ['-', '>']

private theorem arrow_front {front left right : List Char}
    (same : arrowChars ++ left = front ++ (arrowChars ++ right)) :
    front = [] ∨ ∃ more, front = arrowChars ++ more ∧ left = more ++ (arrowChars ++ right) := by
  match front with
  | [] => exact .inl rfl
  | [first] =>
      -- An arrow does not begin with the end of an arrow.
      simp [arrowChars] at same
  | first :: second :: more =>
      simp only [arrowChars, List.cons_append, List.nil_append, List.cons.injEq] at same
      obtain ⟨rfl, rfl, rest⟩ := same
      exact .inr ⟨more, rfl, rest⟩

/-- No arrow stands in a name. -/
def ArrowFree (name : String) : Prop := ¬"->".toList <:+: name.toList

instance (name : String) : Decidable (ArrowFree name) := inferInstanceAs (Decidable (¬_))

/-- The text of an arc between names without arrows is the text of no other arc. -/
theorem ArrowFree.ends_eq {source target other next : String} (left : ArrowFree source)
    (right : ArrowFree target) (same : arcName source target = arcName other next) :
    source = other ∧ target = next := by
  have chars := congrArg String.toList same
  simp only [arcName, String.toList_append, List.append_assoc] at chars
  suffices ends : source.toList = other.toList ∧ target.toList = next.toList from
    ⟨String.toList_injective ends.1, String.toList_injective ends.2⟩
  rcases List.append_eq_append_iff.mp chars with ⟨front, split, rest⟩ | ⟨front, split, rest⟩
  · rcases arrow_front rest with rfl | ⟨more, -, inside⟩
    · rw [List.append_nil] at split
      exact ⟨split.symm, (List.append_cancel_left rest)⟩
    · refine absurd ⟨more, next.toList, ?_⟩ right
      rw [inside, List.append_assoc]
      rfl
  · rcases arrow_front rest with rfl | ⟨more, inside, -⟩
    · rw [List.append_nil] at split
      exact ⟨split, (List.append_cancel_left rest).symm⟩
    · refine absurd ⟨other.toList, more, ?_⟩ left
      rw [split, inside, List.append_assoc]
      rfl

namespace Net

variable {κ α : Type} {net : Net κ α} {source target : String}

/-! ## Asking for arcs -/

/-- The names belong to two nodes of different kinds. -/
def Pairs (net : Net κ α) (source target : String) : Prop :=
  ∃ first second, net.nodeKind? source = some first ∧ net.nodeKind? target = some second ∧
    first ≠ second

/-- An arc between two nodes of different kinds is entered unless its text is taken. -/
theorem addArc_of_pairs (pairs : net.Pairs source target) {weight : Nat} (positive : 0 < weight) :
    net.addArc source target weight =
      if net.isConnected source target then .error (.duplicateArc source target)
      else .ok (net.pushArc ⟨source, target, weight⟩) := by
  obtain ⟨first, second, left, right, differ⟩ := pairs
  rw [addArc, left, right]
  dsimp only
  rw [if_neg differ, if_neg (Nat.ne_of_gt positive)]

/-- The net knows the arc from one node to another: it answers that the two are connected just when
an arc leads from the one to the other. Just then an arc that is added between the two is refused
as a duplicate, and otherwise it is entered behind the other arcs. -/
structure Discerns (net : Net κ α) (source target : String) : Prop where
  connected : net.isConnected source target = true ↔ net.Arrow source target
  refused : ∀ weight, 0 < weight → net.Pairs source target →
    (net.addArc source target weight = .error (.duplicateArc source target) ↔
      net.Arrow source target)
  entered : ∀ weight, 0 < weight → net.Pairs source target → ¬net.Arrow source target →
    ∃ after, net.addArc source target weight = .ok after ∧
      after.arcs.values = net.arcs.values ++ [⟨source, target, weight⟩] ∧
      after.places = net.places ∧ after.transitions = net.transitions

/-- All of this comes down to the question whether two nodes are connected. -/
theorem Discerns.of_connected
    (connected : net.isConnected source target = true ↔ net.Arrow source target) :
    net.Discerns source target where
  connected := connected
  refused := by
    intro weight positive pairs
    rw [addArc_of_pairs pairs positive, ← connected]
    by_cases taken : net.isConnected source target = true
    · simp [taken]
    · simp [taken]
  entered := by
    intro weight positive pairs none
    have free := mt connected.mp none
    refine ⟨net.pushArc ⟨source, target, weight⟩, ?_, ?_, rfl, rfl⟩
    · rw [addArc_of_pairs pairs positive, if_neg free]
    · have fresh : Arc.name ⟨source, target, weight⟩ ∉ net.arcs.names :=
        fun known => free (Registry.contains_eq_true.mpr known)
      exact Registry.values_insert_of_not_mem _ fresh

/-- Whatever operations a net has gone through, it knows the arc from one node to another just when
no arc between other nodes goes under the text of the two, and always when no arrow stands in their
names. -/
theorem discerns_iff (operated : net.Operated) (source target : String) :
    (net.Discerns source target ↔ ∀ arc ∈ net.arcs.values,
      arc.name = arcName source target → arc.source = source ∧ arc.target = target) ∧
    (ArrowFree source → ArrowFree target → net.Discerns source target) := by
  obtain ⟨indexed, -⟩ := operated.shape
  have alone : (∀ arc ∈ net.arcs.values, arc.name = arcName source target →
      arc.source = source ∧ arc.target = target) → net.Discerns source target := by
    intro alone
    apply Discerns.of_connected
    rw [indexed.isConnected_iff]
    constructor
    · rintro ⟨arc, member, named⟩
      exact ⟨arc, member, alone arc member named⟩
    · rintro ⟨arc, member, rfl, rfl⟩
      exact ⟨arc, member, rfl⟩
  refine ⟨⟨fun discerns arc member named => ?_, alone⟩, fun left right => alone ?_⟩
  · obtain ⟨other, known, leaves, enters⟩ :=
      discerns.connected.mp (indexed.isConnected_iff.mpr ⟨arc, member, named⟩)
    have same : arc = other :=
      indexed.eq_of_name member known (by rw [named, Arc.name, leaves, enters])
    exact same ▸ ⟨leaves, enters⟩
  · intro arc _ named
    obtain ⟨first, second⟩ := left.ends_eq right named.symm
    exact ⟨first.symm, second.symm⟩

/-- Arrows stand in two names, and an arc between two others goes under their text. -/
def forked : List (Operation Unit Unit) :=
  [.addPlace "a" ⟨.start, 1, none⟩, .addPlace "a->b" ⟨.process, 0, none⟩,
    .addTransition "b->c" (), .addTransition "c" (), .addArc "a" "b->c" 1]

theorem discerns_forked : ∃ start : Net Unit Unit, create "forked" = .ok start ∧
    (start.operateAll forked).Discerns "a" "b->c" ∧
      (start.operateAll forked).Discerns "a" "c" := by
  have created : create "forked" =
      .ok (⟨"forked", .empty, .empty, .empty, .empty, .empty⟩ : Net Unit Unit) := rfl
  have operated := Operated.operateAll (.blank _ _ created) forked
  refine ⟨_, created, (discerns_iff operated "a" "b->c").1.mpr ?_,
    (discerns_iff operated "a" "c").2 (by decide) (by decide)⟩
  decide +kernel

/-- A net says that two nodes are connected, and refuses an arc between them as a duplicate, though
no arc leads from the one to the other. -/
theorem text_taken_for_arc : ∃ start : Net Unit Unit, create "forked" = .ok start ∧
    let net := start.operateAll forked
    net.Pairs "a->b" "c" ∧ ¬net.Arrow "a->b" "c" ∧ net.isConnected "a->b" "c" = true ∧
      net.addArc "a->b" "c" 1 = .error (.duplicateArc "a->b" "c") := by
  refine ⟨_, rfl, ⟨.place, .transition, ?_, ?_, by decide⟩, ?_, ?_, ?_⟩
  · decide +kernel
  · decide +kernel
  · rintro ⟨arc, member, ends⟩
    revert arc
    decide +kernel
  · decide +kernel
  · rfl

end Net

end CardNet
