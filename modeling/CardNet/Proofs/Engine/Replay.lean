import CardNet.Proofs.Engine.Firings
import CardNet.Proofs.Graph.Access
import CardNet.Proofs.Value.Related

/-!
# Replays

Two plays of the same transitions on boards with related values succeed together and leave
related values, as far as the functions of cards answer related arguments with related results
(`Card.Steady`). Values that the plays fill before they use them need not be related at first: in
a fed trace it is enough that those are that nothing fills (`Circuit.Draws.replay`).
-/

namespace CardNet

/-! ## Actions -/

/-- A card whose function answers related arguments with related results, and sets all outputs
whenever it answers. -/
structure Card.Steady (card : Card) (relation : Value → Value → Prop) : Prop where
  respects : ∀ run, card.work = .function run → ∀ first second : Values,
    first.Related relation second → ∀ results, run first = .ok results →
      ∃ others, run second = .ok others ∧ results.Related relation others
  complete : ∀ run, card.work = .function run → ∀ arguments results,
    run arguments = .ok results → ∀ anchor ∈ card.anchorsOf .output, ∃ value,
      results.get? anchor.id = some value

/-- A card that sets each of its outputs whenever it answers. -/
def Card.Complete (card : Card) : Prop :=
  ∀ run, card.work = .function run → ∀ arguments results, run arguments = .ok results →
    ∀ anchor ∈ card.anchorsOf .output, ∃ value, results.get? anchor.id = some value

namespace Card.Complete

variable {card : Card}

/-- A card that answers with its only output is complete. -/
theorem of_single {run : Values → Value} {name : String}
    (work : card.work =
      .function fun arguments => .ok ((∅ : Values).insert name (run arguments)))
    (outputs : ∀ anchor ∈ card.anchorsOf .output, anchor.id = name) : card.Complete := by
  intro other known arguments results answered anchor member
  rw [work] at known
  cases known
  cases answered
  exact ⟨run arguments, by
    rw [outputs anchor member, Std.ExtTreeMap.get?_eq_getElem?, Std.ExtTreeMap.getElem?_insert_self]⟩

theorem steady_eq (complete : card.Complete) : card.Steady (· = ·) where
  respects := by
    intro run _ first second same results answered
    obtain rfl := Values.related_eq_iff.mp same
    exact ⟨results, answered, Values.related_eq_iff.mpr rfl⟩
  complete := complete

end Card.Complete

/-- The same slots in the same order, with related values. -/
abbrev RelatedWrites (relation : Value → Value → Prop) (first second : List (Nat × Value)) : Prop :=
  List.Forall₂ (fun one two => one.1 = two.1 ∧ relation one.2 two.2) first second

variable {relation : Value → Value → Prop}

private theorem related_lookup {first second : List (Nat × Value)}
    (same : RelatedWrites relation first second) (slot : Nat) :
    Option.Rel relation (first.lookup slot) (second.lookup slot) := by
  induction same with
  | nil => exact .none
  | @cons one two _ _ head _ ih =>
      obtain ⟨key, value⟩ := one
      obtain ⟨key', other⟩ := two
      obtain ⟨rfl, related⟩ : key = key' ∧ relation value other := head
      rw [List.lookup_cons, List.lookup_cons]
      split
      · exact .some related
      · exact ih

/-- Related writes leave related values where something is written, and elsewhere where they were
related before. -/
theorem Board.related_writeAll {first second : Board} {one two : List (Nat × Value)}
    (same : RelatedWrites relation one two) {anchor : Anchor}
    (before : anchor.slot ∉ one.map Prod.fst →
      relation (first.read anchor) (second.read anchor)) :
    relation ((first.writeAll one).read anchor) ((second.writeAll two).read anchor) := by
  rw [read_writeAll, read_writeAll]
  have held := related_lookup (List.forall₂_reverse_iff.mpr same) anchor.slot
  cases left : one.reverse.lookup anchor.slot with
  | some value =>
      rw [left] at held
      revert held
      cases two.reverse.lookup anchor.slot with
      | none => rintro ⟨⟩
      | some other =>
          rintro ⟨related⟩
          exact related
  | none =>
      rw [left] at held
      revert held
      cases two.reverse.lookup anchor.slot with
      | some _ => rintro ⟨⟩
      | none =>
          intro _
          refine before fun member => ?_
          obtain ⟨write, inside, same⟩ := List.mem_map.mp member
          have absent := List.lookup_eq_none_iff.mp left write (List.mem_reverse.mpr inside)
          rw [same, bne_self_eq_false] at absent
          cases absent

namespace Card

variable {card : Card}

private theorem related_arguments {first second : Board}
    (reads : ∀ anchor ∈ card.anchorsOf .input,
      relation (first.read anchor) (second.read anchor))
    {one two : Option Values} (globals : (one.getD ∅).Related relation (two.getD ∅)) :
    (card.arguments none one first).Related relation (card.arguments none two second) := by
  refine Values.related_fill (Values.related_ofPairs ?_) globals
  rw [Values.RelatedPairs, List.forall₂_map_left_iff, List.forall₂_map_right_iff,
    List.forall₂_same]
  exact fun anchor member => ⟨rfl, reads anchor member⟩

private theorem related_written {first second : Values} (same : first.Related relation second) :
    RelatedWrites relation (card.written first) (card.written second) := by
  unfold written
  induction card.anchorsOf .output with
  | nil => exact .nil
  | cons anchor rest ih =>
      have here := same anchor.id
      rw [List.filterMap_cons, List.filterMap_cons, Std.ExtTreeMap.get?_eq_getElem?,
        Std.ExtTreeMap.get?_eq_getElem?]
      revert here
      cases first[anchor.id]? <;> cases second[anchor.id]? <;> rintro ⟨related⟩
      · exact ih
      · exact .cons ⟨rfl, related⟩ ih

private theorem exists_of_yields {arguments : Values} {writes : List (Nat × Value)}
    (yielded : card.yields arguments = some writes) :
    ∃ run results, card.work = .function run ∧ run arguments = .ok results ∧
      writes = card.written results := by
  unfold yields at yielded
  split at yielded
  · next run work =>
      cases answered : run arguments with
      | error message =>
          rw [answered] at yielded
          cases yielded
      | ok results =>
          rw [answered] at yielded
          exact ⟨run, results, work, answered, (Option.some.inj yielded).symm⟩
  · cases yielded

private theorem related_yields (steady : card.Steady relation) {first second : Values}
    (same : first.Related relation second) {writes : List (Nat × Value)}
    (yielded : card.yields first = some writes) :
    ∃ others, card.yields second = some others ∧ RelatedWrites relation writes others := by
  obtain ⟨run, results, work, answered, rfl⟩ := exists_of_yields yielded
  obtain ⟨others, answers, related⟩ :=
    steady.respects run work first second same results answered
  refine ⟨card.written others, ?_, related_written related⟩
  simp only [yields, work, answers]
  rfl

private theorem mem_slots_of_yields (steady : card.Steady relation) {arguments : Values}
    {writes : List (Nat × Value)} (yielded : card.yields arguments = some writes)
    {anchor : Anchor} (output : anchor ∈ card.anchorsOf .output) :
    anchor.slot ∈ writes.map Prod.fst := by
  obtain ⟨run, results, work, answered, rfl⟩ := exists_of_yields yielded
  obtain ⟨value, held⟩ := steady.complete run work arguments results answered anchor output
  refine List.mem_map.mpr ⟨(anchor.slot, value), List.mem_filterMap.mpr ⟨anchor, output, ?_⟩, rfl⟩
  rw [held, Option.map_some]

end Card

namespace Action

variable {action : Action} {first second : Board} {writes : List (Nat × Value)}

/-- Whether the inputs of the run are related for an action that takes them. -/
def RelatedInputs (relation : Value → Value → Prop) (action : Action) (first second : Board) :
    Prop :=
  ∀ card channel, action = .start card channel →
    (first.channel channel).inputs.Related relation (second.channel channel).inputs

/-- An action makes related writes on boards with related values at all that it reads. -/
theorem related_outcome (steady : ∀ card, action.card? = some card → card.Steady relation)
    (reads : ∀ anchor ∈ action.reads, relation (first.read anchor) (second.read anchor))
    (inputs : action.RelatedInputs relation first second)
    (done : action.outcome first = some writes) :
    ∃ others, action.outcome second = some others ∧ RelatedWrites relation writes others := by
  cases action with
  | split =>
      obtain rfl := Option.some.inj done
      exact ⟨_, rfl, .nil⟩
  | transfer source target =>
      obtain rfl := Option.some.inj done
      exact ⟨_, rfl, .cons ⟨rfl, reads source (List.mem_singleton_self source)⟩ .nil⟩
  | call card =>
      refine Card.related_yields (steady card rfl) (Card.related_arguments reads ?_) done
      exact fun name => by simp
  | start card channel =>
      refine Card.related_yields (steady card rfl) (Card.related_arguments reads ?_) done
      exact inputs card channel rfl
  | scripted slot failOn move => cases done

/-- An action that succeeds writes all that it may write. -/
theorem mem_slots_of_outcome (steady : ∀ card, action.card? = some card → card.Steady relation)
    (done : action.outcome first = some writes) {slot : Nat} (written : action.Writes slot) :
    slot ∈ writes.map Prod.fst := by
  obtain ⟨anchor, member, rfl⟩ := written
  cases action with
  | split => cases member
  | transfer source target =>
      obtain rfl := Option.some.inj done
      obtain rfl := List.mem_singleton.mp member
      exact List.mem_singleton_self _
  | call card => exact Card.mem_slots_of_yields (steady card rfl) done member
  | start card channel => exact Card.mem_slots_of_yields (steady card rfl) done member
  | scripted slot failOn move => cases member

end Action

/-! ## Traces -/

namespace Circuit

/-- Two boards in the middle of a play: values are related once they are filled, and where the
trace fills nothing. -/
structure Abreast (net : Circuit) (cards : List Card) (channel : Nat)
    (relation : Value → Value → Prop) (trace done : List String) (first second : Board) :
    Prop where
  inputs : (first.channel channel).inputs.Related relation (second.channel channel).inputs
  values : ∀ card ∈ cards, ∀ slot ∈ card.anchors,
    ((∃ other ∈ done, net.Joins other (card.anchorPlace slot)) ∨
      ∀ other ∈ trace, ¬net.Joins other (card.anchorPlace slot)) →
    relation (first.read slot) (second.read slot)

/-- Playing transitions leaves the anchors alone that none of them writes. -/
theorem Functional.read_playAll {net : Circuit} (functional : net.Functional) {trace : List String}
    {board after : Board} (played : net.playAll trace board = some after) {anchor : Anchor}
    (unwritten : ∀ transition ∈ trace, ∀ action,
      net.transitions.get? transition = some action → ¬action.Writes anchor.slot) :
    after.read anchor = board.read anchor := by
  induction trace generalizing board with
  | nil =>
      cases played
      rfl
  | cons transition rest ih =>
      rw [playAll_cons] at played
      obtain ⟨next, here, others⟩ := Option.bind_eq_some_iff.mp played
      obtain ⟨action, found, acted⟩ := Option.bind_eq_some_iff.mp here
      rw [ih others fun other inside => unwritten other (List.mem_cons_of_mem _ inside)]
      refine Action.read_play (functional _ _ found) acted fun other written same => ?_
      exact unwritten transition List.mem_cons_self action found ⟨other, written, same⟩

namespace Draws

variable {net : Circuit} {cards : List Card} {connections laid : List Connection} {channel : Nat}
  {trace done rest : List String} {transition : String} {first second after : Board}

/-- An anchor that the transitions of a trace do not fill keeps its value. -/
theorem read_playAll (draws : net.Draws cards connections channel laid)
    (distinct : DistinctNames cards connections) (slots : DistinctSlots cards)
    (functions : ∀ card ∈ cards, ∃ run, card.work = .function run) {card : Card} {slot : Anchor}
    (known : card ∈ cards) (member : slot ∈ card.anchors)
    (unfilled : ∀ other ∈ trace, ¬net.Joins other (card.anchorPlace slot))
    (played : net.playAll trace first = some after) : after.read slot = first.read slot := by
  have functional : net.Functional := fun id action => draws.functional functions
  refine functional.read_playAll played fun transition inside action found written => ?_
  exact unfilled transition inside ((draws.writes_iff distinct slots found known member).mp written)

/-- A transition of a fed trace that succeeds on one of two boards that are abreast succeeds on
the other, and they stay abreast. -/
theorem play_abreast (draws : net.Draws cards connections channel laid)
    (distinct : DistinctNames cards connections) (slots : DistinctSlots cards)
    (functions : ∀ card ∈ cards, ∃ run, card.work = .function run)
    (steady : ∀ card ∈ cards, card.Steady relation) (fed : net.Fed trace)
    (split : trace = done ++ transition :: rest)
    (abreast : net.Abreast cards channel relation trace done first second)
    (played : net.play transition first = some after) :
    ∃ again, net.play transition second = some again ∧
      net.Abreast cards channel relation trace (done ++ [transition]) after again := by
  obtain ⟨action, found, acted⟩ := Option.bind_eq_some_iff.mp played
  have functional := draws.functional functions found
  rw [Action.play_eq functional] at acted
  obtain ⟨writes, outcome, rfl⟩ := Option.map_eq_some_iff.mp acted
  have called : ∀ card, action.card? = some card → card.Steady relation := by
    rcases draws.transition_cases found with
      ⟨card, known, rfl, rfl⟩ | ⟨_, _, _, _, rfl, rfl⟩ | ⟨_, _, _, _, rfl, rfl⟩
    · rintro _ same
      rw [Card.card?_action] at same
      exact Option.some.inj same ▸ steady card known
    · rintro _ ⟨⟩
    · rintro _ ⟨⟩
  have inputs : action.RelatedInputs relation first second := by
    rintro card source rfl
    rcases draws.transition_cases found with
      ⟨card, known, rfl, same⟩ | ⟨_, _, _, _, rfl, same⟩ | ⟨_, _, _, _, rfl, same⟩
    · unfold Card.action at same
      split at same <;> cases same
      exact abreast.inputs
    · cases same
    · cases same
  obtain ⟨others, answers, related⟩ := Action.related_outcome called (fun slot read => by
    obtain ⟨card, known, member, supplies⟩ := draws.supplies distinct found read
    exact abreast.values card known slot member (fed done transition rest split _ supplies))
    inputs outcome
  refine ⟨action.count (second.writeAll others), ?_, ?_, fun card known slot member filled => ?_⟩
  · rw [play, found, Option.bind_some, Action.play_eq functional, answers, Option.map_some]
  · rw [Action.channel_count, Action.channel_count]
    exact abreast.inputs
  · rw [Action.read_count, Action.read_count]
    refine Board.related_writeAll related fun unwritten => ?_
    refine abreast.values card known slot member (filled.imp_left ?_)
    rintro ⟨other, inside, joined⟩
    rcases List.mem_append.mp inside with before | last
    · exact ⟨other, before, joined⟩
    · obtain rfl := List.mem_singleton.mp last
      exact (unwritten (Action.mem_slots_of_outcome called outcome
        ((draws.writes_iff distinct slots found known member).mpr joined))).elim

/-- A fed trace that succeeds on a board succeeds on every board with related values where the
trace fills nothing, and leaves related values everywhere. -/
theorem replay (draws : net.Draws cards connections channel laid)
    (distinct : DistinctNames cards connections) (slots : DistinctSlots cards)
    (functions : ∀ card ∈ cards, ∃ run, card.work = .function run)
    (steady : ∀ card ∈ cards, card.Steady relation) (fed : net.Fed trace)
    (abreast : net.Abreast cards channel relation trace [] first second)
    (played : net.playAll trace first = some after) :
    ∃ again, net.playAll trace second = some again ∧
      ∀ card ∈ cards, ∀ slot ∈ card.anchors, relation (after.read slot) (again.read slot) := by
  -- What is left to be played, behind what is done.
  have onward : ∀ (rest done : List String) (first second : Board), trace = done ++ rest →
      net.Abreast cards channel relation trace done first second →
      net.playAll rest first = some after →
      ∃ again, net.playAll rest second = some again ∧
        net.Abreast cards channel relation trace trace after again := by
    intro rest
    induction rest with
    | nil =>
        intro done first second split abreast played
        obtain rfl := Option.some.inj played
        rw [List.append_nil] at split
        exact ⟨second, rfl, split ▸ abreast⟩
    | cons transition rest ih =>
        intro done first second split abreast played
        rw [playAll_cons] at played
        obtain ⟨next, one, others⟩ := Option.bind_eq_some_iff.mp played
        obtain ⟨again, two, still⟩ :=
          draws.play_abreast distinct slots functions steady fed split abreast one
        obtain ⟨last, replayed, whole⟩ :=
          ih (done ++ [transition]) next again (by rw [split, List.append_cons]) still others
        exact ⟨last, by rw [playAll_cons, two, Option.bind_some, replayed], whole⟩
  obtain ⟨again, replayed, whole⟩ := onward trace [] first second rfl abreast played
  refine ⟨again, replayed, fun card known slot member => whole.values card known slot member ?_⟩
  by_cases filled : ∃ other ∈ trace, net.Joins other (card.anchorPlace slot)
  · exact .inl filled
  · exact .inr fun other inside joined => filled ⟨other, inside, joined⟩

end Draws

end Circuit

end CardNet
