import CardNet.Proofs.Engine.Courses
import CardNet.Proofs.Engine.Replay

/-!
# Running again

A run that is forced when the records could answer goes the course of the run that was recorded,
on values that are related to those of that run wherever they matter (`Engine.Remembered`). So it
succeeds, and its outputs are related to the recorded ones (`Session.exec_remembered`).
-/

namespace CardNet

variable {cards : List Card} {connections laid : List Connection} {channel : Nat}
  {relation : Value → Value → Prop}

/-! ## Courses -/

namespace Graph

variable {graph : Graph} {settings : EngineConfig} {trace : List String}

/-- The course of a run depends on the mode and the circuit of the graph. -/
theorem Course.congr (course : graph.Course settings trace) {other : Graph}
    (mode : other.mode = graph.mode) (net : other.net = graph.net) :
    other.Course settings trace := by
  unfold Course at course ⊢
  rw [mode, net]
  exact course

/-- In the course of a run each place is filled before anything is taken from it. -/
theorem Course.fed (course : graph.Course settings trace)
    (draws : graph.net.Draws cards connections channel laid) (seeded : graph.net.Seeded) :
    graph.net.Fed trace := by
  unfold Course at course
  split at course
  · exact draws.plain.fed seeded course.1.fireable
  · obtain ⟨order, found, rfl, -⟩ := course
    exact (Net.regionOrder_spec draws.plain draws.nodup_nodes found).fed
      (fun _ _ joined => (draws.joins_spec joined).1) fun _ _ joined => (draws.joins_spec joined).2

/-- A run leaves events on their places. -/
theorem Course.tokens_event (course : graph.Course settings trace)
    (draws : graph.net.Draws cards connections channel laid)
    (distinct : DistinctNames cards connections) {place : String}
    (known : place ∈ graph.net.places.names) (events : graph.net.collectsEvents place = true) :
    (graph.spent trace).tokens place = graph.net.tokens place := by
  unfold Course at course
  unfold spent
  split at course
  · have count := draws.plain.tokens_firedAll course.1.fireable known
    rw [List.countP_eq_zero.mpr fun other _ joined =>
        (draws.not_joins_event distinct events other).1 (of_decide_eq_true joined),
      List.countP_eq_zero.mpr fun other _ joined =>
        (draws.not_joins_event distinct events other).2 (of_decide_eq_true joined)] at count
    exact count
  · rfl

/-- A graph that has gone a course goes it again when it is opened again. -/
theorem Course.reopened {bench : Bench} {inputs : Values}
    (course : (bench.opened inputs).graph.Course settings trace)
    (draws : bench.graph.net.Draws cards connections channel laid)
    (distinct : DistinctNames cards connections) (board : Board) (others : Values) :
    ((Bench.mk { bench.graph with net := (bench.opened inputs).graph.spent trace } board).opened
      others).graph.Course settings trace := by
  have bare := bench.bare_opened inputs
  have left : ((bench.opened inputs).graph.spent trace).bare = bench.graph.net.bare :=
    (bare_spent ..).trans bare
  refine course.congr (by rw [Bench.graph_opened, Bench.graph_opened]) (Net.eq_of_tokens ?_ ?_)
  · rw [Bench.bare_opened]
    exact left.trans bare.symm
  · intro place known
    rw [Net.placeNames_of_bare (Bench.bare_opened _ _)] at known
    have before : place ∈ bench.graph.net.places.names := Net.placeNames_of_bare left ▸ known
    rw [Bench.tokens_opened _ _ known, Bench.tokens_opened _ _ before]
    change (if ((bench.opened inputs).graph.spent trace).collectsEvents place then _ else
      if place ∈ ((bench.opened inputs).graph.spent trace).entryPlaces then 1 else 0) = _
    rw [Circuit.collectsEvents_of_bare left, Net.entryPlaces_of_bare left]
    split
    · next events =>
        have kept := course.tokens_event (draws.of_bare bare.symm) distinct
          (Net.placeNames_of_bare bare ▸ before) (by rwa [Circuit.collectsEvents_of_bare bare])
        refine kept.trans ?_
        rw [Bench.tokens_opened _ _ before, if_pos events]
    · rfl

end Graph

/-! ## Entries and outputs -/

namespace Bench

variable {bench : Bench}

/-- The value by which a change of the entry place of an anchor is noticed is that of the
anchor. -/
theorem getElem?_entryValues (bench : Bench)
    (draws : bench.graph.net.Draws cards connections channel laid)
    {card : Card} {slot : Anchor} (known : card ∈ cards) (member : slot ∈ card.anchors)
    (entry : card.anchorPlace slot ∈ bench.graph.net.entryPlaces) :
    bench.entryValues[card.anchorPlace slot]? = some (bench.board.read slot) := by
  have shown := draws.content?_anchorPlace known member
  refine Values.getElem?_ofPairs ?_ (List.mem_map.mpr ⟨(card.anchorPlace slot, _),
    List.mem_filterMap.mpr ⟨_, entry, by rw [shown]; rfl⟩, ?_⟩)
  · rw [List.map_map]
    refine (Circuit.contentsOf_sublist _ bench.graph.net.entryPlaces).nodup ?_
    exact bench.graph.net.places.nodup_names.filter _
  · refine Prod.ext rfl ?_
    dsimp only
    split <;> rfl

/-- What a run depends on is settled by the values of the anchors and the records of the cards. -/
theorem memoKey_congr (draws : bench.graph.net.Draws cards connections channel laid) {other : Board}
    (records : bench.board.records = other.records)
    (values : ∀ card ∈ cards, ∀ slot ∈ card.anchors, bench.board.read slot = other.read slot)
    (inputs : Values) : bench.memoKey inputs = (Bench.mk bench.graph other).memoKey inputs := by
  refine congrArg (MemoKey.mk · inputs) (congrArg Values.ofPairs ?_)
  refine List.map_congr_left fun pair member => Prod.ext rfl ?_
  obtain ⟨id, -, shown⟩ := List.mem_filterMap.mp member
  obtain ⟨content, found, rfl⟩ := Option.map_eq_some_iff.mp shown
  cases content with
  | anchor card slot | event card slot =>
      obtain ⟨owner, known, inside, -⟩ := draws.anchor_of_content found rfl
      exact values owner known slot inside
  | trigger card =>
      have known := draws.card_of_trigger found
      have gathered : card.gather bench.board = card.gather other :=
        congrArg Values.ofPairs (List.map_congr_left fun slot inside =>
          Prod.ext rfl (values card known slot (List.mem_of_mem_filter inside)))
      simp only [Content.observed, Card.runtimeInput, Board.record, records, gathered]
  | relay => rfl

/-- Benches with the same circuit and related values have related outputs. -/
theorem related_outputs {other : Bench} (same : bench.graph.net.bare = other.graph.net.bare)
    (values : ∀ id content, bench.graph.net.content? id = some content → ∀ slot,
      content.anchor? = some slot → relation (bench.board.read slot) (other.board.read slot)) :
    bench.outputs.Related relation other.outputs := by
  simp only [outputs, Circuit.contentsOf]
  rw [← Net.content?_of_bare same, ← Net.exitPlaces_of_bare same]
  refine Values.related_ofPairs ?_
  rw [List.filterMap_filterMap, List.filterMap_filterMap]
  induction bench.graph.net.exitPlaces with
  | nil => exact .nil
  | cons id rest ih =>
      rw [List.filterMap_cons, List.filterMap_cons]
      cases found : bench.graph.net.content? id with
      | none => exact ih
      | some content =>
          cases content with
          | anchor card slot => exact .cons ⟨rfl, values id _ found slot rfl⟩ ih
          | event card slot => exact ih
          | trigger card => exact ih
          | relay => exact ih

end Bench

/-! ## What is recorded -/

namespace Engine

/-- What an engine has recorded is what a run over a trace left behind, from one board to another;
since then nothing but values of entries has changed, and a run that is opened now goes the same
course. -/
structure Remembered (engine : Engine) (graph : Graph) (cards : List Card) (inputs : Values)
    (trace : List String) (start finish : Board) : Prop where
  memo : engine.records.memo = some ((Bench.mk graph finish).memoKey inputs)
  outputs : engine.records.outputs = (Bench.mk graph finish).outputs
  course : ∀ board merged, ((Bench.mk graph board).opened merged).graph.Course engine.config trace
  played : graph.net.playAll trace start = some finish
  inputs : (start.channel graph.channel).inputs = inputs
  defaults : ∀ card ∈ cards, ∀ slot ∈ card.anchors, ∀ value, slot.default = some value →
    start.read slot = value
  kept : ∀ card ∈ cards, ∀ slot ∈ card.anchors,
    card.anchorPlace slot ∉ graph.net.entryPlaces → engine.board.read slot = finish.read slot

variable {engine : Engine} {graph : Graph} {inputs : Values} {trace : List String}
  {start finish : Board}

/-- Where the trace fills nothing, a run that is opened now finds values that are related to those
that the recorded run found, if the values of entries are. -/
theorem Remembered.abreast (remembered : engine.Remembered graph cards inputs trace start finish)
    (reflexive : ∀ value, relation value value) (ready : graph.Ready cards connections laid)
    (distinct : DistinctNames cards connections) (slots : DistinctSlots cards)
    (functions : ∀ card ∈ cards, ∃ run, card.work = .function run) {given : Values}
    (entries : (Bench.mk graph finish).entryValues.Related relation
      (Bench.mk graph engine.board).entryValues)
    (supplied : inputs.Related relation (graph.mergeGlobals engine.board given)) :
    graph.net.Abreast cards graph.channel relation trace [] start
      (engine.opened graph given).board where
  inputs := by
    rw [remembered.inputs, Engine.opened,
      Bench.inputs_opened (Bench.mk graph engine.board) (graph.mergeGlobals engine.board given)]
    exact supplied
  values := by
    intro card known slot member filled
    have unfilled := filled.resolve_left (by simp)
    rw [Engine.opened, Bench.read_opened ready.draws slots known
      member]
    cases default : slot.default with
    | some value =>
        rw [remembered.defaults card known slot member value default]
        exact reflexive value
    | none =>
        rw [← ready.draws.read_playAll distinct slots functions known member unfilled
          remembered.played]
        by_cases entry : card.anchorPlace slot ∈ graph.net.entryPlaces
        · have before := Bench.getElem?_entryValues ⟨graph, finish⟩ ready.draws known
            member entry
          have now := Bench.getElem?_entryValues ⟨graph, engine.board⟩ ready.draws
            known member entry
          obtain ⟨value, held, related⟩ := entries.exists_right before
          rw [now] at held
          obtain rfl := Option.some.inj held
          exact related
        · rw [← remembered.kept card known slot member entry]
          exact reflexive _

end Engine

namespace Session

variable {session : Session} {graph : Graph} {inputs : Values} {trace : List String}
  {start finish : Board}

/-- A run that is forced succeeds when the values of entries and the inputs are related to those
of the recorded run, and its outputs are related to the recorded ones. -/
theorem exec_remembered (relation : Value → Value → Prop)
    (held : session.engine.graph = some graph)
    (remembered : session.engine.Remembered graph cards inputs trace start finish)
    (reflexive : ∀ value, relation value value) (ready : graph.Ready cards connections laid)
    (distinct : DistinctNames cards connections) (slots : DistinctSlots cards)
    (functions : ∀ card ∈ cards, ∃ run, card.work = .function run)
    (steady : ∀ card ∈ cards, card.Steady relation) {given : Values}
    (entries : (Bench.mk graph finish).entryValues.Related relation
      (Bench.mk graph session.engine.board).entryValues)
    (supplied : inputs.Related relation (graph.mergeGlobals session.engine.board given)) :
    ∃ outputs, (session.exec given true).1 = .ok outputs ∧
      session.engine.records.outputs.Related relation outputs := by
  have bare := session.engine.bare_opened graph given
  have course := remembered.course session.engine.board (graph.mergeGlobals session.engine.board given)
  have seeded : (session.engine.opened graph given).graph.net.Seeded :=
    Bench.seeded_opened ready.draws distinct
  have fed : graph.net.Fed trace :=
    (course.fed (ready.draws.of_bare bare.symm) seeded).of_bare bare
  obtain ⟨board, replayed, related⟩ := ready.draws.replay distinct slots functions steady fed
    (remembered.abreast reflexive ready distinct slots functions entries supplied)
    remembered.played
  have forced : session.engine.answers graph given true = false := rfl
  obtain ⟨after, ran, -, -⟩ := exec_of_course held ready.compiled
    (fun id action => ready.draws.functional functions) forced course replayed
  refine ⟨_, congrArg Prod.fst ran, ?_⟩
  rw [remembered.outputs]
  refine Bench.related_outputs
    (((Graph.bare_spent _ trace).trans bare).symm) fun id content found slot shows => ?_
  obtain ⟨card, known, member, -⟩ := ready.draws.anchor_of_content found shows
  exact related card known slot member

end Session

end CardNet
