import CardNet.Proofs.Engine.Accordance
import CardNet.Proofs.Engine.MemoizedAnswers

/-!
# Inputs during runs

While a run is under way, values may be set on the entries of its graph. Later runs take them into
account, unless the run had looked at the entry before and is recorded after: then what is recorded
names the new value among that on which the outputs depend, but has the outputs of the old one. In all
other cases a run that is answered from the records is answered like one that is forced
(`Machine.recorded_answers_take_inputs`).
-/

namespace CardNet

variable {cards : List Card} {connections : List Connection}

namespace Session

variable {session : Session} {graph : Graph} {inputs : Values}

/-- A run that is not answered from the records goes as if it were forced. -/
theorem exec_eq_forced (held : session.engine.graph = some graph)
    (fresh : session.engine.answers graph inputs false = false) :
    session.exec inputs false = session.exec inputs true := by
  have forced : session.engine.answers graph inputs true = false := rfl
  rw [exec, exec, run, run, Engine.opening_fresh held fresh, Engine.opening_fresh held forced]

end Session

namespace Machine

/-- The session of the engine of a machine, when no worker uses it. -/
def session (machine : Machine) : Session := ⟨machine.engine, machine.scheduler.tally⟩

/-- After runs that were called for and values that were set on entries in whatever order, a run that is
not forced answers like one that is forced, if nobody is in a run, and if all that the last recorded run
had found on entries still held when it was recorded. When the memo differs from what the run depends on
at most in the sign of zeros, the outputs agree, provided that no card tells values that agree apart. -/
theorem recorded_answers_take_inputs (distinct : DistinctNames cards connections)
    (quiet : Eventless cards connections) (slots : DistinctSlots cards)
    (functions : ∀ card ∈ cards, ∃ run, card.work = .function run)
    (complete : ∀ card ∈ cards, card.Complete) {first last : Machine}
    (rest : first.AtRest cards connections) {watch : Watch}
    (interleaves : first.Interleaves last watch) (faithful : watch.Faithful)
    (resting : last.Resting) {graph : Graph} (held : last.engine.graph = some graph)
    (inputs : Values) :
    ((∀ memo, last.engine.records.memo = some memo →
        memo.agrees ((Bench.mk graph last.engine.board).memoKey
          (graph.mergeGlobals last.engine.board inputs)) = true →
        memo = (Bench.mk graph last.engine.board).memoKey
          (graph.mergeGlobals last.engine.board inputs)) →
      (last.session.exec inputs false).1 = (last.session.exec inputs true).1) ∧
    ((∀ card ∈ cards, card.Agreeable) →
      (last.session.exec inputs false).1 = (last.session.exec inputs true).1 ∨
        ∃ outputs again, (last.session.exec inputs false).1 = .ok outputs ∧
          (last.session.exec inputs true).1 = .ok again ∧ outputs.agrees again = true) := by
  obtain ⟨start, present, -⟩ := id rest.settled
  have accords := interleaves.accords ⟨distinct, quiet, slots, functions⟩ rest present
  have settled : last.session.engine.Settled cards connections :=
    (accords.resting resting).settled faithful
  cases answers : last.session.engine.answers graph inputs false with
  | false =>
      have same := Session.exec_eq_forced held answers
      exact ⟨fun _ => by rw [same], fun _ => .inl (by rw [same])⟩
  | true =>
      have unforced : (last.session.exec inputs false).1 = .ok last.engine.records.outputs := by
        rw [Session.exec_recorded held answers]
        rfl
      obtain ⟨identical, agreeing⟩ :=
        Session.forced_of_settled settled distinct slots functions complete held answers
      refine ⟨fun alike => ?_, fun agreeable => ?_⟩
      · rw [unforced]
        refine (identical ?_).symm
        unfold Engine.answers Engine.remembers at answers
        rw [Bool.not_false, Bool.true_and] at answers
        split at answers
        · next memo same => exact same.trans (congrArg some (alike memo same answers))
        · cases answers
      · obtain ⟨again, ran, agree⟩ := agreeing agreeable
        exact .inr ⟨_, again, unforced, ran, agree⟩

end Machine

/-! ## An input that a run takes in, and one that comes too late -/

/-- Whether two values are one text. -/
def Value.sameText : Value → Value → Bool
  | .text one, .text two => one == two
  | _, _ => false

theorem Value.eq_of_sameText {one two : Value} (same : one.sameText two = true) : one = two := by
  unfold sameText at same
  split at same
  · exact congrArg Value.text (eq_of_beq same)
  · cases same

/-- Named texts that agree are the same. -/
theorem Values.eq_of_agrees {first second : Values} (agree : first.agrees second = true)
    (texts : second.toList.all (fun entry => entry.2.sameText entry.2) = true) :
    first = second := by
  refine related_eq_iff.mp (related_iff_toList.mpr ?_)
  rw [agrees, Value.agreesFields_iff] at agree
  refine List.forall₂_iff_get.mpr ⟨agree.length_eq, fun index left right => ?_⟩
  obtain ⟨name, same⟩ := agree.get left right
  have text := List.all_eq_true.mp texts _ (List.get_mem _ ⟨index, right⟩)
  refine ⟨name, ?_⟩
  revert same text
  cases (second.toList.get ⟨index, right⟩).2 <;> cases (first.toList.get ⟨index, left⟩).2 <;>
    simp [Value.agrees, Value.sameText]

namespace Late

/-- The values of the arguments of a card. -/
def listed (arguments : Values) : Value := .list (arguments.toList.map Prod.snd)

def seated : List Card × Board :=
  Board.empty.seatAll [.single "a" ["in"] listed, .single "b" ["in", "y"] listed]

/-- A connection, which leaves each of the two cards an entry. -/
def config : GraphConfig := ⟨"late", [⟨⟨"a", "out"⟩, ⟨"b", "in"⟩⟩]⟩

theorem feedForward : FeedForward seated.1 config.connections := by
  refine .of_lists (fun card => if card.id = "a" then 0 else 1)
    (by decide +kernel) ?_ (by decide +kernel) (by decide +kernel) (by decide +kernel)
    (by decide +kernel) (by decide +kernel) (by decide +kernel) (by decide +kernel)
  intro card member
  simp only [seated, Board.seatAll, Board.seat, CardDesign.single, List.mem_cons,
    List.not_mem_nil, or_false] at member
  rcases member with rfl | rfl <;> exact ⟨_, rfl⟩

/-- The graph has been built, and its entries have been given values. -/
def session : Session :=
  let built := ((Session.idle .standard seated.2).build config seated.1 none).2
  ((built.setInput "place_a_in" (.text "old")).2.setInput "place_b_y" (.text "old")).2

def first : Machine := .ofEngine session.engine

theorem atRest : first.AtRest seated.1 config.connections := by
  have history : Session.History seated.1 config.connections session :=
    ((Session.History.of_build (fun _ known => known) (by decide +kernel)).of_input
      (by decide +kernel) _).of_input (by decide +kernel) _
  exact Machine.atRest_ofEngine
    (history.settled feedForward.names feedForward.eventless feedForward.slots feedForward.functions)

/-- Caller one runs the graph. When `a` has fired and `b` has not, caller two sets a value on an
entry, and then the run goes on. -/
def incidents (place : String) : List Incident :=
  let steps := List.map Incident.step
  .call (.exec ∅ false) :: steps ([1, 1, 1, 1, 1, 0, 0, 0, 1, 1, 0, 0, 0, 1, 1, 0, 0, 0, 0, 1, 1] ++
      [0, 0, 0, 1, 1]) ++
    .call (.setInput place (.text "new")) ::
    steps ([2, 2, 1, 1, 0, 0, 0, 2, 0, 0, 0, 0, 1, 1, 0, 0, 0, 0, 1, 1, 0, 0, 0, 1, 1, 0, 0, 0, 0] ++
      [1, 1, 1, 1, 0, 0, 0, 1, 1, 0, 0, 0, 1, 1, 0, 0, 0, 1, 1, 0, 0, 0, 1, 1, 1, 1])

/-- How this ends, and what is seen of it. -/
def ends (place : String) : Option (Machine × Watch) :=
  first.unfold Machine.admits Watch.after .blank (incidents place)


end Late

namespace Machine

/-- The value that `b` was given before it fired is among what the records hold of the run. -/
theorem recorded_answers_take_inputs_late : ∃ last watch graph,
    DistinctNames Late.seated.1 Late.config.connections ∧
    Eventless Late.seated.1 Late.config.connections ∧ DistinctSlots Late.seated.1 ∧
    (∀ card ∈ Late.seated.1, ∃ run, card.work = .function run) ∧
    (∀ card ∈ Late.seated.1, card.Complete) ∧
    Late.first.AtRest Late.seated.1 Late.config.connections ∧
    Late.first.Interleaves last watch ∧ watch.Faithful ∧ last.Resting ∧
    last.engine.graph = some graph ∧ last.engine.answers graph ∅ false = true ∧
    (last.session.exec ∅ false).1 = (last.session.exec ∅ true).1 ∧
    (last.session.exec ∅ true).1.toOption.map Values.texts =
      some [("b_out", "[[\"old\"],\"new\"]")] := by
  have complete : ∀ card ∈ Late.seated.1, card.Complete := by
    intro card member
    simp only [Late.seated, Board.seatAll, Board.seat, CardDesign.single, List.mem_cons,
      List.not_mem_nil, or_false] at member
    rcases member with rfl | rfl <;> exact .of_single rfl (by decide)
  have ran : (Late.ends "place_b_y").any (fun ends =>
      ends.2.last.all (fun found => (ends.2.board.read found.1).sameText found.2) &&
      ends.1.workers.toList.all (fun entry => !entry.2.run?.any RunStage.isOpen) &&
      ends.1.engine.graph.any (fun graph => ends.1.engine.answers graph ∅ false &&
        (Bench.mk graph ends.1.engine.board).entryValues.toList.all
          (fun entry => entry.2.sameText entry.2) &&
        (graph.mergeGlobals ends.1.engine.board ∅).isEmpty) &&
      (ends.1.session.exec ∅ true).1.toOption.map Values.texts ==
        some [("b_out", "[[\"old\"],\"new\"]")]) = true := by decide +kernel
  obtain ⟨⟨last, watch⟩, ended, ran⟩ := (Option.any_eq_true _ _).mp ran
  simp only [Bool.and_eq_true, beq_iff_eq, Option.any_eq_true] at ran
  obtain ⟨⟨⟨held, closed⟩, graph, present, ⟨answers, texts⟩, bare⟩, forced⟩ := ran
  have interleaves : Late.first.Interleaves last watch := Unfolds.start.extend ended
  have faithful : watch.Faithful := fun found member =>
    Value.eq_of_sameText (List.all_eq_true.mp held found member)
  have resting := resting_of_all closed
  obtain ⟨same, -⟩ := recorded_answers_take_inputs Late.feedForward.names Late.feedForward.eventless
    Late.feedForward.slots Late.feedForward.functions complete Late.atRest interleaves faithful
    resting present ∅
  refine ⟨last, watch, graph, Late.feedForward.names, Late.feedForward.eventless,
    Late.feedForward.slots, Late.feedForward.functions, complete, Late.atRest, interleaves, faithful,
    resting, present, answers, same fun memo _ agree => ?_, forced⟩
  rw [MemoKey.agrees, Bool.and_eq_true] at agree
  exact congrArg₂ MemoKey.mk (Values.eq_of_agrees agree.1 texts)
    (Values.eq_of_agrees agree.2 (by rw [Std.ExtTreeMap.isEmpty_iff.mp bare]; rfl))

/-- A value that is set when `a` has fired is lost on the run, but not on what the records say that
its outputs depend on. -/
theorem recorded_answers_miss_inputs : ∃ last watch,
    Late.first.AtRest Late.seated.1 Late.config.connections ∧
    Late.first.Interleaves last watch ∧ last.Resting ∧
    (∃ answer, last.answer? 2 = some (.ok answer)) ∧
    (last.session.exec ∅ false).1.toOption.map Values.texts =
      some [("b_out", "[[\"old\"],\"old\"]")] ∧
    (last.session.exec ∅ true).1.toOption.map Values.texts =
      some [("b_out", "[[\"new\"],\"old\"]")] := by
  have ran : (Late.ends "place_a_in").any (fun ends =>
      ends.1.workers.toList.all (fun entry => !entry.2.run?.any RunStage.isOpen) &&
      (ends.1.answer? 2).any (fun result => result.toOption.isSome) &&
      (ends.1.session.exec ∅ false).1.toOption.map Values.texts ==
        some [("b_out", "[[\"old\"],\"old\"]")] &&
      (ends.1.session.exec ∅ true).1.toOption.map Values.texts ==
        some [("b_out", "[[\"new\"],\"old\"]")]) = true := by decide +kernel
  obtain ⟨⟨last, watch⟩, ended, ran⟩ := (Option.any_eq_true _ _).mp ran
  simp only [Bool.and_eq_true, beq_iff_eq, Option.any_eq_true] at ran
  obtain ⟨⟨⟨closed, result, answered, fine⟩, unforced⟩, forced⟩ := ran
  refine ⟨last, watch, Late.atRest, Unfolds.start.extend ended, resting_of_all closed, ?_, unforced,
    forced⟩
  cases result with
  | ok answer => exact ⟨answer, answered⟩
  | error failure => cases fine

end Machine

end CardNet
