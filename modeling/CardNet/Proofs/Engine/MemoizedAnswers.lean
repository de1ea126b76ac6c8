import CardNet.Card.Operation
import CardNet.Proofs.Engine.FeedForwardRuns
import CardNet.Proofs.Engine.Histories

/-!
# Answers from the records

A run that is answered from the records changes nothing, and it is answered with what a forced run
would answer (`Session.recorded_answers_hold`): with the same outputs when it depends on the same
values as the recorded run, and with outputs that agree when it depends on values that agree and
no card tells values that agree apart. The graph may have cycles and several connections into one
input.
-/

namespace CardNet

/-- A card that answers arguments that agree with results that agree. -/
def Card.Agreeable (card : Card) : Prop :=
  ∀ run, card.work = .function run → ∀ first second : Values, first.agrees second = true →
    ∀ results, run first = .ok results →
      ∃ others, run second = .ok others ∧ results.agrees others = true

theorem MemoKey.agrees_refl (key : MemoKey) : key.agrees key = true := by
  rw [agrees, Values.agrees_iff.mpr (.refl Value.agrees_refl _),
    Values.agrees_iff.mpr (.refl Value.agrees_refl _), Bool.and_self]

namespace Card

variable {card : Card}

theorem Complete.steady_agrees (complete : card.Complete) (agreeable : card.Agreeable) :
    card.Steady fun one two => one.agrees two = true where
  respects := by
    intro run work first second same results answered
    obtain ⟨others, answers, agree⟩ :=
      agreeable run work first second (Values.agrees_iff.mpr same) results answered
    exact ⟨others, answers, Values.agrees_iff.mp agree⟩
  complete := complete

end Card

namespace Engine.Recorded

variable {engine : Engine} {bench : Bench} {inputs : Values}

/-- What a run has recorded is what a run with the same inputs depends on, unless globals are
supplied. -/
theorem memo_eq (recorded : engine.Recorded bench inputs)
    (globals : bench.graph.suppliesGlobals = false) :
    engine.records.memo = some ((Bench.mk bench.graph engine.board).memoKey
      (bench.graph.mergeGlobals engine.board inputs)) := by
  rw [recorded.memo, recorded.board, Graph.mergeGlobals, Graph.globals?, globals]
  rfl

theorem answers (recorded : engine.Recorded bench inputs)
    (globals : bench.graph.suppliesGlobals = false) :
    engine.answers bench.graph inputs false = true := by
  rw [Engine.answers, remembers, recorded.memo_eq globals]
  exact MemoKey.agrees_refl _

end Engine.Recorded

namespace Session

variable {cards : List Card} {connections : List Connection} {session : Session} {graph : Graph}
  {inputs outputs : Values}

private theorem answers_of_opening {engine : Engine} (held : session.engine.graph = some graph)
    (recorded : session.engine.opening inputs false = (.ok (.recorded outputs), engine)) :
    session.engine.answers graph inputs false = true ∧
      outputs = session.engine.records.outputs := by
  cases answers : session.engine.answers graph inputs false with
  | false =>
      exact (Engine.opening_ne_recorded held answers outputs (congrArg Prod.fst recorded)).elim
  | true =>
      rw [Engine.opening_recorded held answers] at recorded
      cases recorded
      exact ⟨rfl, rfl⟩

/-- A session that would be answered from the records of the last run, with what a forced run has. -/
theorem forced_of_settled (settled : session.engine.Settled cards connections)
    (distinct : DistinctNames cards connections) (slots : DistinctSlots cards)
    (functions : ∀ card ∈ cards, ∃ run, card.work = .function run)
    (complete : ∀ card ∈ cards, card.Complete) (held : session.engine.graph = some graph)
    (answers : session.engine.answers graph inputs false = true) :
    (session.engine.records.memo = some ((Bench.mk graph session.engine.board).memoKey
        (graph.mergeGlobals session.engine.board inputs)) →
      (session.exec inputs true).1 = .ok session.engine.records.outputs) ∧
    ((∀ card ∈ cards, card.Agreeable) → ∃ again, (session.exec inputs true).1 = .ok again ∧
      session.engine.records.outputs.agrees again = true) := by
  obtain ⟨other, held', sound, last⟩ := settled
  obtain rfl : other = graph := Option.some.inj (held'.symm.trans held)
  obtain ⟨laid, -, ready⟩ := sound.ready
  have key : ∃ memo, session.engine.records.memo = some memo ∧
      memo.agrees ((Bench.mk other session.engine.board).memoKey
        (other.mergeGlobals session.engine.board inputs)) = true := by
    unfold Engine.answers Engine.remembers at answers
    rw [Bool.not_false, Bool.true_and] at answers
    split at answers
    · next memo same => exact ⟨memo, same, answers⟩
    · cases answers
  obtain ⟨memo, noted, agrees⟩ := key
  rcases last with nothing | ⟨merged, trace, start, finish, remembered⟩
  · rw [nothing] at noted
    cases noted
  obtain rfl := Option.some.inj (noted.symm.trans remembered.memo)
  rw [MemoKey.agrees, Bool.and_eq_true] at agrees
  refine ⟨fun same => ?_, fun agreeable => ?_⟩
  · rw [remembered.memo, Option.some.injEq] at same
    obtain ⟨again, ran, related⟩ := exec_remembered (· = ·) held remembered
      (fun _ => rfl) ready distinct slots functions (fun card known => (complete card known).steady_eq)
      (Values.related_eq_iff.mpr (congrArg MemoKey.entries same))
      (Values.related_eq_iff.mpr (congrArg MemoKey.inputs same))
    rw [ran, Values.related_eq_iff.mp related]
  · obtain ⟨again, ran, related⟩ := exec_remembered (fun one two => one.agrees two = true)
      held remembered Value.agrees_refl ready distinct slots functions
      (fun card known => (complete card known).steady_agrees (agreeable card known))
      (Values.agrees_iff.mp agrees.1) (Values.agrees_iff.mp agrees.2)
    exact ⟨again, ran, Values.agrees_iff.mpr related⟩

/-- Recorded answers are the answers that a real run would give. Function cards that set all their
outputs are joined by connections with distinct names that touch no event, and the graph is run,
given values on its entries and rewired in any order. Then a run that is answered from the records
changes nothing. If it depends on the same entry values and inputs as the recorded run, a forced
run succeeds with the same outputs; and when no card tells values that agree apart, a forced run
succeeds in any case, and its outputs agree with the recorded ones. -/
theorem recorded_answers_hold (distinct : DistinctNames cards connections)
    (quiet : Eventless cards connections) (slots : DistinctSlots cards)
    (functions : ∀ card ∈ cards, ∃ run, card.work = .function run)
    (complete : ∀ card ∈ cards, card.Complete) (history : History cards connections session)
    (held : session.engine.graph = some graph) {engine : Engine}
    (recorded : session.engine.opening inputs false = (.ok (.recorded outputs), engine)) :
    session.exec inputs false = (.ok outputs, session) ∧
      (session.engine.records.memo = some ((Bench.mk graph session.engine.board).memoKey
          (graph.mergeGlobals session.engine.board inputs)) →
        (session.exec inputs true).1 = .ok outputs) ∧
      ((∀ card ∈ cards, card.Agreeable) →
        ∃ again, (session.exec inputs true).1 = .ok again ∧ outputs.agrees again = true) := by
  obtain ⟨answers, rfl⟩ := answers_of_opening held recorded
  exact ⟨exec_recorded held answers, forced_of_settled
    (history.settled distinct quiet slots functions) distinct slots functions complete held answers⟩

/-- The triangle is answered from the records when it is run for the second time. -/
theorem recorded_answers_hold_triangle :
    ∃ (session : Session) (graph : Graph) (outputs : Values),
      DistinctNames Triangle.seated.1 Triangle.config.connections ∧
      Eventless Triangle.seated.1 Triangle.config.connections ∧
      DistinctSlots Triangle.seated.1 ∧
      (∀ card ∈ Triangle.seated.1, ∃ run, card.work = .function run) ∧
      (∀ card ∈ Triangle.seated.1, card.Complete) ∧
      History Triangle.seated.1 Triangle.config.connections session ∧
      session.engine.graph = some graph ∧
      session.engine.opening ∅ false = (.ok (.recorded outputs), session.engine) ∧
      session.exec ∅ false = (.ok outputs, session) ∧
      (session.exec ∅ true).1 = .ok outputs := by
  have feed := Triangle.feedForward
  have complete : ∀ card ∈ Triangle.seated.1, card.Complete := by
    intro card member
    simp only [Triangle.seated, Board.seatAll, Board.seat, Triangle.design, List.mem_cons,
      List.not_mem_nil, or_false] at member
    rcases member with rfl | rfl | rfl <;> exact .of_single rfl (by decide)
  obtain ⟨net, start, builds⟩ := Graph.build_ok feed none Triangle.seated.2
  obtain ⟨graph, built, ready, -, -, -, globals⟩ := builds .visual
  obtain ⟨session, taken, held, -, -, fresh⟩ := exists_build .standard built
  have succeeds : (((idle .standard Triangle.seated.2).build Triangle.config Triangle.seated.1
      none).2.exec ∅ false).1.toOption.isSome = true := by decide +kernel
  rw [taken] at succeeds
  have history : History Triangle.seated.1 Triangle.config.connections (session.exec ∅ false).2 :=
    (History.build (fun _ member => member) taken).exec ∅ false
  rcases ran : session.exec ∅ false with ⟨failure | outputs, after⟩
  · rw [ran] at succeeds
    cases succeeds
  · rw [ran] at history
    obtain ⟨finish, -, -, -, recorded, -⟩ := course_of_exec held ready.compiled
      (fun id action => ready.draws.functional feed.functions) (fresh ∅ false) ran
    rw [show graph.mergeGlobals session.engine.board ∅ = ∅ by
      rw [Graph.mergeGlobals, Graph.globals?, globals]; rfl] at recorded
    have same := recorded.memo_eq globals
    have opening := Engine.opening_recorded recorded.graph (recorded.answers globals)
    obtain ⟨unforced, forced, -⟩ := recorded_answers_hold feed.names feed.eventless feed.slots
      feed.functions complete history recorded.graph opening
    exact ⟨after, _, _, feed.names, feed.eventless, feed.slots, feed.functions, complete, history,
      recorded.graph, opening, unforced, forced same⟩

end Session

/-! ## Where a forced run answers otherwise -/

/-- A card with one output that shows a value of its arguments. -/
def CardDesign.single (id : String) (inputs : List String) (run : Values → Value) :
    CardDesign where
  id := id
  title := "single"
  anchors := inputs.map (⟨·, .input, none, none, false⟩) ++ [⟨"out", .output, none, none, false⟩]
  delay := 0
  work := .function fun arguments => .ok ((∅ : Values).insert "out" (run arguments))
  runtime := none

/-- The texts of named values. -/
def Values.texts (values : Values) : List (String × String) :=
  values.toList.map fun entry => (entry.1, entry.2.compact)

/-- A session of complete function cards with anchors of their own, without events and without
arrows in the ids, which is answered from the records with other outputs than a forced run has. -/
structure Session.Misremembers (session : Session) (cards : List Card)
    (connections : List Connection) (recorded forced : List (String × String)) : Prop where
  plain : ∀ card ∈ cards, ∀ id ∈ card.id :: card.anchors.map Anchor.id,
    ¬"->".toList <:+: id.toList
  eventless : ∀ card ∈ cards, card.anchorsOf .event = []
  slots : DistinctSlots cards
  functions : ∀ card ∈ cards, ∃ run, card.work = .function run
  complete : ∀ card ∈ cards, card.Complete
  history : History cards connections session
  answers : ∃ graph, session.engine.graph = some graph ∧
    session.engine.answers graph ∅ false = true
  unforced : (session.exec ∅ false).1.toOption.map Values.texts = some recorded
  otherwise : (session.exec ∅ true).1.toOption.map Values.texts = some forced

namespace Clash

def value (name : String) (arguments : Values) : Value := arguments.getD name .null

def seated : List Card × Board :=
  Board.empty.seatAll [.single "s" [] fun _ => .ofNat 1, .single "t-x" ["in"] (value "in"),
    .single "t" ["x-in", "y"] (value "x-in"), .single "v" [] fun _ => .ofNat 7]

/-- Two connections from `s` of which the transfers have one name, and one from `v`. -/
def config : GraphConfig where
  name := "clash"
  connections := [⟨⟨"s", "out"⟩, ⟨"t-x", "in"⟩⟩, ⟨⟨"s", "out"⟩, ⟨"t", "x-in"⟩⟩,
    ⟨⟨"v", "out"⟩, ⟨"t", "x-in"⟩⟩]

/-- The graph has been run once. -/
def session : Session :=
  (((Session.idle .standard seated.2).build config seated.1 none).2.exec ∅ false).2

end Clash

namespace SignedZero

/-- A card that shows its input as text. -/
def seated : List Card × Board :=
  Board.empty.seatAll
    [.single "c" ["in"] fun arguments => .text (CardDef.part (arguments.get? "in"))]

def config : GraphConfig := ⟨"zero", []⟩

/-- The graph has been run on a zero, and has been given a negative zero since. -/
def session : Session :=
  let built := ((Session.idle .standard seated.2).build config seated.1 none).2
  let ran := ((built.setInput "place_c_in" (.number (.double ⟨0⟩))).2.exec ∅ false).2
  (ran.setInput "place_c_in" (.number (.double ⟨0x8000000000000000⟩))).2

end SignedZero

namespace Session

/-- Without distinct names a forced run may have other outputs, and so it may when it depends on a
zero of the other sign. -/
theorem recorded_answers_differ :
    Clash.session.Misremembers Clash.seated.1 Clash.config.connections
        [("t-x_out", "1"), ("t_out", "null")] [("t-x_out", "1"), ("t_out", "7")] ∧
      SignedZero.session.Misremembers SignedZero.seated.1 SignedZero.config.connections
        [("c_out", "\"0.0\"")] [("c_out", "\"-0.0\"")] := by
  constructor
  · have shown : ∀ card ∈ Clash.seated.1, (∃ run, card.work = .function run) ∧
        card.Complete := by
      intro card member
      simp only [Clash.seated, Board.seatAll, Board.seat, CardDesign.single, List.mem_cons,
        List.not_mem_nil, or_false] at member
      rcases member with rfl | rfl | rfl | rfl <;>
        exact ⟨⟨_, rfl⟩, .of_single rfl (by decide)⟩
    have runs : (Clash.session.engine.graph.any fun graph =>
          Clash.session.engine.answers graph ∅ false) = true ∧
        (Clash.session.exec ∅ false).1.toOption.map Values.texts =
          some [("t-x_out", "1"), ("t_out", "null")] ∧
        (Clash.session.exec ∅ true).1.toOption.map Values.texts =
          some [("t-x_out", "1"), ("t_out", "7")] := by decide +kernel
    exact {
      plain := by decide +kernel
      eventless := by decide +kernel
      slots := .of_nodup (by decide +kernel)
      functions := fun card known => (shown card known).1
      complete := fun card known => (shown card known).2
      history := (History.of_build (fun _ known => known) (by decide +kernel)).exec ∅ false
      answers := (Option.any_eq_true _ _).mp runs.1
      unforced := runs.2.1
      otherwise := runs.2.2 }
  · have shown : ∀ card ∈ SignedZero.seated.1, (∃ run, card.work = .function run) ∧
        card.Complete := by
      intro card member
      simp only [SignedZero.seated, Board.seatAll, Board.seat, CardDesign.single, List.mem_cons,
        List.not_mem_nil, or_false] at member
      subst member
      exact ⟨⟨_, rfl⟩, .of_single rfl (by decide)⟩
    have runs : (SignedZero.session.engine.graph.any fun graph =>
          SignedZero.session.engine.answers graph ∅ false) = true ∧
        (SignedZero.session.exec ∅ false).1.toOption.map Values.texts =
          some [("c_out", "\"0.0\"")] ∧
        (SignedZero.session.exec ∅ true).1.toOption.map Values.texts =
          some [("c_out", "\"-0.0\"")] := by decide +kernel
    exact {
      plain := by decide +kernel
      eventless := by decide +kernel
      slots := .of_nodup (by decide +kernel)
      functions := fun card known => (shown card known).1
      complete := fun card known => (shown card known).2
      history := (((History.of_build (fun _ known => known) (by decide +kernel)).of_input
        (by decide +kernel) _).exec ∅ false).of_input (by decide +kernel) _
      answers := (Option.any_eq_true _ _).mp runs.1
      unforced := runs.2.1
      otherwise := runs.2.2 }

end Session

end CardNet
