import CardNet.Proofs.Engine.Interleavings

/-!
# Engines in a run

At every stage of a run something is known of the engine (`Engine.At`): before the opening and
after the end, that the records are what the last run left, if that run was recorded faithfully
(`Engine.Rested`); in between, which transitions are done and that the board is under way
(`Engine.Engaged`). Setting the value of an entry changes none of this (`Engine.At.setPlace`).
-/

namespace CardNet

/-- Function cards with anchors of their own, and connections with distinct names that touch no
event. -/
structure Setting (cards : List Card) (connections : List Connection) : Prop where
  distinct : DistinctNames cards connections
  quiet : Eventless cards connections
  slots : DistinctSlots cards
  functions : ∀ card ∈ cards, ∃ run, card.work = .function run

namespace Engine

/-- An engine with a sound graph, whose circuit shows what a layout shows. -/
def Keeps (engine : Engine) (layout : Circuit) (cards : List Card)
    (connections : List Connection) : Prop :=
  ∃ graph, engine.graph = some graph ∧ graph.Sound cards connections ∧
    graph.net.bare = layout.bare

/-- An engine between runs. -/
structure Rested (engine : Engine) (layout : Circuit) (cards : List Card)
    (connections : List Connection) (faithful : Prop) : Prop where
  keeps : engine.Keeps layout cards connections
  settled : faithful → engine.Settled cards connections

/-- An engine in a run that was opened on a bench and has found some values and done some
transitions. -/
structure Engaged (engine : Engine) (layout : Circuit) (cards : List Card)
    (connections : List Connection) (found : Findings) (bench : Bench) (inputs : Values)
    (done : List String) : Prop where
  sound : bench.graph.Sound cards connections
  bare : bench.graph.net.bare = layout.bare
  graph : engine.graph =
    some { bench.graph with net := (bench.opened inputs).graph.spent done }
  board : found.Consistent → ∃ start finish, bench.graph.net.Underway cards bench.graph.channel
    inputs found done engine.board start finish

/-- An engine in a run by firings, none of which took too long. -/
structure InPasses (engine : Engine) (layout : Circuit) (cards : List Card)
    (connections : List Connection) (found : Findings) (bench : Bench) (inputs : Values)
    (done : List String) : Prop
    extends engine.Engaged layout cards connections found bench inputs done where
  visual : bench.graph.mode = .visual
  prompt : ∀ transition ∈ done,
    fits engine.config.taskTimeout (bench.graph.net.delay transition) = true
  within : done.length ≤ engine.config.maxFirings

/-- What is known of the engine at a stage of a run at which no answer is awaited. -/
def At (engine : Engine) (layout : Circuit) (cards : List Card) (connections : List Connection)
    (watch : Watch) : RunStage → Prop
  | .opening _ _ => engine.Rested layout cards connections watch.Faithful
  | .listing inputs fired => ∃ bench done,
      engine.InPasses layout cards connections watch.found bench inputs done ∧
        (bench.opened inputs).graph.net.Between done ∧ fired = done.length
  | .passing inputs fired progressed rest => ∃ bench done,
      engine.InPasses layout cards connections watch.found bench inputs done ∧
        (bench.opened inputs).graph.net.Passing done progressed rest ∧ fired = done.length
  | .planning inputs => ∃ bench,
      engine.Engaged layout cards connections watch.found bench inputs [] ∧
        bench.graph.mode = .function
  | .planned inputs plan => ∃ bench,
      engine.Engaged layout cards connections watch.found bench inputs [] ∧
        bench.graph.mode = .function ∧ bench.graph.plan = some plan
  | .closing inputs _ => ∃ bench done,
      engine.Engaged layout cards connections watch.found bench inputs done ∧
        (bench.opened inputs).graph.Course engine.config done
  | .leaving (.ok _) => engine.Rested layout cards connections watch.Faithful
  | .leaving (.error _) => engine.Keeps layout cards connections
  | _ => False

variable {engine : Engine} {layout : Circuit} {cards : List Card} {connections : List Connection}
  {found : Findings} {bench : Bench} {inputs : Values} {done : List String} {faithful : Prop}
  {watch : Watch} {stage : RunStage}

theorem Settled.rested (settled : engine.Settled cards connections) {graph : Graph}
    (held : engine.graph = some graph) (same : graph.net.bare = layout.bare) :
    engine.Rested layout cards connections faithful := by
  obtain ⟨other, held', sound, -⟩ := id settled
  obtain rfl : other = graph := Option.some.inj (held'.symm.trans held)
  exact ⟨⟨other, held, sound, same⟩, fun _ => settled⟩

theorem Engaged.keeps (engaged : engine.Engaged layout cards connections found bench inputs done) :
    engine.Keeps layout cards connections := by
  have left := (Graph.bare_spent (bench.opened inputs).graph done).trans (bench.bare_opened inputs)
  exact ⟨_, engaged.graph, engaged.sound.of_bare left, left.trans engaged.bare⟩

theorem At.keeps (known : engine.At layout cards connections watch stage) :
    engine.Keeps layout cards connections := by
  cases stage with
  | opening => exact known.keeps
  | listing => obtain ⟨_, _, passes, -⟩ := known; exact passes.keeps
  | passing => obtain ⟨_, _, passes, -⟩ := known; exact passes.keeps
  | planning => obtain ⟨_, engaged, -⟩ := known; exact engaged.keeps
  | planned => obtain ⟨_, engaged, -⟩ := known; exact engaged.keeps
  | closing => obtain ⟨_, _, engaged, -⟩ := known; exact engaged.keeps
  | leaving result =>
      cases result with
      | ok => exact known.keeps
      | error => exact known
  | _ => exact known.elim

/-! ## Values that are set meanwhile -/

theorem Keeps.setPlace_frame (keeps : engine.Keeps layout cards connections) (place : String)
    (value : Value) : (engine.setPlace place value).2.config = engine.config ∧
      (engine.setPlace place value).2.graph = engine.graph := by
  obtain ⟨graph, held, -⟩ := keeps
  rcases setPlace_cases held place value with same | ⟨_, _, _, _, same⟩ <;> rw [same] <;>
    exact ⟨rfl, rfl⟩

theorem Keeps.setPlace (keeps : engine.Keeps layout cards connections) (place : String)
    (value : Value) : (engine.setPlace place value).2.Keeps layout cards connections := by
  obtain ⟨-, same⟩ := keeps.setPlace_frame place value
  obtain ⟨graph, held, sound, bare⟩ := keeps
  exact ⟨graph, same.trans held, sound, bare⟩

section

variable (setting : Setting cards connections) {place : String}
  (entry : place ∈ layout.entryPlaces) (value : Value)

include setting entry

theorem Rested.setPlace (rested : engine.Rested layout cards connections faithful) :
    (engine.setPlace place value).2.Rested layout cards connections faithful := by
  refine ⟨rested.keeps.setPlace place value, fun trusted => ?_⟩
  obtain ⟨graph, held, -, bare⟩ := rested.keeps
  exact (rested.settled trusted).setPlace setting.slots held
    (Net.entryPlaces_of_bare bare ▸ entry) value

theorem Engaged.setPlace
    (engaged : engine.Engaged layout cards connections found bench inputs done) :
    (engine.setPlace place value).2.Engaged layout cards connections found bench inputs done := by
  refine ⟨engaged.sound, engaged.bare, ?_, fun consistent => ?_⟩
  · exact (engaged.keeps.setPlace_frame place value).2.trans engaged.graph
  · obtain ⟨start, finish, underway⟩ := engaged.board consistent
    obtain ⟨laid, -, ready⟩ := engaged.sound.ready
    have left := (Graph.bare_spent (bench.opened inputs).graph done).trans
      (bench.bare_opened inputs)
    rcases setPlace_cases engaged.graph place value with same | ⟨content, slot, shown, shows, same⟩
    · rw [same]
      exact ⟨start, finish, underway⟩
    · rw [same]
      have here : bench.graph.net.content? place = some content :=
        (congrFun (Net.content?_of_bare left) place).symm.trans shown
      obtain ⟨card, known, member, rfl⟩ := ready.draws.anchor_of_content here shows
      exact underway.write ready.draws setting.distinct setting.slots setting.functions known member
        (Net.entryPlaces_of_bare engaged.bare ▸ entry) value

theorem InPasses.setPlace
    (passes : engine.InPasses layout cards connections found bench inputs done) :
    (engine.setPlace place value).2.InPasses layout cards connections found bench inputs done := by
  have config := (passes.keeps.setPlace_frame place value).1
  refine ⟨passes.toEngaged.setPlace setting entry value, passes.visual, ?_, ?_⟩
  · rw [config]
    exact passes.prompt
  · rw [config]
    exact passes.within

/-- Setting the value of an entry changes nothing that is known of the engine. -/
theorem At.setPlace (known : engine.At layout cards connections watch stage) :
    (engine.setPlace place value).2.At layout cards connections watch stage := by
  have config := (known.keeps.setPlace_frame place value).1
  cases stage with
  | opening => exact known.setPlace setting entry value
  | listing =>
      obtain ⟨bench, done, passes, rest⟩ := known
      exact ⟨bench, done, passes.setPlace setting entry value, rest⟩
  | passing =>
      obtain ⟨bench, done, passes, rest⟩ := known
      exact ⟨bench, done, passes.setPlace setting entry value, rest⟩
  | planning =>
      obtain ⟨bench, engaged, rest⟩ := known
      exact ⟨bench, engaged.setPlace setting entry value, rest⟩
  | planned =>
      obtain ⟨bench, engaged, rest⟩ := known
      exact ⟨bench, engaged.setPlace setting entry value, rest⟩
  | closing =>
      obtain ⟨bench, done, engaged, course⟩ := known
      exact ⟨bench, done, engaged.setPlace setting entry value, config ▸ course⟩
  | leaving result =>
      cases result with
      | ok => exact Rested.setPlace setting entry value known
      | error => exact Keeps.setPlace known place value
  | _ => exact known.elim

end

/-! ## The ends of a run -/

/-- A run is answered from the records, or it is opened; then nothing is done yet, and of the
entries the defaults have been found. -/
theorem Rested.opening (setting : Setting cards connections)
    (rested : engine.Rested layout cards connections watch.Faithful) (inputs : Values)
    (force : Bool) :
    (∃ outputs, engine.opening inputs force = (.ok (.recorded outputs), engine)) ∨
    ∃ merged after, after.config = engine.config ∧
      (engine.opening inputs force = (.ok (.firings merged), after) ∧
          after.At layout cards connections { watch with found := after.settles } (.listing merged 0) ∨
        engine.opening inputs force = (.ok (.plan merged), after) ∧
          after.At layout cards connections { watch with found := after.settles } (.planning merged)) := by
  obtain ⟨graph, held, sound, bare⟩ := rested.keeps
  cases fresh : engine.answers graph inputs force with
  | true => exact .inl ⟨_, opening_recorded held fresh⟩
  | false =>
      obtain ⟨laid, -, ready⟩ := sound.ready
      have opened := opening_fresh held fresh
      have same := Bench.graph_opened ⟨graph, engine.board⟩ (graph.mergeGlobals engine.board inputs)
      have unspent : (engine.opened graph inputs).graph =
          { graph with net := (engine.opened graph inputs).graph.spent [] } := by
        rw [Graph.spent_nil, Engine.opened, same]
      have settles : (engine.withBench (engine.opened graph inputs)).settles =
          graph.net.findings (Bench.mk graph engine.board).settledAnchors
            (engine.opened graph inputs).board := by
        rw [← Circuit.findings_of_bare (engine.bare_opened graph inputs)]
        change Circuit.findings _
          (Bench.mk (engine.opened graph inputs).graph _).settledAnchors _ = _
        rw [Bench.settledAnchors, Engine.opened, same]
        rfl
      have engaged : (engine.withBench (engine.opened graph inputs)).Engaged layout cards connections
          (engine.withBench (engine.opened graph inputs)).settles ⟨graph, engine.board⟩
          (graph.mergeGlobals engine.board inputs) [] :=
        ⟨sound, bare, congrArg some unspent, fun _ => ⟨_, _, settles ▸
          Bench.underway_opened ready.draws setting.slots
            sound.known _⟩⟩
      refine .inr ⟨graph.mergeGlobals engine.board inputs,
        engine.withBench (engine.opened graph inputs), rfl, ?_⟩
      cases mode : graph.mode with
      | visual =>
          rw [mode] at opened
          exact .inl ⟨opened, ⟨graph, engine.board⟩, [], ⟨engaged, mode, by simp, by simp⟩,
            Net.between_nil _, rfl⟩
      | function =>
          rw [mode] at opened
          exact .inr ⟨opened, ⟨graph, engine.board⟩, engaged, mode⟩

/-- What a run has recorded is what it left when all that it had found still held. -/
theorem Engaged.settled (setting : Setting cards connections)
    (engaged : engine.Engaged layout cards connections found bench inputs done)
    (course : (bench.opened inputs).graph.Course engine.config done)
    (hold : found.Hold engine.board) {last : Engine}
    (recorded : last.Recorded ⟨{ bench.graph with net := (bench.opened inputs).graph.spent done },
      engine.board⟩ inputs) (config : last.config = engine.config) :
    last.Settled cards connections := by
  obtain ⟨start, finish, underway⟩ := engaged.board hold.consistent
  obtain ⟨laid, -, ready⟩ := engaged.sound.ready
  have left := (Graph.bare_spent (bench.opened inputs).graph done).trans (bench.bare_opened inputs)
  have draws : Circuit.Draws ((bench.opened inputs).graph.spent done) cards connections
      bench.graph.channel laid := ready.draws.of_bare left.symm
  have same : ∀ card ∈ cards, ∀ slot ∈ card.anchors, engine.board.read slot = finish.read slot :=
    fun card known slot member => underway.read_eq ready.draws setting.distinct setting.slots
      setting.functions hold known member
  refine ⟨_, recorded.graph, engaged.sound.of_bare left, .inr ⟨inputs, done, start, finish, ?_, ?_,
    ?_, ?_, underway.inputs, underway.defaults, ?_⟩⟩
  · rw [recorded.memo]
    exact congrArg some (Bench.memoKey_congr draws underway.records same inputs)
  · rw [recorded.outputs]
    refine Values.related_eq_iff.mp (Bench.related_outputs rfl fun id content shown slot shows => ?_)
    obtain ⟨card, known, member, -⟩ := draws.anchor_of_content shown shows
    exact same card known slot member
  · intro board merged
    rw [config]
    exact course.reopened ready.draws setting.distinct board merged
  · exact (congrFun (congrFun (Circuit.playAll_of_bare left) done) start).trans underway.played
  · intro card known slot member _
    rw [recorded.board]
    exact same card known slot member

/-- A run that has gone its course is recorded when it is closed, faithfully if all that it has
found still holds. -/
theorem Engaged.close (setting : Setting cards connections)
    (engaged : engine.Engaged layout cards connections found bench inputs done)
    (course : (bench.opened inputs).graph.Course engine.config done) (results : Option Values) :
    ∃ outputs after, engine.close inputs results = (.ok outputs, after) ∧
      after.Rested layout cards connections (found.Hold engine.board) ∧
      after.config = engine.config := by
  obtain ⟨after, closed, recorded, config⟩ := close_eq
    ⟨{ bench.graph with net := (bench.opened inputs).graph.spent done }, engine.board⟩
    engaged.graph rfl inputs results
  obtain ⟨graph, held, sound, bare⟩ := engaged.keeps
  obtain rfl := Option.some.inj (held.symm.trans engaged.graph)
  exact ⟨_, after, closed, ⟨⟨_, recorded.graph, sound, bare⟩, fun hold =>
    engaged.settled setting course hold recorded config⟩, config⟩

end Engine

end CardNet
