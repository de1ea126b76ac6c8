import CardNet.Proofs.Engine.Engagement

/-!
# Actions in service

A run does its actions by requests: firings one by one (`Engine.Launched`), or the steps of a plan
in a single one (`Engine.OnPlan`, `Engine.Acting`). An action that ends well is one more that the
run has done, on the values that it has found.
-/

namespace CardNet

namespace Engine

variable {engine : Engine} {layout : Circuit} {cards : List Card} {connections : List Connection}
  {found : Findings} {bench : Bench} {inputs : Values} {done : List String} {watch : Watch}

/-- A transition that is done on the values that are found is one more that the run has done. -/
theorem Engaged.act (setting : Setting cards connections)
    (engaged : engine.Engaged layout cards connections found bench inputs done) {graph : Graph}
    (held : engine.graph = some graph) {transition : String} {action : Action}
    (known : graph.net.transitions.get? transition = some action) {board : Board}
    (played : action.play engine.board = some board) {after : Engine}
    (same : after.graph = some { bench.graph with
      net := (bench.opened inputs).graph.spent (done ++ [transition]) })
    (left : after.board = board) :
    after.Engaged layout cards connections
      (found ++ graph.net.findings action.reads engine.board) bench inputs
      (done ++ [transition]) := by
  obtain rfl := Option.some.inj (held.symm.trans engaged.graph)
  have bare := (Graph.bare_spent (bench.opened inputs).graph done).trans (bench.bare_opened inputs)
  refine ⟨engaged.sound, engaged.bare, same, fun consistent => ?_⟩
  rw [Circuit.findings_of_bare bare] at consistent ⊢
  obtain ⟨start, finish, underway⟩ := engaged.board consistent.left
  obtain ⟨laid, -, ready⟩ := engaged.sound.ready
  have here : bench.graph.net.transitions.get? transition = some action := by
    rw [← Net.transitions_of_bare bare]
    exact known
  obtain ⟨last, goes⟩ := underway.act ready.draws setting.distinct setting.slots setting.functions
    here consistent played
  exact ⟨start, last, left ▸ goes⟩

/-! ## Firings -/

/-- An engine on which a transition of a run has begun to fire. -/
inductive Launched (layout : Circuit) (cards : List Card) (connections : List Connection)
    (bench : Bench) (inputs : Values) (done : List String) (transition : String) :
    Engine → Findings → Flight → Prop where
  | launch {before after : Engine} {graph : Graph} {past : Findings} {action : Action}
      {flight : Flight} :
      before.InPasses layout cards connections past bench inputs done →
      before.graph = some graph → graph.net.isEnabled transition = true →
      graph.net.transitions.get? transition = some action →
      before.launch ⟨graph, before.board⟩ transition = .ok (flight, after) →
      Launched layout cards connections bench inputs done transition after
        (past ++ graph.net.findings action.reads before.board) flight

namespace Launched

variable {transition : String} {flight : Flight}

/-- The action of a launched transition waits for as long as the circuit says. -/
theorem delay (setting : Setting cards connections)
    (launched : Launched layout cards connections bench inputs done transition engine found flight) :
    flight.job.delay = bench.graph.net.delay transition := by
  cases launched with
  | @launch before after graph past action flight passes held enabled known launches =>
      obtain ⟨laid, -, ready⟩ := passes.sound.ready
      obtain rfl := Option.some.inj (held.symm.trans passes.graph)
      have bare := (Graph.bare_spent (bench.opened inputs).graph done).trans
        (bench.bare_opened inputs)
      rw [Net.transitions_of_bare bare] at known
      rw [launch_eq enabled (by rw [Net.transitions_of_bare bare]; exact known)] at launches
      cases launches
      rw [Action.delay_begin (ready.draws.functional setting.functions known), Circuit.delay, known]
      rfl

theorem keeps
    (launched : Launched layout cards connections bench inputs done transition engine found flight) :
    engine.Keeps layout cards connections := by
  cases launched with
  | launch passes held enabled known launches =>
      rw [launch_eq enabled known] at launches
      cases launches
      obtain ⟨kept, held', sound, layered⟩ := passes.keeps
      obtain rfl := Option.some.inj (held'.symm.trans held)
      refine ⟨_, graph_withCircuit held _ _, sound.of_bare ?_, ?_⟩
      · rw [Net.bare_deduct]
      · rw [Net.bare_deduct, layered]

/-- A launched transition that lands well has been done. -/
theorem land (setting : Setting cards connections)
    (launched : Launched layout cards connections bench inputs done transition engine found flight) :
    (engine.land flight).2.config = engine.config ∧
      (engine.land flight).2.Keeps layout cards connections ∧
      (∀ value, (engine.land flight).1 = .ok value →
        fits engine.config.taskTimeout flight.job.delay = true →
        done.length + 1 ≤ engine.config.maxFirings →
        (engine.land flight).2.InPasses layout cards connections found bench inputs
          (done ++ [transition])) := by
  have waits := launched.delay setting
  cases launched with
  | @launch before after graph past action flight passes held enabled known launches =>
      rw [launch_eq enabled known] at launches
      cases launches
      have bare := (Graph.bare_spent (bench.opened inputs).graph done).trans
        (bench.bare_opened inputs)
      obtain ⟨kept, held', sound, layered⟩ := passes.keeps
      obtain rfl : kept = graph := Option.some.inj (held'.symm.trans held)
      simp only [Engine.land, bench_eq (graph_withCircuit held _ _), Circuit.land]
      rcases done' : (action.begin [] before.board).1.finish (action.begin [] before.board).2 with
        ⟨message | value, board⟩
      · simp only [board_withCircuit, done', withCircuit_withCircuit, Net.rollback]
        refine ⟨rfl, ⟨_, graph_withCircuit held _ _, sound.of_bare ?_, ?_⟩, ?_⟩
        · rw [Net.bare_refund, Net.bare_deduct]
        · rw [Net.bare_refund, Net.bare_deduct, layered]
        · rintro value ⟨⟩
      · simp only [board_withCircuit, done', withCircuit_withCircuit, Net.commit]
        refine ⟨rfl, ⟨_, graph_withCircuit held _ _, sound.of_bare ?_, ?_⟩, ?_⟩
        · rw [Net.bare_credit, Net.bare_deduct]
        · rw [Net.bare_credit, Net.bare_deduct, layered]
        · intro _ _ timely within
          have played : action.play before.board = some board := by
            rw [Action.play, Action.act, done']
          obtain rfl := Option.some.inj (held.symm.trans passes.graph)
          have opened : (bench.opened inputs).graph.mode = .visual := by
            rw [Bench.graph_opened]
            exact passes.visual
          refine ⟨passes.toEngaged.act setting held known played ?_ rfl, passes.visual, ?_, ?_⟩
          · rw [graph_withCircuit held, Graph.spent_visual opened, Graph.spent_visual opened,
              Net.firedAll_append]
            rfl
          · intro other inside
            rcases List.mem_append.mp inside with earlier | last
            · exact passes.prompt other earlier
            · obtain rfl := List.mem_singleton.mp last
              rw [← waits]
              exact timely
          · rw [List.length_append]
            exact within

/-- A launched transition can be called off. -/
theorem callOff
    (launched : Launched layout cards connections bench inputs done transition engine found flight) :
    (engine.callOff flight).config = engine.config ∧
      (engine.callOff flight).Keeps layout cards connections := by
  cases launched with
  | launch passes held enabled known launches =>
      rw [launch_eq enabled known] at launches
      cases launches
      obtain ⟨kept, held', sound, layered⟩ := passes.keeps
      obtain rfl := Option.some.inj (held'.symm.trans held)
      simp only [Engine.callOff, graph_withCircuit held, Circuit.callOff, Net.rollback,
        withCircuit_withCircuit]
      refine ⟨rfl, _, graph_withCircuit held _ _, sound.of_bare ?_, ?_⟩
      · rw [Net.bare_refund, Net.bare_deduct]
      · rw [Net.bare_refund, Net.bare_deduct, layered]

end Launched

/-! ## Plans -/

/-- An engine in a run by the plan, with what is left of the time and of the steps. -/
structure OnPlan (engine : Engine) (layout : Circuit) (cards : List Card)
    (connections : List Connection) (found : Findings) (bench : Bench) (inputs : Values)
    (done : List String) (left : Option Nat) (steps : List PlanStep) : Prop
    extends engine.Engaged layout cards connections found bench inputs done where
  function : bench.graph.mode = .function
  spent : bench.graph.net.spendAll engine.config.taskTimeout done = some left
  path : ∃ order path, bench.graph.net.regionOrder bench.graph.net.entryPlaces = .ok order ∧
    bench.graph.net.actsOf order = done ++ bench.graph.net.actsOf path ∧
    Plan.CarryOut bench.graph.net path steps

/-- An engine on which a step of a plan has begun to act. -/
inductive Acting (layout : Circuit) (cards : List Card) (connections : List Connection)
    (bench : Bench) (inputs : Values) (done : List String) (left : Option Nat) :
    Engine → Findings → String → Job → List PlanStep → Prop where
  | begin {before : Engine} {graph : Graph} {past : Findings} {id : String} {action : Action}
      {steps : List PlanStep} :
      before.OnPlan layout cards connections past bench inputs done left (.act id action :: steps) →
      before.graph = some graph →
      Acting layout cards connections bench inputs done left
        { before with board := (action.begin [] before.board).2 }
        (past ++ graph.net.findings action.reads before.board) id (action.begin [] before.board).1
        steps

namespace OnPlan

variable {left : Option Nat} {steps : List PlanStep}

/-- A run that has its plan has done none of its steps. -/
theorem start {plan : Plan} (engaged : engine.Engaged layout cards connections found bench inputs [])
    (function : bench.graph.mode = .function) (planned : bench.graph.plan = some plan) :
    engine.OnPlan layout cards connections found bench inputs [] engine.config.taskTimeout
      plan.steps := by
  obtain ⟨laid, -, ready⟩ := engaged.sound.ready
  rcases ready.compiled function with ⟨-, unplanned⟩ | ⟨other, planned', made⟩
  · rw [planned] at unplanned
    cases unplanned
  · obtain rfl := Option.some.inj (planned.symm.trans planned')
    obtain ⟨order, ordered, path⟩ := Plan.ofEntries_eq_ok made
    obtain ⟨steps, mapped, same⟩ := Plan.ofPath_eq_ok path
    exact ⟨engaged, function, rfl, order, order, ordered, rfl, steps, mapped, same⟩

theorem read {id : String} {content : Content}
    (onPlan : engine.OnPlan layout cards connections found bench inputs done left
      (.read id content :: steps)) :
    engine.OnPlan layout cards connections found bench inputs done left steps := by
  obtain ⟨order, path, ordered, acts, carryOut⟩ := onPlan.path
  obtain ⟨later, rest, leads⟩ := carryOut.cons
  exact ⟨onPlan.toEngaged, onPlan.function, onPlan.spent, order, later, ordered,
    acts.trans (by rw [leads]), rest⟩

/-- A run whose plan is followed to its end has gone its course. -/
theorem course (onPlan : engine.OnPlan layout cards connections found bench inputs done left []) :
    (bench.opened inputs).graph.Course engine.config done := by
  obtain ⟨order, path, ordered, acts, carryOut⟩ := onPlan.path
  have bare := bench.bare_opened inputs
  have opened : (bench.opened inputs).graph.mode = .function := by
    rw [Bench.graph_opened]
    exact onPlan.function
  have delays : ∀ trace limit, (bench.opened inputs).graph.net.spendAll limit trace =
      bench.graph.net.spendAll limit trace := by
    intro trace limit
    rw [Circuit.spendAll, Circuit.spendAll, Circuit.delay_of_bare bare]
  unfold Graph.Course
  rw [opened]
  refine ⟨order, ?_, ?_, ?_⟩
  · rw [Net.regionOrder_of_bare bare, Net.entryPlaces_of_bare bare]
    exact ordered
  · rw [Circuit.actsOf, Net.transitions_of_bare bare]
    exact ((acts.trans (by rw [carryOut.nil])).trans (List.append_nil done)).symm
  · rw [delays, onPlan.spent]
    rfl

end OnPlan

namespace Acting

variable {left rest : Option Nat} {steps : List PlanStep} {id : String} {job : Job}

theorem keeps
    (acting : Acting layout cards connections bench inputs done left engine found id job steps) :
    engine.Keeps layout cards connections := by
  cases acting with
  | begin onPlan held =>
      obtain ⟨graph, held, sound, layered⟩ := onPlan.keeps
      exact ⟨graph, held, sound, layered⟩

/-- A step of a plan that ends well has been done. -/
theorem finish (setting : Setting cards connections)
    (acting : Acting layout cards connections bench inputs done left engine found id job steps)
    {value : Value} {board : Board} (finished : job.finish engine.board = (.ok value, board))
    (timely : spend left job.delay = some rest) :
    ({ engine with board := board } : Engine).OnPlan layout cards connections found bench inputs
      (done ++ [id]) rest steps := by
  cases acting with
  | @begin before graph past id action steps onPlan held =>
      obtain ⟨order, path, ordered, acts, carryOut⟩ := onPlan.path
      obtain ⟨later, onward, known, first⟩ := carryOut.cons
      obtain ⟨laid, -, ready⟩ := onPlan.sound.ready
      have played : action.play before.board = some board := by
        rw [Action.play, Action.act, finished]
      have bare := (Graph.bare_spent (bench.opened inputs).graph done).trans
        (bench.bare_opened inputs)
      obtain rfl := Option.some.inj (held.symm.trans onPlan.graph)
      have opened : (bench.opened inputs).graph.mode = .function := by
        rw [Bench.graph_opened]
        exact onPlan.function
      refine ⟨onPlan.toEngaged.act setting held ?_ played ?_ rfl, onPlan.function, ?_, order, later,
        ordered, ?_, onward⟩
      · rw [Net.transitions_of_bare bare]
        exact known
      · rw [Graph.spent_function opened] at held ⊢
        exact held
      · rw [Circuit.spendAll_append, onPlan.spent, Option.bind_some, Circuit.spendAll_cons,
          Circuit.delay, known]
        rw [Action.delay_begin (ready.draws.functional setting.functions known)] at timely
        change (spend left action.delay).bind _ = _
        rw [timely]
        rfl
      · rw [acts, first, List.append_assoc]
        rfl

end Acting

end Engine

end CardNet
