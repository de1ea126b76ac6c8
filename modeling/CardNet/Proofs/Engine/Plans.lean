import CardNet.Proofs.Engine.Firings
import CardNet.Proofs.Net.Region
import CardNet.Proofs.Value.Related

/-!
# Runs by plans

A plan acts for the transitions of its path and reads places in between, which changes nothing.
So a run by the plan is a play of these transitions on the board
(`Session.followPlan_of_playAll`, `Session.playAll_of_followPlan`). Plans do not look at tokens
(`Plan.ofEntries_of_bare`).
-/

namespace CardNet

/-- The transitions of a path, in order. -/
def Circuit.actsOf (net : Circuit) (path : List String) : List String :=
  path.filter net.transitions.contains

/-- What is left of a time limit after the actions of transitions, or nothing when one of them takes
too long. -/
def Circuit.spendAll (net : Circuit) (limit : Option Nat) (trace : List String) :
    Option (Option Nat) :=
  trace.foldlM (fun limit transition => spend limit (net.delay transition)) limit

theorem Circuit.spendAll_cons (net : Circuit) (limit : Option Nat) (transition : String)
    (rest : List String) : net.spendAll limit (transition :: rest) =
      (spend limit (net.delay transition)).bind fun limit => net.spendAll limit rest := rfl

theorem Circuit.spendAll_append (net : Circuit) (limit : Option Nat) (first second : List String) :
    net.spendAll limit (first ++ second) =
      (net.spendAll limit first).bind fun limit => net.spendAll limit second := by
  rw [spendAll, List.foldlM_append]
  rfl

/-- Without a time limit nothing takes too long. -/
theorem Circuit.spendAll_none (net : Circuit) (trace : List String) :
    net.spendAll none trace = some none := by
  induction trace with
  | nil => rfl
  | cons transition rest ih => rw [spendAll_cons, spend, Option.bind_some, ih]

/-- How a step leads from what is left of a path to what is left behind the step. -/
def PlanStep.Leads (net : Circuit) (path later : List String) : PlanStep → Prop
  | .act id action =>
      net.transitions.get? id = some action ∧ net.actsOf path = id :: net.actsOf later
  | .read _ _ => net.actsOf path = net.actsOf later

namespace Plan

/-- The transitions whose actions are begun when steps are run within a time limit, in order. -/
def begun (limit : Option Nat) : List PlanStep → Board → List String
  | [], _ => []
  | .act id action :: rest, board =>
      let (job, board) := action.begin [] board
      id ::
        match spend limit job.delay with
        | none => []
        | some limit =>
            match job.finish board with
            | (.error _, _) => []
            | (.ok _, board) => begun limit rest board
  | .read _ _ :: rest, board => begun limit rest board

variable {net : Circuit} {path : List String} {steps : List (Option PlanStep)}

theorem mapM_cons_eq_ok {node : String} {rest : List String}
    (made : (node :: rest).mapM (step? net) = .ok steps) :
    ∃ first later, step? net node = .ok first ∧ rest.mapM (step? net) = .ok later ∧
      steps = first :: later := by
  rw [List.mapM_cons] at made
  cases one : step? net node with
  | error reason =>
      rw [one] at made
      cases made
  | ok first =>
      cases others : rest.mapM (step? net) with
      | error reason =>
          rw [one, others] at made
          cases made
      | ok later =>
          rw [one, others] at made
          cases made
          exact ⟨first, later, rfl, rfl, rfl⟩

/-- The step for a node acts when the node is a transition, and otherwise reads at most. -/
private theorem step?_cases {node : String} {step : Option PlanStep}
    (made : step? net node = .ok step) :
    (∃ action, net.transitions.get? node = some action ∧ step = some (.act node action) ∧
      ∀ rest, net.actsOf (node :: rest) = node :: net.actsOf rest) ∨
    ((step = none ∨ ∃ content, step = some (.read node content)) ∧
      ∀ rest, net.actsOf (node :: rest) = net.actsOf rest) := by
  unfold step? at made
  split at made
  · next action found =>
      cases made
      refine .inl ⟨action, found, rfl, fun rest => List.filter_cons_of_pos ?_⟩
      exact Registry.contains_eq_true.mpr (Registry.mem_names_of_get? found)
  · next absent =>
      have unknown : ¬net.transitions.contains node = true := fun known =>
        Registry.get?_eq_none_iff.mp absent (Registry.contains_eq_true.mp known)
      refine .inr ⟨?_, fun rest => List.filter_cons_of_neg unknown⟩
      split at made
      · next place found =>
          cases made
          cases place.content.filter Content.isReadable with
          | none => exact .inl rfl
          | some content => exact .inr ⟨content, rfl⟩
      · cases made

/-- Steps that carry out what is left of a path. -/
def CarryOut (net : Circuit) (path : List String) (steps : List PlanStep) : Prop :=
  ∃ made, path.mapM (step? net) = .ok made ∧ steps = made.filterMap id

theorem CarryOut.nil (left : CarryOut net path []) : net.actsOf path = [] := by
  obtain ⟨made, mapped, none⟩ := left
  induction path generalizing made with
  | nil => rfl
  | cons node rest ih =>
      obtain ⟨first, later, one, others, rfl⟩ := mapM_cons_eq_ok mapped
      rcases step?_cases one with ⟨action, -, rfl, -⟩ | ⟨reads, acts⟩
      · cases none
      · rw [acts]
        rcases reads with rfl | ⟨content, rfl⟩
        · exact ih later others none
        · cases none

/-- The first of the steps carries out the next transition, or reads the next place that shows a
value. -/
theorem CarryOut.cons {step : PlanStep} {rest : List PlanStep}
    (left : CarryOut net path (step :: rest)) :
    ∃ later, CarryOut net later rest ∧ step.Leads net path later := by
  obtain ⟨made, mapped, same⟩ := left
  induction path generalizing made with
  | nil =>
      cases mapped
      cases same
  | cons node nodes ih =>
      obtain ⟨first, later, one, others, rfl⟩ := mapM_cons_eq_ok mapped
      rcases step?_cases one with ⟨action, found, rfl, acts⟩ | ⟨reads, acts⟩
      · cases same
        exact ⟨nodes, ⟨later, others, rfl⟩, found, acts nodes⟩
      · rcases reads with rfl | ⟨content, rfl⟩
        · obtain ⟨later, left, leads⟩ := ih later others same
          refine ⟨later, left, ?_⟩
          cases step with
          | act => exact ⟨leads.1, (acts nodes).trans leads.2⟩
          | read => exact (acts nodes).trans leads
        · cases same
          exact ⟨nodes, ⟨later, others, rfl⟩, acts nodes⟩

private theorem play_eq {id : String} {action : Action} {board : Board}
    (found : net.transitions.get? id = some action) :
    net.play id board =
      match (action.begin [] board).1.finish (action.begin [] board).2 with
      | (.ok _, board) => some board
      | (.error _, _) => none := by
  rw [Circuit.play, found, Option.bind_some]
  rfl

private theorem delay_eq {id : String} {action : Action} (functional : net.Functional)
    (found : net.transitions.get? id = some action) (board : Board) :
    net.delay id = (action.begin [] board).1.delay := by
  rw [Action.delay_begin (functional id action found), Circuit.delay, found]
  rfl

/-- Steps are run to their end when the actions of their transitions succeed and do not take too
long. -/
theorem runSteps_of_playAll (functional : net.Functional) {limit : Option Nat}
    (made : path.mapM (step? net) = .ok steps)
    (timely : (net.spendAll limit (net.actsOf path)).isSome) (results : Values)
    {board after : Board} (played : net.playAll (net.actsOf path) board = some after) :
    ∃ noted, runSteps limit (steps.filterMap id) results board = (.finished noted, after) := by
  induction path generalizing limit steps results board with
  | nil =>
      cases made
      cases played
      exact ⟨results, rfl⟩
  | cons node rest ih =>
      obtain ⟨first, later, one, others, rfl⟩ := mapM_cons_eq_ok made
      rcases step?_cases one with ⟨action, found, rfl, acts⟩ | ⟨reads, acts⟩
      · rw [acts, Circuit.playAll_cons, play_eq found, Option.bind_eq_some_iff] at played
        obtain ⟨next, done, more⟩ := played
        rw [acts, Circuit.spendAll_cons, delay_eq functional found board] at timely
        simp only [List.filterMap_cons, id_eq, runSteps]
        cases spent : spend limit (action.begin [] board).1.delay with
        | none =>
            rw [spent] at timely
            cases timely
        | some left =>
            rw [spent] at timely
            split at done
            · next value board finished =>
                cases done
                simp only [finished]
                exact ih others timely _ more
            · cases done
      · rw [acts] at played timely
        rcases reads with rfl | ⟨content, rfl⟩
        · exact ih others timely _ played
        · simp only [List.filterMap_cons, id_eq, runSteps]
          cases content.value? board with
          | none => exact ih others timely _ played
          | some value => exact ih others timely _ played

/-- When steps are run to their end, all their actions were begun and succeeded, and did not take
too long. -/
theorem playAll_of_runSteps {limit : Option Nat} (made : path.mapM (step? net) = .ok steps)
    {results noted : Values} {board after : Board}
    (done : runSteps limit (steps.filterMap id) results board = (.finished noted, after)) :
    net.playAll (net.actsOf path) board = some after ∧
      begun limit (steps.filterMap id) board = net.actsOf path ∧
      (net.Functional → (net.spendAll limit (net.actsOf path)).isSome) := by
  induction path generalizing limit steps results board with
  | nil =>
      cases made
      cases done
      exact ⟨rfl, rfl, fun _ => rfl⟩
  | cons node rest ih =>
      obtain ⟨first, later, one, others, rfl⟩ := mapM_cons_eq_ok made
      rcases step?_cases one with ⟨action, found, rfl, acts⟩ | ⟨reads, acts⟩
      · simp only [List.filterMap_cons, id_eq, runSteps] at done
        split at done
        · cases done
        · next left inTime =>
            split at done
            · cases done
            · next value next finished =>
                obtain ⟨more, log, timely⟩ := ih others done
                rw [acts, Circuit.playAll_cons, play_eq found]
                simp only [List.filterMap_cons, id_eq, begun, inTime, finished]
                refine ⟨more, congrArg (node :: ·) log, fun functional => ?_⟩
                rw [Circuit.spendAll_cons, delay_eq functional found board, inTime]
                exact timely functional
      · rw [acts]
        rcases reads with rfl | ⟨content, rfl⟩
        · exact ih others done
        · simp only [List.filterMap_cons, id_eq, runSteps] at done
          simp only [List.filterMap_cons, id_eq, begun]
          split at done
          · exact ih others done
          · exact ih others done

theorem ofPath_eq_ok {entries : List String} {plan : Plan}
    (made : ofPath net entries path = .ok plan) :
    ∃ steps, path.mapM (step? net) = .ok steps ∧ plan.steps = steps.filterMap id := by
  unfold ofPath at made
  cases mapped : path.mapM (step? net) with
  | error reason =>
      rw [mapped] at made
      cases made
  | ok steps =>
      rw [mapped] at made
      cases made
      exact ⟨steps, rfl, rfl⟩

/-- Known nodes have a plan. -/
theorem exists_ofPath (entries : List String)
    (known : ∀ node ∈ path, node ∈ net.nodes) : ∃ plan, ofPath net entries path = .ok plan := by
  suffices steps : ∃ steps, path.mapM (step? net) = .ok steps by
    obtain ⟨steps, made⟩ := steps
    exact ⟨_, by rw [ofPath, made]; rfl⟩
  induction path with
  | nil => exact ⟨[], rfl⟩
  | cons node rest ih =>
      obtain ⟨later, made⟩ := ih fun other member => known other (List.mem_cons_of_mem _ member)
      obtain ⟨step, first⟩ : ∃ step, step? net node = .ok step := by
        unfold step?
        split
        · exact ⟨_, rfl⟩
        · next absent =>
            have place : node ∈ net.places.names :=
              (List.mem_append.mp (known node (List.mem_cons_self ..))).resolve_right
                (Registry.get?_eq_none_iff.mp absent)
            obtain ⟨held, found⟩ := Registry.exists_get?_of_mem_names place
            rw [show net.place? node = some held from found]
            exact ⟨_, rfl⟩
      exact ⟨step :: later, by rw [List.mapM_cons, first, made]; rfl⟩

theorem ofEntries_eq_ok {entries : List String} {plan : Plan}
    (made : ofEntries net entries = .ok plan) :
    ∃ order, net.regionOrder entries = .ok order ∧ ofPath net entries order = .ok plan := by
  unfold ofEntries at made
  split at made
  · cases made
  · next order found => exact ⟨order, found, made⟩

/-! ## Tokens -/

theorem step?_of_bare {first second : Circuit} (same : first.bare = second.bare) :
    step? first = step? second := by
  funext id
  have places : (first.place? id).map Place.content = (second.place? id).map Place.content := by
    have held := congrArg (fun net : Circuit => (net.place? id).map Place.content) same
    simpa [Net.place?, Net.bare, Function.comp_def] using held
  unfold step?
  rw [Net.transitions_of_bare same]
  split
  · rfl
  · cases left : first.place? id with
    | none =>
        rw [left, Option.map_none] at places
        rw [Option.map_eq_none_iff.mp places.symm]
    | some one =>
        rw [left, Option.map_some] at places
        obtain ⟨two, right, content⟩ := Option.map_eq_some_iff.mp places.symm
        rw [right]
        simp only [content]

/-- The plan of some entries does not depend on tokens. -/
theorem ofEntries_of_bare {first second : Circuit} (same : first.bare = second.bare) :
    ofEntries first = ofEntries second := by
  funext entries
  simp only [ofEntries, ofPath, step?_of_bare same, Net.regionOrder_of_bare same]

end Plan

theorem Value.asValues_ofValues (values : Values) : (ofValues values).asValues = values :=
  values.ofPairs_toList

namespace Session

variable {session : Session} {graph : Graph} {plan : Plan}

private theorem plan_eq (held : session.engine.graph = some graph) :
    session.engine.plan = .ok graph.plan := by
  rw [Engine.plan, Engine.bench_eq held]
  rfl

/-- Without a plan nothing is done. -/
theorem followPlan_of_none (held : session.engine.graph = some graph)
    (none : graph.plan = none) (inputs : Values) :
    session.followPlan inputs = (.ok ∅, session) := by
  rw [followPlan, plan_eq held, none]

/-- The plan is followed when the actions of its transitions succeed and do not take too long. -/
theorem followPlan_of_playAll {net : Circuit} {entries path : List String}
    (held : session.engine.graph = some graph) (functional : net.Functional)
    (timely : (net.spendAll session.engine.config.taskTimeout (net.actsOf path)).isSome)
    (some' : graph.plan = some plan) (made : Plan.ofPath net entries path = .ok plan)
    {inputs : Values} {board : Board}
    (played : net.playAll (net.actsOf path) session.engine.board = some board) :
    ∃ noted tally, session.followPlan inputs =
      (.ok noted, ⟨{ session.engine with board := board }, tally⟩) := by
  obtain ⟨steps, mapped, same⟩ := Plan.ofPath_eq_ok made
  obtain ⟨noted, done⟩ :=
    Plan.runSteps_of_playAll functional mapped timely inputs played
  rw [followPlan, plan_eq held, some']
  simp only [request, Task.planRun, Engine.perform, Plan.run, same, done, Engine.ofWalk]
  exact ⟨_, _, rfl⟩

/-- When the plan is followed to its end, it is run to its end, and of the engine this changes the
board only. -/
theorem run_of_followPlan (held : session.engine.graph = some graph)
    (some' : graph.plan = some plan) {inputs noted : Values} {after : Session}
    (followed : session.followPlan inputs = (.ok noted, after)) :
    plan.run session.engine.config.taskTimeout inputs session.engine.board =
        (.finished noted, after.engine.board) ∧
      after.engine = { session.engine with board := after.engine.board } := by
  rw [followPlan, plan_eq held, some'] at followed
  simp only [request, Task.planRun, Engine.perform] at followed
  rcases walked : plan.run session.engine.config.taskTimeout inputs session.engine.board with
    ⟨results | error | _, board⟩
  · rw [walked] at followed
    obtain ⟨same, rfl⟩ := Prod.mk.inj followed
    obtain rfl := Except.ok.inj same
    exact ⟨by rw [Value.asValues_ofValues], rfl⟩
  · rw [walked] at followed
    cases followed
  · rw [walked] at followed
    cases followed

/-- When the plan is followed to its end, the actions of its transitions were all begun and
succeeded, and did not take too long. -/
theorem playAll_of_followPlan {net : Circuit} {entries path : List String}
    (held : session.engine.graph = some graph) (some' : graph.plan = some plan)
    (made : Plan.ofPath net entries path = .ok plan) {inputs noted : Values} {after : Session}
    (followed : session.followPlan inputs = (.ok noted, after)) :
    net.playAll (net.actsOf path) session.engine.board = some after.engine.board ∧
      after.engine = { session.engine with board := after.engine.board } ∧
      Plan.begun session.engine.config.taskTimeout plan.steps session.engine.board =
        net.actsOf path ∧
      (net.Functional →
        (net.spendAll session.engine.config.taskTimeout (net.actsOf path)).isSome) := by
  obtain ⟨steps, mapped, same⟩ := Plan.ofPath_eq_ok made
  obtain ⟨walked, frame⟩ := run_of_followPlan held some' followed
  rw [Plan.run, same] at walked
  rw [same]
  obtain ⟨played, log, timely⟩ := Plan.playAll_of_runSteps mapped walked
  exact ⟨played, frame, log, timely⟩

/-- However following the plan ends, of the engine it changes the board only. -/
theorem followPlan_frame (held : session.engine.graph = some graph) (inputs : Values) :
    ∃ board, (session.followPlan inputs).2.engine = { session.engine with board := board } := by
  rw [followPlan, plan_eq held]
  cases graph.plan with
  | none => exact ⟨session.engine.board, rfl⟩
  | some plan => exact ⟨_, rfl⟩

end Session

end CardNet
