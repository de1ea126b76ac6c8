import CardNet.Engine.Task

/-!
# Sessions

A session is an engine with a single caller: every call is over before the next one begins, and
so is every task. A visual run fires the transitions in order, pass after pass, until a pass
fires nothing; it is given up when it has fired more often than it may (`Session.firePasses`).
A run of function mode follows the plan.
-/

namespace CardNet

/-- An engine with the tally of the tasks that were done on it. -/
structure Session where
  engine : Engine
  tally : Tally

namespace Session

/-- A session on an engine without a graph. -/
def idle (config : EngineConfig) (board : Board) : Session := ⟨.idle config board, .zero⟩

/-- Request a task and wait for its result. -/
def request (session : Session) (request : Request Task) : Except Failure Value × Session :=
  let limit := session.engine.config.taskTimeout
  let (outcome, engine) := session.engine.perform limit request.task
  let result := outcome.getD (.error (.timeout request.label (limit.getD 0)))
  let tally := { session.tally with submitted := session.tally.submitted + 1 }
  (result, ⟨engine, tally.count result⟩)

/-- Whether the answer of a firing says that the transition fired. -/
def hasFired : Value → Bool
  | .bool fired => fired
  | _ => false

/-- Try transitions in order when some firings are done already; answers with the number of
firings. A run is given up as soon as it has fired more often than its limit. -/
def firePass (limit : Nat) : List String → Nat → Session → Except Failure Nat × Session
  | [], fired, session => (.ok fired, session)
  | transition :: rest, fired, session =>
      match session.request (Task.firing transition) with
      | (.error failure, session) => (.error failure, session)
      | (.ok answer, session) =>
          if hasFired answer then
            if limit < fired + 1 then (.error (.runaway limit), session)
            else firePass limit rest (fired + 1) session
          else firePass limit rest fired session

/-- A pass that fires stays within the limit. -/
theorem firePass_le {limit fired total : Nat} {transitions : List String}
    {session after : Session}
    (done : firePass limit transitions fired session = (.ok total, after)) :
    total = fired ∨ fired < total ∧ total ≤ limit := by
  induction transitions generalizing fired session with
  | nil =>
      simp only [firePass, Prod.mk.injEq, Except.ok.injEq] at done
      exact .inl done.1.symm
  | cons transition rest ih =>
      unfold firePass at done
      split at done
      · simp at done
      · split at done
        · split at done
          · simp at done
          · next within =>
              have bound := ih done
              omega
        · exact ih done

/-- Fire transitions, pass after pass, until a pass fires nothing. -/
def firePasses (limit fired : Nat) (session : Session) : Except Failure Nat × Session :=
  match session.engine.transitions with
  | .error failure => (.error failure, session)
  | .ok transitions =>
      match _pass : firePass limit transitions fired session with
      | (.error failure, session) => (.error failure, session)
      | (.ok total, session) =>
          if _ : total = fired then (.ok fired, session)
          else firePasses limit total session
termination_by limit - fired
decreasing_by
  have bound := firePass_le ‹_›
  omega

/-- Follow the plan of all entry places; without one there are no results. -/
def followPlan (inputs : Values) (session : Session) : Except Failure Values × Session :=
  match session.engine.plan with
  | .error failure => (.error failure, session)
  | .ok none => (.ok ∅, session)
  | .ok (some plan) =>
      let (result, session) := session.request (Task.planRun plan inputs)
      (result.map Value.asValues, session)

/-- Close a run. -/
def close (session : Session) (inputs : Values) (results : Option Values) :
    Except Failure Values × Session :=
  let (result, engine) := session.engine.close inputs results
  (result, { session with engine := engine })

/-- Run the graph once it is clear how. -/
def carryOut (session : Session) (opening : Opening) : Except Failure Values × Session :=
  match opening with
  | .recorded outputs => (.ok outputs, session)
  | .firings inputs =>
      match firePasses session.engine.config.maxFirings 0 session with
      | (.error failure, session) => (.error failure, session)
      | (.ok _, session) => session.close inputs none
  | .plan inputs =>
      match session.followPlan inputs with
      | (.error failure, session) => (.error failure, session)
      | (.ok results, session) => session.close inputs (some results)

/-- Run the graph, or answer from the records. -/
def run (session : Session) (inputs : Values) (force : Bool) : Except Failure Values × Session :=
  match session.engine.opening inputs force with
  | (.error failure, engine) => (.error failure, { session with engine := engine })
  | (.ok opening, engine) => { session with engine := engine }.carryOut opening

/-- Run the graph and answer with its outputs. What is recorded is not used again after a
failure. -/
def exec (session : Session) (inputs : Values) (force : Bool) : Except Failure Values × Session :=
  match session.run inputs force with
  | (.ok outputs, session) => (.ok outputs, session)
  | (.error failure, session) =>
      (.error failure, { session with engine := session.engine.forget })

/-- Build a graph and take it over; answers with its summary. -/
def build (session : Session) (config : GraphConfig) (cards : List Card)
    (globals : Option Values) : Except Failure Report × Session :=
  match session.engine.build config cards globals with
  | (.error failure, engine) => (.error failure, { session with engine := engine })
  | (.ok graph, engine) => (.ok graph.report, { session with engine := engine.install graph })

/-- Do the work of a node. -/
def executeNode (session : Session) (id : String) (inputs : Values) :
    Except Failure Value × Session :=
  match session.engine.nodeRequest id inputs with
  | .error failure => (.error failure, session)
  | .ok request => session.request request

/-- Set the value of a place. -/
def setInput (session : Session) (place : String) (value : Value) :
    Except Failure Unit × Session :=
  let (result, session) := session.request (Task.userInput place value)
  (result.map fun _ => (), session)

/-- Add a connection; answers with its id. -/
def addConnection (session : Session) (connection : Connection) :
    Except Failure String × Session :=
  let (result, engine) := session.engine.addConnection connection
  (result, { session with engine := engine })

/-- Remove a connection; answers whether there was one of the id. -/
def removeConnection (session : Session) (id : String) : Except Failure Bool × Session :=
  let (result, engine) := session.engine.removeConnection id
  (result, { session with engine := engine })

/-- Give up the graph and the records. -/
def discard (session : Session) : Session :=
  { session with engine := session.engine.discard }

end Session

end CardNet
