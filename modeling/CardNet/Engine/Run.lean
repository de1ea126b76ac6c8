import CardNet.Engine.Machine

/-!
# Runs by workers

The stages of a run, one by one. A run holds the run gate from its opening to its end, so that
no other run and no edit comes between; it takes the graph gate only for moments, so that the
firings that it requests, and those of others, can be served in between.
-/

namespace CardNet

namespace Machine

/-- Open a run inside the graph gate. -/
def openRun (worker : Nat) (inputs : Values) (force : Bool) (machine : Machine) :
    RunStage × Machine :=
  let (opening, machine) := machine.within worker fun engine => engine.opening inputs force
  match opening with
  | .error failure => (.leaving (.error failure), machine)
  | .ok (.recorded outputs) => (.leaving (.ok outputs), machine)
  | .ok (.firings inputs) => (.listing inputs 0, machine)
  | .ok (.plan inputs) => (.planning inputs, machine)

/-- List the transitions of the next pass inside the graph gate. -/
def listPass (worker : Nat) (inputs : Values) (fired : Nat) (machine : Machine) :
    RunStage × Machine :=
  let (transitions, machine) := machine.within worker fun engine => (engine.transitions, engine)
  match transitions with
  | .error failure => (.leaving (.error failure), machine)
  | .ok transitions => (.passing inputs fired false transitions, machine)

/-- Try the next transition of a pass; after the last one begin the next pass, or close the run
when nothing has fired. -/
def tryNext (machine : Machine) (inputs : Values) (fired : Nat) (progressed : Bool) :
    List String → RunStage × Machine
  | [] => (if progressed then .listing inputs fired else .closing inputs none, machine)
  | transition :: rest =>
      match machine.send (Task.firing transition) with
      | (.error failure, machine) => (.leaving (.error failure), machine)
      | (.ok ticket, machine) => (.firing inputs fired progressed rest ticket, machine)

/-- What the answer of a firing means for a run. -/
def afterFiring (limit : Nat) (inputs : Values) (fired : Nat) (progressed : Bool)
    (rest : List String) : Except Failure Value → RunStage
  | .error failure => .leaving (.error failure)
  | .ok (.bool true) =>
      if limit < fired + 1 then .leaving (.error (.runaway limit))
      else .passing inputs (fired + 1) true rest
  | .ok _ => .passing inputs fired progressed rest

/-- Look for the plan inside the graph gate. -/
def findPlan (worker : Nat) (inputs : Values) (machine : Machine) : RunStage × Machine :=
  let (plan, machine) := machine.within worker fun engine => (engine.plan, engine)
  match plan with
  | .error failure => (.leaving (.error failure), machine)
  | .ok none => (.closing inputs (some ∅), machine)
  | .ok (some plan) => (.planned inputs plan, machine)

/-- What the answer to the run of the plan means for a run. -/
def afterPlan (inputs : Values) : Except Failure Value → RunStage
  | .error failure => .leaving (.error failure)
  | .ok results => .closing inputs (some results.asValues)

/-- Close a run inside the graph gate. -/
def closeRun (worker : Nat) (inputs : Values) (results : Option Values) (machine : Machine) :
    RunStage × Machine :=
  let (result, machine) := machine.within worker fun engine => engine.close inputs results
  (.leaving result, machine)

/-- End a run outside the run gate. What is recorded is not used again after a failure. -/
def endRun (machine : Machine) (worker : Nat) (result : Except Failure Values) :
    RunStage × Machine :=
  let engine :=
    match result with
    | .ok _ => machine.engine
    | .error _ => machine.engine.forget
  (.over result, { machine with engine := engine }.leaveRun worker)

/-- One step of a run, if it is not held up and not over. -/
def stepRun (machine : Machine) (worker : Nat) (stage : RunStage) :
    Option (RunStage × Machine) :=
  match stage with
  | .arriving inputs force =>
      machine.atRunGate worker stage fun machine => (.opening inputs force, machine)
  | .opening inputs force => machine.atGraphGate worker stage (openRun worker inputs force)
  | .listing inputs fired => machine.atGraphGate worker stage (listPass worker inputs fired)
  | .passing inputs fired progressed rest => some (machine.tryNext inputs fired progressed rest)
  | .firing inputs fired progressed rest ticket =>
      let limit := machine.engine.config.maxFirings
      (machine.scheduler.result? ticket).map fun result =>
        (afterFiring limit inputs fired progressed rest result, machine)
  | .planning inputs => machine.atGraphGate worker stage (findPlan worker inputs)
  | .planned inputs plan =>
      match machine.send (Task.planRun plan inputs) with
      | (.error failure, machine) => some (.leaving (.error failure), machine)
      | (.ok ticket, machine) => some (.walking inputs ticket, machine)
  | .walking inputs ticket =>
      (machine.scheduler.result? ticket).map fun result => (afterPlan inputs result, machine)
  | .closing inputs results => machine.atGraphGate worker stage (closeRun worker inputs results)
  | .leaving result => some (machine.endRun worker result)
  | .over _ => none

end Machine

end CardNet
