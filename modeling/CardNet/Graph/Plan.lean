import CardNet.Graph.Circuit
import CardNet.Net.Region

/-!
# Plans

A plan runs a region of a circuit in order, without tokens: it acts for every transition and
notes the value of every place that shows one. A region that several entries share is run once.
-/

namespace CardNet

/-- One step of a plan. -/
inductive PlanStep where
  | act (id : String) (action : Action)
  | read (id : String) (content : Content)

/-- The node that a step stands for. -/
def PlanStep.id : PlanStep → String
  | act id _ => id
  | read id _ => id

/-- A region of a circuit in the order in which it is run. -/
structure Plan where
  entries : List String
  steps : List PlanStep

/-- How the run of a plan ends. -/
inductive Walk where
  | finished (results : Values)
  | failed (error : FiringError)
  | dropped
deriving Inhabited

/-- What is left of a time limit after a wait, or nothing when the wait is longer. -/
def spend (limit : Option Nat) (delay : Nat) : Option (Option Nat) :=
  match limit with
  | none => some none
  | some milliseconds => if delay ≤ milliseconds then some (some (milliseconds - delay)) else none

namespace Plan

/-- The first entry. -/
def entry (plan : Plan) : String := plan.entries.headD ""

/-- The nodes in the order in which they are run. -/
def order (plan : Plan) : List String := plan.steps.map PlanStep.id

/-- The step for a node; a place that shows no value needs none. -/
def step? (net : Circuit) (id : String) : Except RegionError (Option PlanStep) :=
  match net.transitions.get? id with
  | some action => .ok (some (.act id action))
  | none =>
      match net.place? id with
      | some place => .ok ((place.content.filter Content.isReadable).map (.read id))
      | none => .error (.unknownNode id)

/-- The plan that runs the nodes of a path. -/
def ofPath (net : Circuit) (entries path : List String) : Except RegionError Plan :=
  (path.mapM (step? net)).map fun steps => ⟨entries, steps.filterMap id⟩

/-- The plan of the region of some entries. -/
def ofEntries (net : Circuit) (entries : List String) : Except RegionError Plan :=
  match net.regionOrder entries with
  | .error reason => .error reason
  | .ok path => ofPath net entries path

/-- Run steps within a time limit, adding to the results that there are. -/
def runSteps (limit : Option Nat) : List PlanStep → Values → Board → Walk × Board
  | [], results, board => (.finished results, board)
  | .act id action :: rest, results, board =>
      let (job, board) := action.begin [] board
      match spend limit job.delay with
      | none => (.dropped, board)
      | some limit =>
          match job.finish board with
          | (.error message, board) => (.failed (.actionFailed id message), board)
          | (.ok value, board) => runSteps limit rest (results.insert id value) board
  | .read id content :: rest, results, board =>
      match content.value? board with
      | some value => runSteps limit rest (results.insert id value) board
      | none => runSteps limit rest results board

/-- Run a plan within a time limit; the inputs are the first results. -/
def run (plan : Plan) (limit : Option Nat) (inputs : Values) (board : Board) : Walk × Board :=
  runSteps limit plan.steps inputs board

end Plan

end CardNet
