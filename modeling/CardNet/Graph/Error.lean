import CardNet.Graph.Plan
import CardNet.Text.Duration
import CardNet.Text.Quoted

/-!
# Errors

Every reason why building, editing or running a graph fails, and the texts of these reasons.
-/

namespace CardNet

/-- Why an operation on a graph or an engine failed. -/
inductive Failure where
  | net (error : NetError)
  /-- A place stands for another anchor, or for no anchor, already. -/
  | collision (place : String) (bound : Option Endpoint) (wanted : Endpoint)
  | invalidPlaceKind (text : String)
  | invalidMode (text : String)
  | firing (error : FiringError)
  | region (error : RegionError)
  | notBuilt
  | timeout (task : String) (milliseconds : Nat)
  | schedulerClosed
  | card (id : String) (cause : String)
  /-- A run fired more often than it may. -/
  | runaway (limit : Nat)
  /-- A place was given a value that it cannot hold. -/
  | noInput (place : String)
  | execution (text : String)
deriving DecidableEq

/-- The text of a failure. -/
def Failure.message : Failure → String
  | net error => error.message
  | collision place bound wanted =>
      let holder := (bound.map Endpoint.text).getD "another node"
      s!"place {place} is already bound to {holder}, cannot bind {wanted.text}"
  | invalidPlaceKind text =>
      s!"invalid place kind {Text.quote text} (expected start, process or end)"
  | invalidMode text =>
      s!"invalid execution mode {Text.quote text} (expected visual or function)"
  | firing error => error.message
  | region error => error.message
  | notBuilt => "petri net has not been built"
  | timeout task milliseconds => s!"task {task} timed out after {Text.duration milliseconds}"
  | schedulerClosed => "transition scheduler is closed"
  | card id cause => s!"card {id} failed: {cause}"
  | runaway limit =>
      s!"execution error: run exceeded {limit} firings; the net may contain a cycle"
  | noInput place => s!"execution error: place {place} does not accept input"
  | execution text => s!"execution error: {text}"

/-- The text of what lies behind a failure, if that is an error of its own. -/
def Failure.cause? : Failure → Option String
  | firing (.actionFailed _ cause) => some cause
  | card _ cause => some cause
  | _ => none

/-- Read the kind of a place. -/
def PlaceKind.parse (text : String) : Except Failure PlaceKind :=
  match PlaceKind.ofName? text with
  | some kind => .ok kind
  | none => .error (.invalidPlaceKind text)

end CardNet
