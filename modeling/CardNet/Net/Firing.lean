import CardNet.Net.Basic

/-!
# Firing

A transition may fire when it exists, an arc leads to it, and every place before it holds the
weight of its arc. Firing happens in two parts: the tokens before the transition are taken and
its action starts (`begin`); when the action has ended well the tokens behind the transition
are put down (`commit`), and otherwise, or when the firing is given up, the taken tokens go back
(`rollback`).
-/

namespace CardNet

/-- What one arc into a transition lacks. -/
inductive Shortfall where
  | absent (place : String)
  | few (place : String) (current required : Nat)
deriving DecidableEq

/-- The text of a shortfall. -/
def Shortfall.message : Shortfall → String
  | absent place => s!"input place {place} does not exist"
  | few place current required =>
      s!"place {place} has too few tokens (current: {current}, required: {required})"

/-- Why a transition may not fire. -/
inductive Blocked where
  | missing (transition : String)
  | unfed (transition : String)
  | short (shortfalls : List Shortfall)
  | vanished
deriving DecidableEq

/-- The text of a reason not to fire. -/
def Blocked.message : Blocked → String
  | missing transition => s!"transition {transition} does not exist"
  | unfed transition => s!"transition {transition} has no input connections"
  | short shortfalls => String.intercalate "; " (shortfalls.map Shortfall.message)
  | vanished => "transition vanished"

/-- Why a firing did not succeed. -/
inductive FiringError where
  | notEnabled (transition : String) (reason : Blocked)
  | actionFailed (transition : String) (cause : String)
deriving DecidableEq

namespace FiringError

/-- The transition that was to fire. -/
def transition : FiringError → String
  | notEnabled transition _ => transition
  | actionFailed transition _ => transition

/-- The text of a firing error. -/
def message : FiringError → String
  | notEnabled transition reason => s!"cannot fire transition {transition}: {reason.message}"
  | actionFailed transition cause => s!"transition {transition} failed: {cause}"

end FiringError

/-- A firing that has taken its tokens. -/
structure Firing (α : Type) where
  transition : String
  action : α
  inputs : List Arc
  outputs : List Arc

namespace Net

variable {κ α : Type}

/-- What an arc into a transition lacks under the present marking. -/
def shortfall? (net : Net κ α) (arc : Arc) : Option Shortfall :=
  match net.tokens? arc.source with
  | none => some (.absent arc.source)
  | some tokens =>
      if tokens < arc.weight then some (.few arc.source tokens arc.weight) else none

/-- The reason why a transition may not fire, or nothing when it may. -/
def blocked? (net : Net κ α) (transition : String) : Option Blocked :=
  if !net.transitions.contains transition then some (.missing transition)
  else if (net.arcsInto transition).isEmpty then some (.unfed transition)
  else
    match (net.arcsInto transition).filterMap net.shortfall? with
    | [] => none
    | shortfalls => some (.short shortfalls)

/-- Whether a transition may fire. -/
def isEnabled (net : Net κ α) (transition : String) : Bool :=
  (net.blocked? transition).isNone

/-- The transitions that may fire, in order of entry. -/
def enabledTransitions (net : Net κ α) : List String :=
  net.transitions.names.filter net.isEnabled

/-- Take the weight of each arc from its source. -/
def deduct (net : Net κ α) (arcs : List Arc) : Net κ α :=
  arcs.foldl (fun net arc => net.modifyTokens arc.source (· - arc.weight)) net

/-- Give the weight of each arc back to its source. -/
def refund (net : Net κ α) (arcs : List Arc) : Net κ α :=
  arcs.foldl (fun net arc => net.modifyTokens arc.source (· + arc.weight)) net

/-- Put the weight of each arc on its target. -/
def credit (net : Net κ α) (arcs : List Arc) : Net κ α :=
  arcs.foldl (fun net arc => net.modifyTokens arc.target (· + arc.weight)) net

/-- Begin to fire a transition: check it, then take its tokens. -/
def begin (net : Net κ α) (transition : String) :
    Except FiringError (Firing α × Net κ α) :=
  match net.blocked? transition with
  | some reason => .error (.notEnabled transition reason)
  | none =>
      match net.transitions.get? transition with
      | none => .error (.notEnabled transition .vanished)
      | some action =>
          let firing := ⟨transition, action, net.arcsInto transition, net.arcsFrom transition⟩
          .ok (firing, net.deduct firing.inputs)

/-- End a firing whose action succeeded. -/
def commit (net : Net κ α) (firing : Firing α) : Net κ α := net.credit firing.outputs

/-- End a firing whose action failed or was given up. -/
def rollback (net : Net κ α) (firing : Firing α) : Net κ α := net.refund firing.inputs

end Net

end CardNet
