import CardNet.Engine.Worker

/-!
# Turns

A fair order in which the workers of a machine take turns. In a turn a worker takes steps until
it is held up. Workers other than callers stand in a queue in the order in which they joined the
machine or became able to step; those for whom the clock strikes at once keep the order in which
they set their alarms. The callers take their turns one after the other whenever nobody else is
able to step, and at the latest after `patience` turns of others. When nobody at all is able to
step, the clock jumps to the next time for which a worker waits.
-/

namespace CardNet

namespace Progress

/-- The time for which a task waits. -/
def wake? : Progress → Option Nat
  | firing _ wake _ => some wake
  | acting _ _ wake _ _ => some wake
  | visiting _ _ wake => some wake
  | _ => none

end Progress

namespace Worker

/-- The time for which a worker waits. -/
def wake? : Worker → Option Nat
  | caller (.pausing wake) => some wake
  | ticker ⟨_, _, due, _, _, .waiting⟩ => some due
  | _ => none

/-- Whether a worker is a caller. -/
def isCaller : Worker → Bool
  | caller _ => true
  | _ => false

end Worker

namespace Machine

/-- The workers that are no callers. -/
def background (machine : Machine) : List Nat :=
  server :: (machine.workers.toList.filter fun entry => !entry.2.isCaller).map Prod.fst

/-- The workers that wait for times, with the times. -/
def alarms (machine : Machine) : List (Nat × Nat) :=
  let service :=
    match machine.scheduler.service with
    | some service => service.deadline.toList ++ service.progress.wake?.toList
    | none => []
  service.map (server, ·) ++ machine.workers.toList.filterMap fun (number, worker) =>
    worker.wake?.map (number, ·)

/-- The next time for which a worker waits. -/
def nextAlarm? (machine : Machine) : Option Nat :=
  ((machine.alarms.map Prod.snd).filter fun alarm => machine.clock < alarm).min?

/-- Ask for something; answers with the number of the caller. -/
def call (machine : Machine) (call : Call) : Nat × Machine :=
  machine.enlist (.caller (.fresh call))

/-- The answer that a caller got, if it has one. -/
def answer? (machine : Machine) (number : Nat) : Option (Except Failure Answer) :=
  match machine.workers.get? number with
  | some (.caller (.answered result)) => some result
  | _ => none

/-- Let a worker go. -/
def release (machine : Machine) (number : Nat) : Machine :=
  { machine with workers := machine.workers.erase number }

/-- Change the board while no worker takes a step. -/
def onBoard (machine : Machine) (change : Board → Board) : Machine :=
  { machine with engine := { machine.engine with board := change machine.engine.board } }

end Machine

/-- A machine with the queue of the workers that are to take turns. -/
structure Roster where
  machine : Machine
  ready : List Nat
  /-- The alarms of the machine, in the order in which they were set. -/
  alarms : List (Nat × Nat)

/-- Whose turn it is. -/
inductive Turn where
  /-- The callers take turns; these are left. -/
  | callers (rest : List Nat)
  /-- The next in the queue is picked, after at most so many others. -/
  | pick (left : Nat)
  /-- A worker from the queue takes its turn. -/
  | worker (number : Nat) (left : Nat)

namespace Roster

/-- How many turns others may take before the callers. -/
def patience : Nat := 61

/-- A machine that has just been set up. -/
def idle (config : EngineConfig) (board : Board) : Roster :=
  ⟨.idle config board, [Machine.server], []⟩

/-- The workers that are no callers, those with alarms first. -/
def background (roster : Roster) : List Nat :=
  let workers := roster.machine.background
  ((roster.alarms.map Prod.fst).filter workers.contains ++ workers).eraseDups

/-- Note which alarms have been set and which are gone. -/
def noteAlarms (roster : Roster) : Roster :=
  let present := roster.machine.alarms
  let kept := roster.alarms.filter present.contains
  { roster with alarms := kept ++ present.filter fun alarm => !kept.contains alarm }

/-- Put the machine into a new state after a step of `busy` or between turns. Those who have
joined the machine, or have become able to step, join the queue. -/
def put (roster : Roster) (busy : Option Nat) (machine : Machine) : Roster :=
  let next := { roster with machine := machine }.noteAlarms
  let joining := next.background.filter fun number =>
    busy != some number && !roster.ready.contains number &&
      (roster.machine.nextWorker ≤ number || machine.canStep number)
  { next with ready := roster.ready ++ joining }

/-- Change the machine between turns. -/
def modify (roster : Roster) (change : Machine → Machine) : Roster :=
  roster.put none (change roster.machine)

/-- Whether all callers have their answers. -/
def allAnswered (roster : Roster) (callers : List Nat) : Bool :=
  callers.all fun number => (roster.machine.answer? number).isSome

/-- What happens when the queue is empty: the callers have turns, after the clock has jumped when
they are all held up. -/
def rest (roster : Roster) (callers : List Nat) : Option (Turn × Roster) :=
  if callers.any roster.machine.canStep then some (.callers callers, roster)
  else
    roster.machine.nextAlarm?.map fun alarm =>
      (.callers callers, roster.modify fun machine => { machine with clock := alarm })

/-- One move: a step of the worker whose turn it is, or the choice of the next. There is none
when all callers have their answers, or when all workers are held up for good. -/
def move (callers : List Nat) (turn : Turn) (roster : Roster) : Option (Turn × Roster) :=
  match turn with
  | .callers [] => if roster.allAnswered callers then none else some (.pick patience, roster)
  | .callers (number :: others) =>
      match roster.machine.step number with
      | some machine => some (.callers (number :: others), roster.modify fun _ => machine)
      | none => some (.callers others, roster)
  | .pick 0 => some (.callers callers, roster)
  | .pick (left + 1) =>
      match roster.ready with
      | number :: others => some (.worker number left, { roster with ready := others })
      | [] => roster.rest callers
  | .worker number left =>
      match roster.machine.step number with
      | some machine => some (.worker number left, roster.put (some number) machine)
      | none => some (.pick left, roster)

/-- At most a number of moves. -/
def runWithin (callers : List Nat) : Nat → Turn → Roster → Roster
  | 0, _, roster => roster
  | moves + 1, turn, roster =>
      match roster.move callers turn with
      | none => roster
      | some (turn, roster) => runWithin callers moves turn roster

/-- Start calls in order. -/
def start (roster : Roster) : List Call → List Nat × Roster
  | [] => ([], roster)
  | call :: rest =>
      let (number, machine) := roster.machine.call call
      let (numbers, roster) := { roster with machine := machine }.start rest
      (number :: numbers, roster)

/-- Start calls in order and run the machine until all are answered, in a number of moves at
most. A call that has no answer by then has none. -/
def callAll (moves : Nat) (calls : List Call) (roster : Roster) :
    List (Option (Except Failure Answer)) × Roster :=
  let (callers, roster) := roster.start calls
  let roster := runWithin callers moves (.callers callers) roster
  let answers := callers.map roster.machine.answer?
  (answers, { roster with machine := callers.foldl Machine.release roster.machine })

/-- Start a call and run the machine until it is answered. -/
def call (moves : Nat) (call : Call) (roster : Roster) :
    Option (Except Failure Answer) × Roster :=
  let (answers, roster) := roster.callAll moves [call]
  (answers.head?.join, roster)

end Roster

end CardNet
