import CardNet.Proofs.Engine.Histories
import CardNet.Proofs.Engine.Strides
import CardNet.Proofs.Engine.Underway

/-!
# Interleavings

Runs are called for and values are set on entries at any time, and workers take their steps in any
order (`Machine.Interleaves`). Only time is kept in check: it passes while the scheduler waits,
and not beyond the time for which it waits. Of an interleaving it is watched what the present run
has found on entries, and whether all that a run had found still held when the run was recorded
(`Watch`).
-/

namespace CardNet

/-- What is seen of the runs of a machine. -/
structure Watch where
  /-- What the present run has found on entries. -/
  found : Findings
  /-- What the last recorded run had found on entries. -/
  last : Findings
  /-- The board when that run was recorded. -/
  board : Board

namespace Watch

/-- Nothing has been seen. -/
def blank : Watch := ⟨[], [], .empty⟩

/-- All that the last recorded run had found still held when the run was recorded. -/
def Faithful (watch : Watch) : Prop := watch.last.Hold watch.board

end Watch

namespace Machine

/-- Whether a place is an entry of the graph. -/
def hasEntry (machine : Machine) (place : String) : Bool :=
  machine.engine.graph.any fun graph => graph.net.entryPlaces.contains place

/-- Whether time may pass: the scheduler has no request, or waits for a time at least as late. -/
def mayWait (machine : Machine) (time : Nat) : Bool :=
  match machine.scheduler.service with
  | none => true
  | some service =>
      service.progress.wake?.any (time ≤ ·) && service.deadline.all (time ≤ ·)

/-- Whether a worker is worker zero, a caller or a ticker. -/
def takesPart (machine : Machine) (number : Nat) : Bool :=
  if number = server then true
  else
    match machine.workers.get? number with
    | some (.caller _) => true
    | some (.ticker _) => true
    | _ => false

/-- Runs and inputs on entries may be asked for, and workers that take part may step. -/
def admits (machine : Machine) : Incident → Bool
  | .call (.exec _ _) => true
  | .call (.setInput place _) => machine.hasEntry place
  | .call _ => false
  | .tick _ _ => true
  | .halt => true
  | .wait time => machine.mayWait time
  | .board _ => false
  | .step worker => machine.takesPart worker

end Machine

/-- The anchors at which worker zero looks in a step of a task. -/
def Progress.looks : Progress → Progress → List Anchor
  | .fresh (.fire _), .firing flight _ _ => flight.firing.action.reads
  | .walking (.act _ action :: _) _, .acting _ _ _ _ _ => action.reads
  | _, _ => []

/-- What is found on entries of the graph when anchors are looked at. -/
def Engine.findings (engine : Engine) (anchors : List Anchor) : Findings :=
  match engine.graph with
  | some graph => graph.net.findings anchors engine.board
  | none => []

/-- What worker zero finds on entries in a step. -/
def Machine.finds (before after : Machine) : Findings :=
  match before.progress?, after.progress? with
  | some progress, some next => before.engine.findings (progress.looks next)
  | _, _ => []

/-- What a run that has just been opened depends on: the defaults of entries. -/
def Engine.settles (engine : Engine) : Findings :=
  match engine.bench? with
  | some bench => bench.graph.net.findings bench.settledAnchors bench.board
  | none => []

namespace Watch

/-- The present run finds something on entries. -/
def find (watch : Watch) (findings : Findings) : Watch :=
  { watch with found := watch.found ++ findings }

@[simp] theorem find_nil (watch : Watch) : watch.find [] = watch := by
  rw [find, List.append_nil]

/-- What is seen when the run of a worker, if there is one, comes to another stage. -/
def afterMove (watch : Watch) (before after : Engine) : Option RunStage → Option RunStage → Watch
  | some (.opening _ _), some (.listing _ _) => { watch with found := after.settles }
  | some (.opening _ _), some (.planning _) => { watch with found := after.settles }
  | some (.closing _ _), some (.leaving (.ok _)) =>
      { watch with last := watch.found, board := before.board }
  | _, _ => watch

/-- What is seen of a step of a worker. -/
def afterStep (watch : Watch) (worker : Nat) (before after : Machine) : Watch :=
  if worker = Machine.server then watch.find (before.finds after)
  else watch.afterMove before.engine after.engine (before.stage? worker) (after.stage? worker)

/-- What is seen of an incident. -/
def after (watch : Watch) (before : Machine) (incident : Incident) (after : Machine) : Watch :=
  match incident with
  | .step worker => watch.afterStep worker before after
  | _ => watch

end Watch

namespace Machine

/-- What may become of a machine, and what is seen of it, by runs and inputs on entries in any
order. -/
def Interleaves (first machine : Machine) (watch : Watch) : Prop :=
  Unfolds admits Watch.after first .blank machine watch

/-- A machine on which nobody is in a run and nothing is requested. -/
structure AtRest (machine : Machine) (cards : List Card) (connections : List Connection) :
    Prop where
  settled : machine.engine.Settled cards connections
  server : server < machine.nextWorker
  numbered : ∀ number worker, machine.workers.get? number = some worker →
    number < machine.nextWorker
  callers : ∀ number stage, machine.workers.get? number = some (.caller stage) →
    ∃ result, stage = .answered result
  resting : machine.Resting
  orderly : machine.scheduler.Orderly
  limit : machine.scheduler.limit = machine.engine.config.taskTimeout
  idle : machine.scheduler.service = none
  empty : machine.scheduler.requests = []

/-- A machine on which an engine has just been put. -/
def ofEngine (engine : Engine) : Machine :=
  { idle engine.config engine.board with engine := engine }

theorem atRest_ofEngine {engine : Engine} {cards : List Card} {connections : List Connection}
    (settled : engine.Settled cards connections) : (ofEngine engine).AtRest cards connections where
  settled := settled
  server := Nat.lt_succ_self _
  numbered := by simp [ofEngine, Machine.idle]
  callers := by simp [ofEngine, Machine.idle]
  resting := by simp [Resting, stage?, ofEngine, Machine.idle]
  orderly := Scheduler.orderly_fresh _
  limit := rfl
  idle := rfl
  empty := rfl

end Machine

end CardNet
