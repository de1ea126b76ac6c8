import CardNet.Graph.Error
import CardNet.Schedule.Queue

/-!
# The scheduler

A scheduler serves requests one at a time, within a time limit. What is sent to it lies in its
inbox until it has a turn; then everything in the inbox is sorted into the queue, and either the
first of the queue is served or, when a shutdown was among the messages, the scheduler stops for
good and discards all that waits. Every accepted request has a ticket, under which its fate is
found: the answer to a served request, or that it was discarded.

Tasks are of a type `τ`, and `σ` is the progress of the task that is being served.
-/

namespace CardNet

/-- Something to do, with the name under which it is reported. -/
structure Request (τ : Type) where
  label : String
  priority : Priority
  task : τ
deriving Inhabited

/-- What can be sent to a scheduler. -/
inductive Message (τ : Type) where
  | run (ticket : Nat) (request : Request τ)
  | shutdown

namespace Message

variable {τ : Type}

/-- The request that a message brings, with its ticket. -/
def request? : Message τ → Option (Nat × Request τ)
  | run ticket request => some (ticket, request)
  | shutdown => none

/-- Whether a message asks to stop. -/
def isShutdown : Message τ → Bool
  | run _ _ => false
  | shutdown => true

end Message

/-- What became of an accepted request. -/
inductive Fate where
  | answered (result : Except Failure Value)
  | discarded

/-- A request that is being served. -/
structure Service (σ : Type) where
  ticket : Nat
  label : String
  /-- The time after which the request is given up. -/
  deadline : Option Nat
  progress : σ

/-- How many requests were accepted, and how they were answered. -/
structure Tally where
  submitted : Nat
  completed : Nat
  failed : Nat
deriving DecidableEq, Inhabited

namespace Tally

/-- Nothing was accepted yet. -/
def zero : Tally := ⟨0, 0, 0⟩

/-- Count an answer. -/
def count (tally : Tally) : Except Failure Value → Tally
  | .ok _ => { tally with completed := tally.completed + 1 }
  | .error _ => { tally with failed := tally.failed + 1 }

end Tally

/-- A scheduler of tasks `τ`. -/
structure Scheduler (τ σ : Type) where
  /-- The longest that a request may be served. -/
  limit : Option Nat
  /-- What was sent and not yet seen, oldest first. -/
  inbox : List (Message τ)
  queue : Queue (Nat × Request τ)
  service : Option (Service σ)
  stopped : Bool
  /-- The fates that are known, by ticket. -/
  fates : Std.ExtTreeMap Nat Fate
  tally : Tally

namespace Scheduler

variable {τ σ : Type}

/-- A scheduler to which nothing was sent. -/
def fresh (limit : Option Nat) : Scheduler τ σ := ⟨limit, [], .empty, none, false, ∅, .zero⟩

/-- Send a request; answers with its ticket. -/
def send (scheduler : Scheduler τ σ) (request : Request τ) :
    Except Failure (Nat × Scheduler τ σ) :=
  if scheduler.stopped then .error .schedulerClosed
  else
    let ticket := scheduler.tally.submitted
    let tally := { scheduler.tally with submitted := ticket + 1 }
    let inbox := scheduler.inbox ++ [.run ticket request]
    .ok (ticket, { scheduler with inbox := inbox, tally := tally })

/-- Ask a scheduler to stop. -/
def shutdown (scheduler : Scheduler τ σ) : Scheduler τ σ :=
  if scheduler.stopped then scheduler
  else { scheduler with inbox := scheduler.inbox ++ [.shutdown] }

/-- The queue with everything in the inbox sorted in. -/
def sorted (scheduler : Scheduler τ σ) : Queue (Nat × Request τ) :=
  (scheduler.inbox.filterMap Message.request?).foldl
    (fun queue held => queue.push held.2.priority held) scheduler.queue

/-- The tickets of the requests that were accepted and not yet served. -/
def waiting (scheduler : Scheduler τ σ) : List Nat := scheduler.sorted.toList.map Prod.fst

/-- Stop for good and discard what waits. -/
def stop (scheduler : Scheduler τ σ) : Scheduler τ σ :=
  { scheduler with
    inbox := []
    queue := .empty
    stopped := true
    fates := scheduler.waiting.foldl (fun fates ticket => fates.insert ticket .discarded)
      scheduler.fates }

/-- Begin to serve a request. -/
def serve (scheduler : Scheduler τ σ) (begin : τ → σ) (now : Nat) (ticket : Nat)
    (request : Request τ) (queue : Queue (Nat × Request τ)) : Scheduler τ σ :=
  let deadline := scheduler.limit.map (now + ·)
  { scheduler with
    inbox := []
    queue := queue
    service := some ⟨ticket, request.label, deadline, begin request.task⟩ }

/-- Have a turn: stop when asked to, else begin to serve the first that waits. There is no turn
while a request is served, when nothing waits, and after the stop. -/
def turn (scheduler : Scheduler τ σ) (begin : τ → σ) (now : Nat) : Option (Scheduler τ σ) :=
  if scheduler.stopped || scheduler.service.isSome then none
  else if scheduler.inbox.any Message.isShutdown then some scheduler.stop
  else
    match scheduler.sorted.pop with
    | none => none
    | some ((ticket, request), queue) => some (scheduler.serve begin now ticket request queue)

/-- Note how far the request that is served has come. -/
def proceed (scheduler : Scheduler τ σ) (progress : σ) : Scheduler τ σ :=
  { scheduler with service := scheduler.service.map fun held => { held with progress := progress } }

/-- Answer the request that is served. -/
def conclude (scheduler : Scheduler τ σ) (result : Except Failure Value) : Scheduler τ σ :=
  match scheduler.service with
  | none => scheduler
  | some service =>
      { scheduler with
        service := none
        fates := scheduler.fates.insert service.ticket (.answered result)
        tally := scheduler.tally.count result }

/-- The failure of a request that took too long. -/
def overdue (scheduler : Scheduler τ σ) (service : Service σ) : Failure :=
  .timeout service.label (scheduler.limit.getD 0)

/-- What the sender of a request learns: nothing yet, or the result. -/
def result? (scheduler : Scheduler τ σ) (ticket : Nat) : Option (Except Failure Value) :=
  match scheduler.fates.get? ticket with
  | none => none
  | some (.answered result) => some result
  | some .discarded => some (.error .schedulerClosed)

end Scheduler

namespace Service

variable {σ : Type}

/-- Whether a request has been served for as long as it may. -/
def isOverdue (service : Service σ) (now : Nat) : Bool :=
  match service.deadline with
  | some deadline => deadline ≤ now
  | none => false

end Service

end CardNet
