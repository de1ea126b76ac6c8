import CardNet.Schedule.Scheduler

/-!
# Errands

Tasks given as data, and a desk at which a scheduler runs them on a clock of its own. An errand
first enters its label into the log, sends further requests, and may ask the scheduler to stop;
then it waits, and at last it fails or answers. At a desk a request that is sent can be kept as a
receipt, through which its fate is looked up once.

Time passes only when the scheduler can do nothing else (`Desk.advance`), and then it passes
straight to the end of the wait at hand.
-/

namespace CardNet

/-- A task given as data. -/
structure Errand where
  /-- What is sent to the scheduler at the start. -/
  spawn : List (Request Errand)
  /-- Whether the scheduler is asked to stop. -/
  shutdown : Bool
  /-- How long the errand waits before it ends. -/
  sleep : Nat
  /-- A value, or the text of the failure. -/
  outcome : Except String Value

instance : Inhabited Errand := ⟨⟨[], false, 0, .ok .null⟩⟩

mutual

/-- The number of errands in an errand, itself included. -/
def Errand.size : Errand → Nat
  | ⟨spawn, _, _, _⟩ => Errand.sizes spawn + 1

/-- The number of errands in a list of requests. -/
def Errand.sizes : List (Request Errand) → Nat
  | [] => 0
  | request :: rest => Errand.requestSize request + Errand.sizes rest

/-- The number of errands in a request. -/
def Errand.requestSize : Request Errand → Nat
  | ⟨_, _, task⟩ => task.size

end

/-- An errand on its way, with the time at which its wait ends. -/
structure Outing where
  errand : Errand
  wake : Nat

/-- A scheduler of errands with a clock. -/
structure Desk where
  scheduler : Scheduler Errand Outing
  clock : Nat
  /-- The labels of the errands that were begun, latest first. -/
  log : List String
  /-- The tickets that were kept, in order; one that was looked up or thrown away is empty. -/
  receipts : List (Option Nat)

/-- What a receipt shows. -/
inductive Notice where
  | ready (result : Except Failure Value)
  | pending
  | dropped
  | absent

namespace Desk

/-- A desk to which nothing was brought. -/
def fresh (limit : Option Nat) : Desk := ⟨.fresh limit, 0, [], []⟩

/-- Send a request without keeping its ticket; answers with the ticket. -/
def send (desk : Desk) (request : Request Errand) : Except Failure Nat × Desk :=
  match desk.scheduler.send request with
  | .error failure => (.error failure, desk)
  | .ok (ticket, scheduler) => (.ok ticket, { desk with scheduler := scheduler })

/-- Send a request and keep its ticket; answers with the number of the receipt. -/
def enqueue (desk : Desk) (request : Request Errand) : Except Failure Nat × Desk :=
  match desk.send request with
  | (.error failure, desk) => (.error failure, desk)
  | (.ok ticket, desk) =>
      (.ok desk.receipts.length, { desk with receipts := desk.receipts ++ [some ticket] })

/-- Ask the scheduler to stop. -/
def shutdown (desk : Desk) : Desk := { desk with scheduler := desk.scheduler.shutdown }

/-- The start of an errand. -/
def depart (desk : Desk) (label : String) (errand : Errand) : Desk :=
  let desk := { desk with log := label :: desk.log }
  let desk := errand.spawn.foldl (fun desk request => (desk.enqueue request).2) desk
  if errand.shutdown then desk.shutdown else desk

/-- The result of an errand that was not given up. -/
def resultOf (errand : Errand) : Except Failure Value :=
  errand.outcome.mapError Failure.execution

/-- One move of the scheduler at the present time, if it can make one: to begin an errand, to
end one whose wait is over, or to give one up. -/
def step (desk : Desk) : Option Desk :=
  match desk.scheduler.service with
  | none =>
      match desk.scheduler.turn (fun errand => ⟨errand, desk.clock + errand.sleep⟩) desk.clock with
      | none => none
      | some scheduler =>
          let moved := { desk with scheduler := scheduler }
          match scheduler.service with
          | none => some moved
          | some service => some (moved.depart service.label service.progress.errand)
  | some service =>
      let scheduler := desk.scheduler
      if service.progress.wake ≤ desk.clock then
        let result := resultOf service.progress.errand
        some { desk with scheduler := scheduler.conclude result }
      else if service.isOverdue desk.clock then
        let failure := scheduler.overdue service
        some { desk with scheduler := scheduler.conclude (.error failure) }
      else none

/-- The number of errands that were sent and not begun, with all that they will send. -/
def backlog (desk : Desk) : Nat :=
  let requests := desk.scheduler.sorted.toList.map Prod.snd
  (requests.map fun request => request.task.size).foldl (· + ·) 0

/-- More moves than the scheduler can make: every errand is begun and ended once, and one
shutdown is seen. -/
def bound (desk : Desk) : Nat := 2 * desk.backlog + 3

/-- At most a number of moves. -/
def settleWithin : Nat → Desk → Desk
  | 0, desk => desk
  | moves + 1, desk =>
      match desk.step with
      | none => desk
      | some next => settleWithin moves next

/-- Let the scheduler move until it has to wait. -/
def settle (desk : Desk) : Desk := settleWithin desk.bound desk

/-- The time at which the errand on its way ends or is given up. -/
def nextWake? (desk : Desk) : Option Nat :=
  desk.scheduler.service.map fun service =>
    match service.deadline with
    | some deadline => min deadline service.progress.wake
    | none => service.progress.wake

/-- Let time pass up to an end, in a number of waits at most. -/
def passWithin (target : Nat) : Nat → Desk → Desk
  | 0, desk => { desk with clock := max desk.clock target }
  | waits + 1, desk =>
      let desk := desk.settle
      match desk.nextWake? with
      | some wake =>
          if wake < target then passWithin target waits { desk with clock := wake }
          else { desk with clock := target }
      | none => { desk with clock := target }

/-- Let time pass. -/
def advance (desk : Desk) (milliseconds : Nat) : Desk :=
  if milliseconds = 0 then desk
  else passWithin (desk.clock + milliseconds) desk.bound desk

/-- Whether the fates of tickets are known. -/
def knowsAll (desk : Desk) (tickets : List Nat) : Bool :=
  tickets.all fun ticket => (desk.scheduler.result? ticket).isSome

/-- Wait for the fates of tickets, in a number of waits at most. -/
def awaitWithin (tickets : List Nat) : Nat → Desk → Desk
  | 0, desk => desk
  | waits + 1, desk =>
      let desk := if desk.knowsAll tickets then desk else desk.settle
      if desk.knowsAll tickets then desk
      else
        match desk.nextWake? with
        | some wake => awaitWithin tickets waits { desk with clock := wake }
        | none => desk

/-- Send requests in order and wait for all of them; answers with their results. -/
def submitAll (desk : Desk) (requests : List (Request Errand)) :
    List (Except Failure Value) × Desk :=
  let (sent, desk) := requests.foldl
    (fun (sent, desk) request =>
      let (ticket, desk) := desk.send request
      (sent ++ [ticket], desk))
    (([] : List (Except Failure Nat)), desk)
  let tickets := sent.filterMap fun ticket => ticket.toOption
  let desk := awaitWithin tickets desk.bound desk
  let results := sent.map fun ticket =>
    match ticket with
    | .error failure => .error failure
    | .ok ticket => (desk.scheduler.result? ticket).getD (.error .schedulerClosed)
  (results, desk)

/-- Send a request and wait for its result. -/
def submit (desk : Desk) (request : Request Errand) : Except Failure Value × Desk :=
  let (results, desk) := desk.submitAll [request]
  (results.headD (.error .schedulerClosed), desk)

/-- Throw a receipt away. -/
def forget (desk : Desk) (number : Nat) : Desk :=
  { desk with receipts := desk.receipts.set number none }

/-- Look a receipt up. One that shows an end is thrown away. -/
def lookUp (desk : Desk) (number : Nat) : Notice × Desk :=
  match desk.receipts[number]?.join with
  | none => (.absent, desk)
  | some ticket =>
      match desk.scheduler.fates.get? ticket with
      | none => (.pending, desk)
      | some (.answered result) => (.ready result, desk.forget number)
      | some .discarded => (.dropped, desk.forget number)

end Desk

end CardNet
