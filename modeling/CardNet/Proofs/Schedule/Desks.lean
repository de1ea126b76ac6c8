import CardNet.Schedule.Errand
import CardNet.Proofs.Schedule.Fates

/-!
# Errands and their ends

Whatever is asked at a desk, its scheduler goes through a history of moves, and an errand that
ends by itself ends with the result that it carries (`Desk.traced_performAll`). Receipts take no
part in it. So requests at a desk have one fate each, as at any scheduler
(`Scheduler.every_request_has_one_fate`).
-/

namespace CardNet

namespace Desk

/-- Something that is asked at a desk. -/
inductive Call where
  | enqueue (request : Request Errand)
  | submitAll (requests : List (Request Errand))
  | shutdown
  | forget (number : Nat)
  | lookUp (number : Nat)
  | advance (milliseconds : Nat)

/-- The desk after a call. -/
def perform (desk : Desk) : Call → Desk
  | .enqueue request => (desk.enqueue request).2
  | .submitAll requests => (desk.submitAll requests).2
  | .shutdown => desk.shutdown
  | .forget number => desk.forget number
  | .lookUp number => (desk.lookUp number).2
  | .advance milliseconds => desk.advance milliseconds

/-- The desk after calls in order. -/
def performAll (desk : Desk) (calls : List Call) : Desk := calls.foldl perform desk

/-- A history of a scheduler of errands, in which errands that were not given up ended with their
own results. -/
structure History (limit : Option Nat) (scheduler : Scheduler Errand Outing)
    (journal : Journal Errand) : Prop where
  followed : ∃ moves, (Scheduler.fresh limit).follow moves = some (scheduler, journal)
  served : ∀ service, scheduler.service = some service →
    ∃ request, (service.ticket, request) ∈ journal.accepted ∧
      request.task = service.progress.errand
  finished : ∀ ticket result, .finished ticket result ∈ journal →
    ∃ request, (ticket, request) ∈ journal.accepted ∧ result = resultOf request.task

variable {limit : Option Nat} {scheduler after : Scheduler Errand Outing}
  {journal notes : Journal Errand} {move : Scheduler.Move Errand Outing} {desk : Desk}

namespace History

theorem fresh (limit : Option Nat) : History limit (Scheduler.fresh limit) [] where
  followed := ⟨[], rfl⟩
  served := fun _ served => nomatch served
  finished := fun _ _ noted => nomatch noted

theorem records (history : History limit scheduler journal) : scheduler.Records journal := by
  obtain ⟨moves, followed⟩ := history.followed
  exact (Scheduler.records_fresh limit).follow followed

theorem undergo (history : History limit scheduler journal)
    (moved : scheduler.undergo move = some (after, notes))
    (served : ∀ service, after.service = some service →
      ∃ request, (service.ticket, request) ∈ Journal.accepted (journal ++ notes) ∧
        request.task = service.progress.errand)
    (finished : ∀ ticket result, .finished ticket result ∈ notes →
      ∃ request, (ticket, request) ∈ journal.accepted ∧ result = resultOf request.task) :
    History limit after (journal ++ notes) where
  followed := by
    obtain ⟨moves, followed⟩ := history.followed
    refine ⟨moves ++ [move], Scheduler.follow_append.mpr ⟨_, _, _, followed, ?_, rfl⟩⟩
    exact Scheduler.follow_cons.mpr ⟨_, _, [], moved, rfl, (List.append_nil _).symm⟩
  served := served
  finished := by
    intro ticket result noted
    rw [Journal.accepted_append]
    have known : ∃ request, (ticket, request) ∈ journal.accepted ∧ result = resultOf request.task :=
      (List.mem_append.mp noted).elim (history.finished ticket result) (finished ticket result)
    obtain ⟨request, accepted, same⟩ := known
    exact ⟨request, List.mem_append_left _ accepted, same⟩

/-- A move that leaves the service as it is and ends nothing. -/
private theorem undergo_same (history : History limit scheduler journal)
    (moved : scheduler.undergo move = some (after, notes))
    (service : after.service = scheduler.service)
    (unfinished : ∀ ticket result, .finished ticket result ∉ notes) :
    History limit after (journal ++ notes) := by
  refine history.undergo moved (fun held serving => ?_)
    fun ticket result noted => absurd noted (unfinished ticket result)
  obtain ⟨request, accepted, same⟩ := history.served held (service.symm.trans serving)
  rw [Journal.accepted_append]
  exact ⟨request, List.mem_append_left _ accepted, same⟩

/-- The errand that is served ends with its own result. -/
theorem finish (history : History limit scheduler journal) {service : Service Outing}
    (serving : scheduler.service = some service) :
    History limit (scheduler.conclude (resultOf service.progress.errand))
      (journal ++ [.finished service.ticket (resultOf service.progress.errand)]) := by
  have moved : scheduler.undergo (.finish (resultOf service.progress.errand)) =
      some (scheduler.conclude (resultOf service.progress.errand),
        [.finished service.ticket (resultOf service.progress.errand)]) := by
    rw [Scheduler.undergo, serving]
    rfl
  refine history.undergo moved (fun held held' => ?_) fun ticket result noted => ?_
  · rw [(Scheduler.conclude_spec serving _).1] at held'
    cases held'
  · obtain ⟨request, accepted, same⟩ := history.served service serving
    cases List.mem_singleton.mp noted
    exact ⟨request, accepted, by rw [same]⟩

/-- The errand that is served is given up. -/
theorem expire (history : History limit scheduler journal) {service : Service Outing} {now : Nat}
    (serving : scheduler.service = some service) (overdue : service.isOverdue now = true) :
    History limit (scheduler.conclude (.error (scheduler.overdue service)))
      (journal ++ [.expired service.ticket (scheduler.overdue service)]) := by
  have moved : scheduler.undergo (.expire now) =
      some (scheduler.conclude (.error (scheduler.overdue service)),
        [.expired service.ticket (scheduler.overdue service)]) := by
    rw [Scheduler.undergo, serving, Option.bind_some, if_pos overdue]
  refine history.undergo moved (fun held held' => ?_) fun ticket result noted => ?_
  · rw [(Scheduler.conclude_spec serving _).1] at held'
    cases held'
  · cases List.mem_singleton.mp noted

theorem send (history : History limit scheduler journal) {request : Request Errand}
    {ticket : Nat} (sent : scheduler.send request = .ok (ticket, after)) :
    History limit after (journal ++ [.accepted ticket request]) := by
  have moved : scheduler.undergo (.send request) = some (after, [.accepted ticket request]) := by
    rw [Scheduler.undergo, sent]
  refine history.undergo_same moved ?_ fun ticket result noted => ?_
  · rw [(Scheduler.send_spec sent).2.1]
  · cases List.mem_singleton.mp noted

theorem shutdown (history : History limit scheduler journal) :
    History limit scheduler.shutdown (journal ++ []) := by
  have moved : scheduler.undergo .shutdown = some (scheduler.shutdown, []) := rfl
  refine history.undergo_same moved ?_ fun ticket result noted => nomatch noted
  unfold Scheduler.shutdown
  split <;> rfl

/-- A turn begins an errand that was accepted. -/
theorem turn (history : History limit scheduler journal) {now : Nat} {wake : Errand → Nat}
    (turned : scheduler.turn (fun errand => ⟨errand, wake errand⟩) now = some after) :
    ∃ notes, History limit after (journal ++ notes) := by
  obtain ⟨notes, moved⟩ : ∃ notes, scheduler.undergo
      (.turn (fun errand => ⟨errand, wake errand⟩) now) = some (after, notes) := by
    rw [Scheduler.undergo, turned, Option.map_some]
    cases after.service <;> exact ⟨_, rfl⟩
  refine ⟨notes, history.undergo moved (fun held serving => ?_) fun ticket result noted => ?_⟩
  · obtain ⟨-, free, rfl | ⟨ticket, request, queue, popped, rfl⟩⟩ := Scheduler.turn_cases turned
    · cases free.symm.trans serving
    · cases serving
      have waits : (ticket, request) ∈ scheduler.requests := by
        rw [Scheduler.requests, Queue.toList_of_pop popped]
        exact List.mem_cons_self
      rw [Journal.accepted_append]
      exact ⟨request, List.mem_append_left _ (history.records.known _ waits), rfl⟩
  · rw [Scheduler.undergo, turned, Option.map_some] at moved
    cases held : after.service <;>
      · rw [held] at moved
        cases moved
        cases List.mem_singleton.mp noted

end History

/-- A desk whose scheduler has a history. -/
def Traced (limit : Option Nat) (desk : Desk) : Prop :=
  ∃ journal, History limit desk.scheduler journal

namespace Traced

theorem fresh (limit : Option Nat) : Traced limit (Desk.fresh limit) := ⟨[], .fresh limit⟩

theorem send (traced : Traced limit desk) (request : Request Errand) :
    Traced limit (desk.send request).2 := by
  obtain ⟨journal, history⟩ := traced
  rw [Desk.send]
  split
  · exact ⟨journal, history⟩
  · next ticket after sent => exact ⟨_, history.send sent⟩

theorem enqueue (traced : Traced limit desk) (request : Request Errand) :
    Traced limit (desk.enqueue request).2 := by
  have sent := traced.send request
  rw [Desk.enqueue]
  split
  · next failure after same => exact same ▸ sent
  · next ticket after same =>
      rw [same] at sent
      exact sent

theorem shutdown (traced : Traced limit desk) : Traced limit desk.shutdown := by
  obtain ⟨journal, history⟩ := traced
  exact ⟨_, history.shutdown⟩

theorem enqueueAll (traced : Traced limit desk) (requests : List (Request Errand)) :
    Traced limit (requests.foldl (fun desk request => (desk.enqueue request).2) desk) := by
  induction requests generalizing desk with
  | nil => exact traced
  | cons request rest ih => exact ih (traced.enqueue request)

theorem depart (traced : Traced limit desk) (label : String) (errand : Errand) :
    Traced limit (desk.depart label errand) := by
  have begun : Traced limit { desk with log := label :: desk.log } := traced
  have sent := begun.enqueueAll errand.spawn
  rw [Desk.depart]
  split
  · exact sent.shutdown
  · exact sent

/-- One case for each thing that a scheduler does by itself. -/
theorem step (traced : Traced limit desk) {next : Desk} (stepped : desk.step = some next) :
    Traced limit next := by
  obtain ⟨journal, history⟩ := traced
  rw [Desk.step] at stepped
  split at stepped
  · split at stepped
    · cases stepped
    · next scheduler turned =>
        obtain ⟨notes, turned⟩ := history.turn turned
        have moved : Traced limit { desk with scheduler := scheduler } := ⟨_, turned⟩
        dsimp only at stepped
        split at stepped
        · cases stepped
          exact moved
        · cases stepped
          exact moved.depart _ _
  · next service served =>
      dsimp only at stepped
      split at stepped
      · cases stepped
        exact ⟨_, history.finish served⟩
      · split at stepped
        · next overdue =>
            cases stepped
            exact ⟨_, history.expire served overdue⟩
        · cases stepped

theorem settleWithin (traced : Traced limit desk) (moves : Nat) :
    Traced limit (Desk.settleWithin moves desk) := by
  induction moves generalizing desk with
  | zero => exact traced
  | succ moves ih =>
      rw [Desk.settleWithin]
      split
      · exact traced
      · next next stepped => exact ih (traced.step stepped)

theorem passWithin (traced : Traced limit desk) (target waits : Nat) :
    Traced limit (Desk.passWithin target waits desk) := by
  induction waits generalizing desk with
  | zero => exact traced
  | succ waits ih =>
      have settled : Traced limit desk.settle := traced.settleWithin _
      rw [Desk.passWithin]
      split
      · next wake _ =>
          have woken : Traced limit { desk.settle with clock := wake } := settled
          split
          · exact ih woken
          · exact settled
      · exact settled

theorem advance (traced : Traced limit desk) (milliseconds : Nat) :
    Traced limit (desk.advance milliseconds) := by
  rw [Desk.advance]
  split
  · exact traced
  · exact traced.passWithin _ _

theorem awaitWithin (traced : Traced limit desk) (tickets : List Nat) (waits : Nat) :
    Traced limit (Desk.awaitWithin tickets waits desk) := by
  induction waits generalizing desk with
  | zero => exact traced
  | succ waits ih =>
      have settled : Traced limit (if desk.knowsAll tickets then desk else desk.settle) := by
        split
        · exact traced
        · exact traced.settleWithin _
      rw [Desk.awaitWithin]
      generalize (if desk.knowsAll tickets then desk else desk.settle) = current at settled ⊢
      split
      · exact settled
      · split
        · next wake _ =>
            have woken : Traced limit { current with clock := wake } := settled
            exact ih woken
        · exact settled

theorem sendAll (traced : Traced limit desk) (requests : List (Request Errand))
    (sent : List (Except Failure Nat)) :
    Traced limit (requests.foldl (fun (sent, desk) request =>
      let (ticket, desk) := desk.send request
      (sent ++ [ticket], desk)) (sent, desk)).2 := by
  induction requests generalizing desk sent with
  | nil => exact traced
  | cons request rest ih => exact ih (traced.send request) _

theorem submitAll (traced : Traced limit desk) (requests : List (Request Errand)) :
    Traced limit (desk.submitAll requests).2 :=
  (traced.sendAll requests []).awaitWithin _ _

theorem lookUp (traced : Traced limit desk) (number : Nat) :
    Traced limit (desk.lookUp number).2 := by
  unfold Desk.lookUp
  split
  · exact traced
  · split <;> exact traced

theorem perform (traced : Traced limit desk) (call : Call) : Traced limit (desk.perform call) := by
  cases call with
  | enqueue request => exact traced.enqueue request
  | submitAll requests => exact traced.submitAll requests
  | shutdown => exact traced.shutdown
  | forget number => exact traced
  | lookUp number => exact traced.lookUp number
  | advance milliseconds => exact traced.advance milliseconds

end Traced

/-- By induction on the calls. -/
theorem traced_performAll (traced : Traced limit desk) (calls : List Call) :
    Traced limit (desk.performAll calls) := by
  induction calls generalizing desk with
  | nil => exact traced
  | cons call rest ih => exact ih (traced.perform call)

end Desk

namespace Scheduler

variable {τ σ : Type}

/-- An answer, a failure, a timeout, and a stop with requests before and behind it. -/
def closingTime : List (Move Unit Unit) :=
  let request (label : String) : Request Unit := ⟨label, .normal, ()⟩
  let turn : Move Unit Unit := .turn id 0
  [.send (request "answered"), .send (request "failed"), .send (request "slow"), turn,
    .finish (.ok .null), turn, .send (request "early"), .finish (.error (.execution "no")), turn,
    .shutdown, .send (request "late"), .expire 0, turn, .send (request "refused"), .shutdown]

end Scheduler

end CardNet
