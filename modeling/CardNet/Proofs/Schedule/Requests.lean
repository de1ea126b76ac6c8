import CardNet.Schedule.Scheduler
import Mathlib.Data.List.Nodup

/-!
# Where requests are

In an orderly scheduler every ticket that was given out is in one place: its request waits, or is
served, or its fate is known (`Scheduler.Orderly`). Sending a request adds it to those that wait,
a turn takes the first of them into service, and the answer leaves the others alone.
-/

namespace CardNet

namespace Queue

variable {α : Type}

theorem perm_toList_push (queue : Queue α) (priority : Priority) (item : α) :
    (queue.push priority item).toList.Perm (item :: queue.toList) :=
  (Entry.perm_insertInto _ _).map Entry.item

theorem toList_of_pop {queue rest : Queue α} {item : α} (popped : queue.pop = some (item, rest)) :
    queue.toList = item :: rest.toList := by
  obtain ⟨head, rfl, split⟩ := waiting_of_pop popped
  rw [toList, split]
  rfl

end Queue

namespace Scheduler

variable {τ σ : Type} {scheduler after : Scheduler τ σ} {request : Request τ} {ticket : Nat}

/-- The requests that wait, with their tickets, in the order of service. -/
def requests (scheduler : Scheduler τ σ) : List (Nat × Request τ) := scheduler.sorted.toList

/-- The tickets of the request that is served and of those that wait. -/
def tickets (scheduler : Scheduler τ σ) : List Nat :=
  scheduler.service.toList.map Service.ticket ++ scheduler.requests.map Prod.fst

/-- A scheduler that was not asked to stop, where every ticket that was given out is in one
place. -/
structure Orderly (scheduler : Scheduler τ σ) : Prop where
  running : scheduler.stopped = false
  silent : scheduler.inbox.any Message.isShutdown = false
  distinct : scheduler.tickets.Nodup
  unanswered : ∀ ticket ∈ scheduler.tickets, scheduler.fates.get? ticket = none
  numbered : ∀ ticket ∈ scheduler.tickets, ticket < scheduler.tally.submitted
  known : ∀ ticket fate, scheduler.fates.get? ticket = some fate →
    ticket < scheduler.tally.submitted

/-! ## Sending -/

/-- What sending a request does. -/
theorem send_spec (sent : scheduler.send request = .ok (ticket, after)) :
    ticket = scheduler.tally.submitted ∧
      after = { scheduler with
        inbox := scheduler.inbox ++ [.run ticket request]
        tally := { scheduler.tally with submitted := ticket + 1 } } ∧
      after.requests.Perm ((ticket, request) :: scheduler.requests) := by
  unfold send at sent
  split at sent
  · cases sent
  · cases sent
    refine ⟨rfl, rfl, ?_⟩
    simp only [requests, sorted, List.filterMap_append, List.filterMap_cons, List.filterMap_nil,
      Message.request?, List.foldl_append, List.foldl_cons, List.foldl_nil]
    exact Queue.perm_toList_push ..

theorem Orderly.send_ok (orderly : scheduler.Orderly) (request : Request τ) :
    ∃ ticket after, scheduler.send request = .ok (ticket, after) := by
  unfold Scheduler.send
  rw [orderly.running]
  exact ⟨_, _, rfl⟩

theorem Orderly.send (orderly : scheduler.Orderly)
    (sent : scheduler.send request = .ok (ticket, after)) : after.Orderly := by
  obtain ⟨fresh, same, perm⟩ := send_spec sent
  have moved : after.tickets.Perm (ticket :: scheduler.tickets) := by
    have service : after.service = scheduler.service := by rw [same]
    rw [tickets, tickets, service]
    exact ((perm.map Prod.fst).append_left _).trans List.perm_middle
  have unused : ticket ∉ scheduler.tickets := fun inside =>
    Nat.lt_irrefl _ (fresh ▸ orderly.numbered ticket inside)
  have fates : after.fates = scheduler.fates := by rw [same]
  have count : after.tally.submitted = ticket + 1 := by rw [same]
  refine ⟨by rw [same]; exact orderly.running, ?_, ?_, ?_, ?_, ?_⟩
  · rw [same, List.any_append, orderly.silent]
    rfl
  · exact moved.nodup_iff.mpr (List.nodup_cons.mpr ⟨unused, orderly.distinct⟩)
  · intro other inside
    rw [fates]
    rcases List.mem_cons.mp (moved.mem_iff.mp inside) with rfl | before
    · by_contra answered
      obtain ⟨fate, held⟩ := Option.ne_none_iff_exists'.mp answered
      exact Nat.lt_irrefl _ (fresh ▸ orderly.known _ fate held)
    · exact orderly.unanswered other before
  · intro other inside
    rw [count]
    rcases List.mem_cons.mp (moved.mem_iff.mp inside) with rfl | before
    · exact Nat.lt_succ_self _
    · exact Nat.lt_succ_of_lt (fresh ▸ orderly.numbered other before)
  · intro other fate held
    rw [count]
    rw [fates] at held
    exact Nat.lt_succ_of_lt (fresh ▸ orderly.known other fate held)

/-! ## Service -/

/-- What a turn does while nobody has asked to stop. -/
theorem turn_spec (orderly : scheduler.Orderly) {begin : τ → σ} {now : Nat}
    (turned : scheduler.turn begin now = some after) :
    ∃ ticket request, scheduler.service = none ∧
      scheduler.requests = (ticket, request) :: after.requests ∧
      after.service =
        some ⟨ticket, request.label, scheduler.limit.map (now + ·), begin request.task⟩ ∧
      after.limit = scheduler.limit ∧ after.fates = scheduler.fates ∧
      after.tally = scheduler.tally ∧ after.stopped = false ∧ after.inbox = [] := by
  unfold turn at turned
  rw [orderly.running, orderly.silent, Bool.false_or] at turned
  split at turned
  · cases turned
  · next free =>
      simp only [Bool.false_eq_true, ↓reduceIte] at turned
      split at turned
      · cases turned
      · next ticket request queue popped =>
          cases turned
          refine ⟨ticket, request, Option.not_isSome_iff_eq_none.mp free,
            Queue.toList_of_pop popped, rfl, rfl, rfl, rfl, orderly.running, rfl⟩

theorem Orderly.turn (orderly : scheduler.Orderly) {begin : τ → σ} {now : Nat}
    (turned : scheduler.turn begin now = some after) : after.Orderly := by
  obtain ⟨ticket, request, free, split, service, -, fates, tally, running, inbox⟩ :=
    turn_spec orderly turned
  have same : after.tickets = scheduler.tickets := by
    rw [tickets, tickets, free, service, split]
    rfl
  refine ⟨running, by rw [inbox]; rfl, ?_, ?_, ?_, ?_⟩
  · rw [same]
    exact orderly.distinct
  · rw [same, fates]
    exact orderly.unanswered
  · rw [same, tally]
    exact orderly.numbered
  · rw [fates, tally]
    exact orderly.known

@[simp] theorem requests_proceed (scheduler : Scheduler τ σ) (progress : σ) :
    (scheduler.proceed progress).requests = scheduler.requests := rfl

theorem Orderly.proceed (orderly : scheduler.Orderly) (progress : σ) :
    (scheduler.proceed progress).Orderly := by
  have same : (scheduler.proceed progress).tickets = scheduler.tickets := by
    rw [tickets, tickets, requests_proceed, Scheduler.proceed]
    cases scheduler.service <;> rfl
  exact ⟨orderly.running, orderly.silent, same ▸ orderly.distinct, same ▸ orderly.unanswered,
    same ▸ orderly.numbered, orderly.known⟩

/-- What answering the request does that is served. -/
theorem conclude_spec {service : Service σ} (served : scheduler.service = some service)
    (result : Except Failure Value) :
    (scheduler.conclude result).service = none ∧
      (scheduler.conclude result).requests = scheduler.requests ∧
      (scheduler.conclude result).limit = scheduler.limit ∧
      ∀ ticket, (scheduler.conclude result).fates.get? ticket =
        if ticket = service.ticket then some (.answered result)
        else scheduler.fates.get? ticket := by
  rw [conclude, served]
  refine ⟨rfl, rfl, rfl, fun ticket => ?_⟩
  simp only [Std.ExtTreeMap.get?_eq_getElem?, Std.ExtTreeMap.getElem?_insert,
    Std.LawfulEqCmp.compare_eq_iff_eq, @eq_comm _ service.ticket]

theorem Orderly.conclude (orderly : scheduler.Orderly) {service : Service σ}
    (served : scheduler.service = some service) (result : Except Failure Value) :
    (scheduler.conclude result).Orderly := by
  obtain ⟨free, requests, -, fates⟩ := conclude_spec served result
  have before : scheduler.tickets = service.ticket :: (scheduler.conclude result).tickets := by
    rw [tickets, tickets, served, free, requests]
    rfl
  have submitted : (scheduler.conclude result).tally.submitted = scheduler.tally.submitted := by
    rw [Scheduler.conclude, served]
    cases result <;> rfl
  have distinct := orderly.distinct
  rw [before, List.nodup_cons] at distinct
  refine ⟨?_, ?_, distinct.2, ?_, ?_, ?_⟩
  · rw [Scheduler.conclude, served]
    exact orderly.running
  · rw [Scheduler.conclude, served]
    exact orderly.silent
  · intro ticket inside
    have differ : ticket ≠ service.ticket := by
      rintro rfl
      exact distinct.1 inside
    rw [fates, if_neg differ]
    exact orderly.unanswered ticket (before ▸ List.mem_cons_of_mem _ inside)
  · intro ticket inside
    rw [submitted]
    exact orderly.numbered ticket (before ▸ List.mem_cons_of_mem _ inside)
  · intro ticket fate held
    rw [submitted]
    rw [fates] at held
    split at held
    · next same =>
        refine orderly.numbered ticket ?_
        rw [before, same]
        exact List.mem_cons_self
    · exact orderly.known ticket fate held

/-- A scheduler to which nothing was sent is orderly. -/
theorem orderly_fresh (limit : Option Nat) : (fresh limit : Scheduler τ σ).Orderly := by
  refine ⟨rfl, rfl, .nil, ?_, ?_, ?_⟩
  · intro ticket inside
    cases inside
  · intro ticket inside
    cases inside
  · intro ticket fate held
    simp [fresh] at held

end Scheduler

end CardNet
