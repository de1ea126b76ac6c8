import CardNet.Proofs.Schedule.Moves

/-!
# Schedulers of other tasks

A scheduler does not look at the tasks that it keeps, nor at how far the one that is served has come.
With other tasks in their places (`Scheduler.map`) it does the same.
-/

namespace CardNet

namespace Entry

variable {α β : Type}

/-- An entry with something else in it. -/
def map (change : α → β) (entry : Entry α) : Entry β :=
  ⟨entry.number, entry.priority, change entry.item⟩

theorem insertInto_map (change : α → β) (entry : Entry α) (entries : List (Entry α)) :
    (entry.map change).insertInto (entries.map (Entry.map change)) =
      (entry.insertInto entries).map (Entry.map change) := by
  induction entries with
  | nil => rfl
  | cons head rest ih =>
      have order : (entry.map change).before (head.map change) ↔ entry.before head := Iff.rfl
      simp only [List.map_cons, insertInto, ih, order]
      split <;> rfl

end Entry

namespace Queue

variable {α β : Type}

/-- A queue of other things in the same order. -/
def map (change : α → β) (queue : Queue α) : Queue β where
  waiting := queue.waiting.map (Entry.map change)
  next := queue.next
  ordered := List.pairwise_map.mpr queue.ordered
  fresh := List.forall_mem_map.mpr queue.fresh

theorem ext {first second : Queue α} (waiting : first.waiting = second.waiting)
    (next : first.next = second.next) : first = second := by
  cases first
  cases second
  cases waiting
  cases next
  rfl

variable (change : α → β) (queue : Queue α)

theorem toList_map : (queue.map change).toList = queue.toList.map change := by
  rw [toList, toList, map, List.map_map, List.map_map]
  rfl

theorem push_map (priority : Priority) (item : α) :
    (queue.map change).push priority (change item) = (queue.push priority item).map change :=
  ext (Entry.insertInto_map change ⟨queue.next, priority, item⟩ queue.waiting) rfl

theorem pop_map : (queue.map change).pop =
    queue.pop.map fun popped => (change popped.1, popped.2.map change) := by
  cases popped : queue.pop with
  | none => exact pop_eq_none_iff.mpr (congrArg (List.map _) (pop_eq_none_iff.mp popped))
  | some taken =>
      obtain ⟨head, own, split⟩ := waiting_of_pop popped
      have waits : (queue.map change).waiting =
          head.map change :: (taken.2.map change).waiting := congrArg (List.map _) split
      have next : taken.2.next = queue.next := next_of_pop popped
      unfold pop
      split
      · next none => cases waits.symm.trans none
      · next other rest some =>
          obtain ⟨rfl, rfl⟩ := List.cons.inj (waits.symm.trans some)
          exact congrArg Option.some (Prod.ext (congrArg change own) (ext rfl next.symm))

end Queue

section

variable {τ σ τ' σ' : Type}

/-- A request of another task. -/
def Request.map (task : τ → τ') (request : Request τ) : Request τ' :=
  ⟨request.label, request.priority, task request.task⟩

/-- A request of another task under the same ticket. -/
def Request.mapHeld (task : τ → τ') (held : Nat × Request τ) : Nat × Request τ' :=
  (held.1, held.2.map task)

def Message.map (task : τ → τ') : Message τ → Message τ'
  | .run ticket request => .run ticket (request.map task)
  | .shutdown => .shutdown

def Service.map (progress : σ → σ') (service : Service σ) : Service σ' :=
  ⟨service.ticket, service.label, service.deadline, progress service.progress⟩

end

namespace Scheduler

variable {τ σ τ' σ' : Type}

/-- The scheduler with other tasks. -/
def map (task : τ → τ') (progress : σ → σ') (scheduler : Scheduler τ σ) : Scheduler τ' σ' where
  limit := scheduler.limit
  inbox := scheduler.inbox.map (Message.map task)
  queue := scheduler.queue.map (Request.mapHeld task)
  service := scheduler.service.map (Service.map progress)
  stopped := scheduler.stopped
  fates := scheduler.fates
  tally := scheduler.tally

variable (task : τ → τ') (progress : σ → σ') (scheduler : Scheduler τ σ)

theorem send_map (request : Request τ) :
    (scheduler.map task progress).send (request.map task) =
      (scheduler.send request).map fun sent => (sent.1, sent.2.map task progress) := by
  have gone : (scheduler.map task progress).stopped = scheduler.stopped := rfl
  rw [send, send, gone]
  by_cases stopped : scheduler.stopped
  · rw [if_pos stopped, if_pos stopped]
    rfl
  · rw [if_neg stopped, if_neg stopped]
    simp only [Except.map, map, List.map_append, List.map_singleton, Message.map]

theorem sorted_map : (scheduler.map task progress).sorted =
    scheduler.sorted.map (Request.mapHeld task) := by
  have brought : (scheduler.map task progress).inbox.filterMap Message.request? =
      (scheduler.inbox.filterMap Message.request?).map (Request.mapHeld task) := by
    rw [map, List.filterMap_map, List.map_filterMap]
    exact List.filterMap_congr fun message _ => by cases message <;> rfl
  rw [sorted, sorted, brought, List.foldl_map]
  exact (List.foldl_hom (Queue.map (Request.mapHeld task)) fun queue held =>
    Queue.push_map (Request.mapHeld task) queue held.2.priority held)

theorem waiting_map : (scheduler.map task progress).waiting = scheduler.waiting := by
  rw [waiting, sorted_map, Queue.toList_map, List.map_map]
  rfl

/-- A turn of a scheduler of other tasks that are begun accordingly. -/
theorem turn_map {begin : τ → σ} {other : τ' → σ'}
    (accords : ∀ held, other (task held) = progress (begin held)) (now : Nat) :
    (scheduler.map task progress).turn other now =
      (scheduler.turn begin now).map (map task progress) := by
  have stops : (scheduler.map task progress).inbox.any Message.isShutdown =
      scheduler.inbox.any Message.isShutdown := by
    rw [map, List.any_map]
    exact congrArg scheduler.inbox.any (funext fun message => by cases message <;> rfl)
  have stopped : (scheduler.map task progress).stop = scheduler.stop.map task progress := by
    simp only [stop, waiting_map]
    rfl
  have served : (scheduler.map task progress).service.isSome = scheduler.service.isSome :=
    Option.isSome_map
  have gone : (scheduler.map task progress).stopped = scheduler.stopped := rfl
  rw [turn, turn, gone, served, stops, stopped, sorted_map, Queue.pop_map]
  split
  · rfl
  · split
    · rfl
    · cases scheduler.sorted.pop with
      | none => rfl
      | some popped =>
          obtain ⟨⟨ticket, request⟩, queue⟩ := popped
          simp only [Option.map_some, Request.mapHeld, serve, map, Service.map, Request.map, accords,
            List.map_nil]

theorem proceed_map (next : σ) : (scheduler.map task progress).proceed (progress next) =
    (scheduler.proceed next).map task progress := by
  simp only [proceed, map, Option.map_map]
  rfl

theorem conclude_map (result : Except Failure Value) :
    (scheduler.map task progress).conclude result =
      (scheduler.conclude result).map task progress := by
  rw [conclude, conclude]
  have service : (scheduler.map task progress).service =
      scheduler.service.map (Service.map progress) := rfl
  rw [service]
  cases held : scheduler.service with
  | none => simp only [Option.map_none, map]
  | some service => rfl

/-- What waits was in the inbox or in the queue. -/
theorem perm_requests : scheduler.requests.Perm
    (scheduler.inbox.filterMap Message.request? ++ scheduler.queue.toList) := by
  have sorts : ∀ (held : List (Nat × Request τ)) (queue : Queue (Nat × Request τ)),
      (held.foldl (fun queue held => queue.push held.2.priority held) queue).toList.Perm
        (held ++ queue.toList) := by
    intro held
    induction held with
    | nil => exact fun queue => .refl _
    | cons head rest ih =>
        intro queue
        have pushed := (Queue.perm_toList_push queue head.2.priority head).append_left rest
        exact (ih _).trans (pushed.trans List.perm_middle)
  exact sorts _ _

/-- A scheduler all of whose tasks stand for themselves. -/
theorem map_eq_self {task : τ → τ} {progress : σ → σ}
    (waiting : ∀ held ∈ scheduler.requests, task held.2.task = held.2.task)
    (served : ∀ service, scheduler.service = some service →
      progress service.progress = service.progress) : scheduler.map task progress = scheduler := by
  have kept : ∀ held ∈ scheduler.inbox.filterMap Message.request? ++ scheduler.queue.toList,
      Request.mapHeld task held = held := by
    intro held member
    rw [Request.mapHeld, Request.map, waiting held ((perm_requests scheduler).mem_iff.mpr member)]
  have inbox : scheduler.inbox.map (Message.map task) = scheduler.inbox := by
    refine (List.map_congr_left fun message member => ?_).trans (List.map_id _)
    cases message with
    | shutdown => rfl
    | run ticket request =>
        have brought : (ticket, request) ∈ scheduler.inbox.filterMap Message.request? :=
          List.mem_filterMap.mpr ⟨_, member, rfl⟩
        exact congrArg (Message.run ticket)
          (Prod.mk.inj (kept _ (List.mem_append_left _ brought))).2
  have queue : scheduler.queue.map (Request.mapHeld task) = scheduler.queue := by
    refine Queue.ext ((List.map_congr_left fun entry member => ?_).trans (List.map_id _)) rfl
    exact congrArg (Entry.mk entry.number entry.priority)
      (kept _ (List.mem_append_right _ (List.mem_map_of_mem member)))
  have service : scheduler.service.map (Service.map progress) = scheduler.service := by
    cases held : scheduler.service with
    | none => rfl
    | some service =>
        exact congrArg (fun progress => some (Service.mk service.ticket service.label
          service.deadline progress)) (served service held)
  rw [map, inbox, queue, service]

@[simp] theorem result?_map (ticket : Nat) :
    (scheduler.map task progress).result? ticket = scheduler.result? ticket := rfl

end Scheduler

end CardNet
