import CardNet.Proofs.Schedule.Requests

/-!
# What happens to a scheduler

A history of a scheduler is a list of moves: requests and the wish to stop arrive, turns are
taken, and what is served advances, ends, or is given up (`Scheduler.follow`). A move that cannot
be made has no outcome. The journal of a history notes what was accepted, started and ended, and
`Scheduler.Records` says how a scheduler and the journal of its history belong together:
every accepted request has one place, and the queue sorts by priority and acceptance
(`Records.follow`).
-/

namespace CardNet

/-- Something that arrives at a scheduler, or that happens at it. -/
inductive Scheduler.Move (τ σ : Type) where
  | send (request : Request τ)
  | shutdown
  | turn (begin : τ → σ) (now : Nat)
  | proceed (progress : σ)
  /-- The task that is served ends with a result of its own. -/
  | finish (result : Except Failure Value)
  /-- The task that is served is given up. -/
  | expire (now : Nat)

/-- What a journal holds. -/
inductive Note (τ : Type) where
  | accepted (ticket : Nat) (request : Request τ)
  | refused (request : Request τ)
  | started (ticket : Nat)
  | finished (ticket : Nat) (result : Except Failure Value)
  | expired (ticket : Nat) (failure : Failure)
  | closed (tickets : List Nat)

namespace Note

variable {τ : Type}

/-- The request that was accepted, with its ticket. -/
def accepted? : Note τ → Option (Nat × Request τ)
  | accepted ticket request => some (ticket, request)
  | _ => none

/-- The ticket of the request that was started. -/
def started? : Note τ → Option Nat
  | started ticket => some ticket
  | _ => none

/-- The ticket of the request that ended, with the answer to it. -/
def answered? : Note τ → Option (Nat × Except Failure Value)
  | finished ticket result => some (ticket, result)
  | expired ticket failure => some (ticket, .error failure)
  | _ => none

/-- The tickets of the requests that were discarded. -/
def dropped : Note τ → List Nat
  | closed tickets => tickets
  | _ => []

end Note

/-- What was noted, oldest first. -/
abbrev Journal (τ : Type) := List (Note τ)

namespace Journal

variable {τ : Type}

/-- The requests that were accepted, with their tickets, in order. -/
def accepted (journal : Journal τ) : List (Nat × Request τ) := journal.filterMap Note.accepted?

/-- The tickets of the requests that were started, in order. -/
def started (journal : Journal τ) : List Nat := journal.filterMap Note.started?

/-- The tickets of the requests that ended, with the answers, in order. -/
def answered (journal : Journal τ) : List (Nat × Except Failure Value) :=
  journal.filterMap Note.answered?

/-- The tickets of the requests that were discarded. -/
def dropped (journal : Journal τ) : List Nat := journal.flatMap Note.dropped

/-- The tickets of the requests that were started and have not ended. -/
def underWay (journal : Journal τ) : List Nat :=
  journal.started.filter fun ticket => ticket ∉ journal.answered.map Prod.fst

variable (earlier later : Journal τ)

@[simp] theorem accepted_append :
    accepted (earlier ++ later) = accepted earlier ++ accepted later :=
  List.filterMap_append

@[simp] theorem started_append : started (earlier ++ later) = started earlier ++ started later :=
  List.filterMap_append

@[simp] theorem answered_append :
    answered (earlier ++ later) = answered earlier ++ answered later :=
  List.filterMap_append

@[simp] theorem dropped_append : dropped (earlier ++ later) = dropped earlier ++ dropped later :=
  List.flatMap_append

theorem accepted_concat (journal : Journal τ) (note : Note τ) :
    accepted (journal ++ [note]) = accepted journal ++ note.accepted?.toList := by
  rw [accepted_append, accepted, accepted]
  cases held : note.accepted? with
  | none => rw [List.filterMap_cons_none held]; rfl
  | some pair => rw [List.filterMap_cons_some held]; rfl

theorem started_concat (journal : Journal τ) (note : Note τ) :
    started (journal ++ [note]) = started journal ++ note.started?.toList := by
  rw [started_append, started, started]
  cases held : note.started? with
  | none => rw [List.filterMap_cons_none held]; rfl
  | some ticket => rw [List.filterMap_cons_some held]; rfl

theorem answered_concat (journal : Journal τ) (note : Note τ) :
    answered (journal ++ [note]) = answered journal ++ note.answered?.toList := by
  rw [answered_append, answered, answered]
  cases held : note.answered? with
  | none => rw [List.filterMap_cons_none held]; rfl
  | some pair => rw [List.filterMap_cons_some held]; rfl

theorem dropped_concat (journal : Journal τ) (note : Note τ) :
    dropped (journal ++ [note]) = dropped journal ++ note.dropped := by
  rw [dropped_append, dropped, dropped, List.flatMap_singleton]

/-- A note at the end of a journal is its last one, or stands behind all that is before it. -/
theorem split_concat {journal earlier later : Journal τ} {note mark : Note τ}
    (split : journal ++ [note] = earlier ++ mark :: later) :
    (journal = earlier ∧ note = mark ∧ later = []) ∨
      ∃ rest, journal = earlier ++ mark :: rest ∧ later = rest ++ [note] := by
  rcases List.eq_nil_or_concat later with rfl | ⟨rest, last, rfl⟩
  · obtain ⟨same, last⟩ := List.append_inj' split rfl
    exact .inl ⟨same, List.singleton_inj.mp last, rfl⟩
  · rw [List.concat_eq_append, ← List.cons_append, ← List.append_assoc] at split
    obtain ⟨same, last⟩ := List.append_inj' split rfl
    exact .inr ⟨rest, same, by rw [List.concat_eq_append, List.singleton_inj.mp last]⟩

end Journal

/-- Taking out leaves the number of the next entry. -/
theorem Queue.next_of_pop {α : Type} {queue rest : Queue α} {item : α}
    (popped : queue.pop = some (item, rest)) : rest.next = queue.next := by
  unfold pop at popped
  split at popped
  · cases popped
  · cases popped
    rfl

namespace Scheduler

variable {τ σ : Type}

/-- The scheduler after a move, and what is noted; nothing when the move cannot be made. -/
def undergo (scheduler : Scheduler τ σ) : Move τ σ → Option (Scheduler τ σ × Journal τ)
  | .send request =>
      match scheduler.send request with
      | .error _ => some (scheduler, [.refused request])
      | .ok (ticket, after) => some (after, [.accepted ticket request])
  | .shutdown => some (scheduler.shutdown, [])
  | .turn begin now =>
      (scheduler.turn begin now).map fun after =>
        match after.service with
        | some service => (after, [.started service.ticket])
        | none => (after, [.closed scheduler.waiting])
  | .proceed progress => some (scheduler.proceed progress, [])
  | .finish result =>
      scheduler.service.map fun service =>
        (scheduler.conclude result, [.finished service.ticket result])
  | .expire now =>
      scheduler.service.bind fun service =>
        let failure := scheduler.overdue service
        if service.isOverdue now then
          some (scheduler.conclude (.error failure), [.expired service.ticket failure])
        else none

/-- The scheduler after moves in order, and what is noted. -/
def follow (scheduler : Scheduler τ σ) : List (Move τ σ) → Option (Scheduler τ σ × Journal τ)
  | [] => some (scheduler, [])
  | move :: rest =>
      match scheduler.undergo move with
      | none => none
      | some (moved, notes) =>
          (moved.follow rest).map fun (after, journal) => (after, notes ++ journal)

variable {scheduler middle after : Scheduler τ σ} {notes journal earlier later : Journal τ}
  {moves more : List (Move τ σ)} {move : Move τ σ}

theorem follow_cons : scheduler.follow (move :: moves) = some (after, journal) ↔
    ∃ middle notes rest, scheduler.undergo move = some (middle, notes) ∧
      middle.follow moves = some (after, rest) ∧ journal = notes ++ rest := by
  rw [follow]
  cases scheduler.undergo move with
  | none => simp
  | some moved =>
      obtain ⟨middle, notes⟩ := moved
      simp only [Option.map_eq_some_iff, Prod.exists, Prod.mk.injEq, Option.some.injEq]
      constructor
      · rintro ⟨_, rest, followed, rfl, rfl⟩
        exact ⟨middle, notes, rest, ⟨rfl, rfl⟩, followed, rfl⟩
      · rintro ⟨_, _, rest, ⟨rfl, rfl⟩, followed, rfl⟩
        exact ⟨after, rest, followed, rfl, rfl⟩

theorem follow_append : scheduler.follow (moves ++ more) = some (after, journal) ↔
    ∃ middle earlier later, scheduler.follow moves = some (middle, earlier) ∧
      middle.follow more = some (after, later) ∧ journal = earlier ++ later := by
  induction moves generalizing scheduler journal with
  | nil =>
      simp only [List.nil_append, follow, Option.some.injEq, Prod.mk.injEq]
      constructor
      · exact fun followed => ⟨scheduler, [], journal, ⟨rfl, rfl⟩, followed, rfl⟩
      · rintro ⟨_, _, later, ⟨rfl, rfl⟩, followed, rfl⟩
        exact followed
  | cons move moves ih =>
      rw [List.cons_append, follow_cons]
      constructor
      · rintro ⟨middle, notes, rest, moved, followed, rfl⟩
        obtain ⟨last, earlier, later, first, second, rfl⟩ := ih.mp followed
        exact ⟨last, notes ++ earlier, later,
          follow_cons.mpr ⟨middle, notes, earlier, moved, first, rfl⟩, second,
          (List.append_assoc ..).symm⟩
      · rintro ⟨last, earlier, later, first, second, rfl⟩
        obtain ⟨middle, notes, rest, moved, followed, rfl⟩ := follow_cons.mp first
        exact ⟨middle, notes, rest ++ later, moved, ih.mpr ⟨last, rest, later, followed, second, rfl⟩,
          List.append_assoc ..⟩

/-! ## The kinds of moves -/

/-- A move that was made, by what it did. -/
inductive Step (scheduler : Scheduler τ σ) : Scheduler τ σ → Journal τ → Prop
  | refuse (request : Request τ) (closed : scheduler.stopped = true) :
      Step scheduler scheduler [.refused request]
  | accept (request : Request τ) (running : scheduler.stopped = false) :
      Step scheduler
        { scheduler with
          inbox := scheduler.inbox ++ [.run scheduler.tally.submitted request]
          tally := { scheduler.tally with submitted := scheduler.tally.submitted + 1 } }
        [.accepted scheduler.tally.submitted request]
  | warn : Step scheduler scheduler.shutdown []
  | stop (running : scheduler.stopped = false) (free : scheduler.service = none) :
      Step scheduler scheduler.stop [.closed scheduler.waiting]
  | start (begin : τ → σ) (now ticket : Nat) (request : Request τ)
      (queue : Queue (Nat × Request τ)) (running : scheduler.stopped = false)
      (free : scheduler.service = none)
      (popped : scheduler.sorted.pop = some ((ticket, request), queue)) :
      Step scheduler (scheduler.serve begin now ticket request queue) [.started ticket]
  | proceed (progress : σ) : Step scheduler (scheduler.proceed progress) []
  | finish (service : Service σ) (result : Except Failure Value)
      (served : scheduler.service = some service) :
      Step scheduler (scheduler.conclude result) [.finished service.ticket result]
  | expire (service : Service σ) (now : Nat) (served : scheduler.service = some service)
      (overdue : service.isOverdue now = true) :
      Step scheduler (scheduler.conclude (.error (scheduler.overdue service)))
        [.expired service.ticket (scheduler.overdue service)]

/-- What a turn does. -/
theorem turn_cases {begin : τ → σ} {now : Nat} (turned : scheduler.turn begin now = some after) :
    scheduler.stopped = false ∧ scheduler.service = none ∧
      (after = scheduler.stop ∨
        ∃ ticket request queue, scheduler.sorted.pop = some ((ticket, request), queue) ∧
          after = scheduler.serve begin now ticket request queue) := by
  unfold turn at turned
  split at turned
  · cases turned
  · next idle =>
      rw [Bool.or_eq_true, not_or, Bool.not_eq_true, Bool.not_eq_true,
        Option.isSome_eq_false_iff, Option.isNone_iff_eq_none] at idle
      refine ⟨idle.1, idle.2, ?_⟩
      split at turned
      · cases turned
        exact .inl rfl
      · split at turned
        · cases turned
        · next ticket request queue popped =>
            cases turned
            exact .inr ⟨ticket, request, queue, popped, rfl⟩

theorem Step.of_undergo (moved : scheduler.undergo move = some (after, notes)) :
    scheduler.Step after notes := by
  cases move with
  | send request =>
      rw [undergo, send] at moved
      by_cases closed : scheduler.stopped
      · rw [if_pos closed] at moved
        cases moved
        exact .refuse request closed
      · rw [if_neg closed] at moved
        cases moved
        exact .accept request (Bool.not_eq_true _ ▸ closed)
  | shutdown =>
      cases moved
      exact .warn
  | turn begin now =>
      obtain ⟨turned, took, same⟩ := Option.map_eq_some_iff.mp moved
      obtain ⟨running, free, rfl | ⟨ticket, request, queue, popped, rfl⟩⟩ := turn_cases took
      · have none : scheduler.stop.service = none := free
        rw [none] at same
        cases same
        exact .stop running free
      · cases same
        exact .start begin now ticket request queue running free popped
  | proceed progress =>
      cases moved
      exact .proceed progress
  | finish result =>
      obtain ⟨service, served, same⟩ := Option.map_eq_some_iff.mp moved
      cases same
      exact .finish service result served
  | expire now =>
      obtain ⟨service, served, same⟩ := Option.bind_eq_some_iff.mp moved
      split at same
      · next overdue =>
          cases same
          exact .expire service now served overdue
      · cases same

/-! ## Schedulers and their journals -/

@[simp] theorem sorted_accept (request : Request τ) :
    sorted { scheduler with
      inbox := scheduler.inbox ++ [.run scheduler.tally.submitted request]
      tally := { scheduler.tally with submitted := scheduler.tally.submitted + 1 } } =
      scheduler.sorted.push request.priority (scheduler.tally.submitted, request) := by
  simp only [sorted, List.filterMap_append, List.foldl_append]
  rfl

@[simp] theorem sorted_shutdown : scheduler.shutdown.sorted = scheduler.sorted := by
  unfold shutdown
  split
  · rfl
  · simp only [sorted, List.filterMap_append, List.foldl_append]
    rfl

@[simp] theorem sorted_conclude (result : Except Failure Value) :
    (scheduler.conclude result).sorted = scheduler.sorted := by
  unfold conclude
  split <;> rfl

/-- The fates after a stop. -/
theorem fates_stop (ticket : Nat) : scheduler.stop.fates.get? ticket =
    if ticket ∈ scheduler.waiting then some .discarded else scheduler.fates.get? ticket := by
  change (scheduler.waiting.foldl (fun fates ticket => fates.insert ticket Fate.discarded)
    scheduler.fates).get? ticket = _
  generalize scheduler.fates = fates
  induction scheduler.waiting generalizing fates with
  | nil => simp
  | cons first rest ih =>
      rw [List.foldl_cons, ih]
      by_cases later : ticket ∈ rest
      · simp [later]
      · by_cases same : ticket = first
        · simp [same]
        · simp [later, same, Std.ExtTreeMap.getElem?_insert, Ne.symm same]

/-- A scheduler and the journal of its history. Every accepted request has one place, and what is
noted of its end is its fate; the queue numbers the requests as they were accepted. -/
structure Records (scheduler : Scheduler τ σ) (journal : Journal τ) : Prop where
  numbered : journal.accepted.map Prod.fst = List.range scheduler.tally.submitted
  placed : (scheduler.tickets ++ journal.answered.map Prod.fst ++ journal.dropped).Perm
    (List.range scheduler.tally.submitted)
  begun : journal.started.Perm
    (scheduler.service.toList.map Service.ticket ++ journal.answered.map Prod.fst)
  answered : ∀ ticket result, scheduler.fates.get? ticket = some (.answered result) ↔
    (ticket, result) ∈ journal.answered
  discarded : ∀ ticket, scheduler.fates.get? ticket = some .discarded ↔ ticket ∈ journal.dropped
  known : ∀ held ∈ scheduler.requests, held ∈ journal.accepted
  labelled : ∀ service, scheduler.service = some service →
    (∃ request, (service.ticket, request) ∈ journal.accepted ∧ service.label = request.label) ∧
      ∃ start, service.deadline = scheduler.limit.map (start + ·)
  next : scheduler.stopped = false → scheduler.sorted.next = scheduler.tally.submitted
  keyed : ∀ entry ∈ scheduler.sorted.waiting,
    entry.number = entry.item.1 ∧ entry.priority = entry.item.2.priority
  kept : scheduler.stopped = false → journal.dropped = []
  emptied : scheduler.stopped = true → scheduler.requests = [] ∧ scheduler.service = none
  completed : scheduler.tally.completed = (journal.answered.filter fun answer => answer.2.isOk).length
  failed : scheduler.tally.failed = (journal.answered.filter fun answer => !answer.2.isOk).length

theorem records_fresh (limit : Option Nat) : (fresh limit : Scheduler τ σ).Records [] where
  numbered := rfl
  placed := .refl _
  begun := .refl _
  answered := fun ticket result => by simp [fresh, Journal.answered]
  discarded := fun ticket => by simp [fresh, Journal.dropped]
  known := fun held waits => nomatch waits
  labelled := fun service served => nomatch served
  next := fun _ => rfl
  keyed := fun entry waits => nomatch waits
  kept := fun _ => rfl
  emptied := fun closed => nomatch closed
  completed := rfl
  failed := rfl

namespace Records

variable (records : scheduler.Records journal)

include records

/-- Moves that neither bring nor start nor end anything. -/
private theorem quiet (sorted : after.sorted = scheduler.sorted)
    (service : after.service.map (fun held => (held.ticket, held.label, held.deadline)) =
      scheduler.service.map fun held => (held.ticket, held.label, held.deadline))
    (limit : after.limit = scheduler.limit) (fates : after.fates = scheduler.fates) (tally : after.tally = scheduler.tally)
    (stopped : after.stopped = scheduler.stopped) (accepted : notes.accepted = [])
    (started : notes.started = []) (answered : notes.answered = []) (dropped : notes.dropped = []) :
    after.Records (journal ++ notes) := by
  have tickets : after.service.toList.map Service.ticket =
      scheduler.service.toList.map Service.ticket := by
    cases left : after.service <;> cases right : scheduler.service <;>
      simp_all only [Option.map_none, Option.map_some, Option.some.injEq, Prod.mk.injEq,
        Option.toList_none, Option.toList_some, List.map_nil, List.map_cons, reduceCtorEq]
  have requests : after.requests = scheduler.requests := congrArg Queue.toList sorted
  have same : after.tickets = scheduler.tickets := by
    rw [Scheduler.tickets, Scheduler.tickets, tickets, requests]
  constructor
  all_goals
    simp only [Journal.accepted_append, Journal.started_append, Journal.answered_append,
      Journal.dropped_append, accepted, started, answered, dropped, List.append_nil, same, sorted,
      requests, fates, tally, stopped, tickets]
  · exact records.numbered
  · exact records.placed
  · exact records.begun
  · exact records.answered
  · exact records.discarded
  · exact records.known
  · intro held served
    cases before : scheduler.service with
    | none => simp [served, before] at service
    | some old =>
        rw [served, before, Option.map_some, Option.map_some, Option.some.injEq,
          Prod.mk.injEq, Prod.mk.injEq] at service
        rw [service.1, service.2.1, service.2.2, limit]
        exact records.labelled old before
  · exact records.next
  · exact records.keyed
  · exact records.kept
  · intro closed
    refine ⟨(records.emptied closed).1, ?_⟩
    rw [(records.emptied closed).2, Option.map_none, Option.map_eq_none_iff] at service
    exact service
  · exact records.completed
  · exact records.failed

private theorem accept (request : Request τ) (running : scheduler.stopped = false) :
    Records
      { scheduler with
        inbox := scheduler.inbox ++ [.run scheduler.tally.submitted request]
        tally := { scheduler.tally with submitted := scheduler.tally.submitted + 1 } }
      (journal ++ [.accepted scheduler.tally.submitted request]) := by
  have perm : (scheduler.sorted.push request.priority (scheduler.tally.submitted, request)).toList.Perm
      ((scheduler.tally.submitted, request) :: scheduler.requests) :=
    Queue.perm_toList_push ..
  have accepted : Journal.accepted (journal ++ [.accepted scheduler.tally.submitted request]) =
      journal.accepted ++ [(scheduler.tally.submitted, request)] := Journal.accepted_append ..
  have started : Journal.started (journal ++ [.accepted scheduler.tally.submitted request]) =
      journal.started := (Journal.started_append ..).trans (List.append_nil _)
  have answered : Journal.answered (journal ++ [.accepted scheduler.tally.submitted request]) =
      journal.answered := (Journal.answered_append ..).trans (List.append_nil _)
  have dropped : Journal.dropped (journal ++ [.accepted scheduler.tally.submitted request]) =
      journal.dropped := (Journal.dropped_append ..).trans (List.append_nil _)
  constructor
  all_goals simp only [accepted, started, answered, dropped, requests, tickets, sorted_accept]
  · rw [List.map_append, records.numbered, List.range_succ]
    rfl
  · rw [List.range_succ]
    refine .trans ?_ (records.placed.append_right _)
    refine List.perm_iff_count.mpr fun ticket => ?_
    have moved := (perm.map Prod.fst).count_eq ticket
    simp only [tickets, List.count_append, List.map_cons, List.count_cons, List.count_nil,
      requests] at moved ⊢
    omega
  · exact records.begun
  · exact records.answered
  · exact records.discarded
  · intro held waits
    rcases List.mem_cons.mp (perm.mem_iff.mp waits) with rfl | old
    · exact List.mem_append_right _ (List.mem_singleton_self _)
    · exact List.mem_append_left _ (records.known held old)
  · intro service served
    obtain ⟨⟨request, known, label⟩, deadline⟩ := records.labelled service served
    exact ⟨⟨request, List.mem_append_left _ known, label⟩, deadline⟩
  · intro _
    rw [← records.next running]
    rfl
  · intro entry waits
    rcases List.mem_cons.mp ((Entry.perm_insertInto _ _).mem_iff.mp waits) with rfl | old
    · exact ⟨records.next running, rfl⟩
    · exact records.keyed entry old
  · exact records.kept
  · intro closed
    exact absurd (running.symm.trans closed) (by decide)
  · exact records.completed
  · exact records.failed

theorem nodup :
    (scheduler.tickets ++ journal.answered.map Prod.fst ++ journal.dropped).Nodup :=
  records.placed.nodup_iff.mpr List.nodup_range

/-- A request that waits or is served has no answer. -/
theorem not_answered {ticket : Nat} (inside : ticket ∈ scheduler.tickets)
    (result : Except Failure Value) : (ticket, result) ∉ journal.answered := by
  intro answered
  have apart := List.disjoint_of_nodup_append (List.nodup_append.mp records.nodup).1
  exact apart inside (List.mem_map.mpr ⟨_, answered, rfl⟩)

private theorem stop (running : scheduler.stopped = false) (free : scheduler.service = none) :
    scheduler.stop.Records (journal ++ [.closed scheduler.waiting]) := by
  have accepted : Journal.accepted (journal ++ [.closed scheduler.waiting]) = journal.accepted :=
    (Journal.accepted_append ..).trans (List.append_nil _)
  have started : Journal.started (journal ++ [.closed scheduler.waiting]) = journal.started :=
    (Journal.started_append ..).trans (List.append_nil _)
  have answered : Journal.answered (journal ++ [.closed scheduler.waiting]) = journal.answered :=
    (Journal.answered_append ..).trans (List.append_nil _)
  have dropped : Journal.dropped (journal ++ [.closed scheduler.waiting]) = scheduler.waiting := by
    rw [Journal.dropped_append, records.kept running]
    exact List.append_nil _
  have waiting : scheduler.tickets = scheduler.waiting := by
    rw [tickets, free]
    rfl
  constructor
  · rw [accepted]
    exact records.numbered
  · rw [answered, dropped]
    have placed := records.placed
    rw [waiting, records.kept running, List.append_nil] at placed
    have tickets : scheduler.stop.tickets = [] := by
      rw [Scheduler.tickets]
      exact congrArg (fun service : Option (Service σ) => service.toList.map Service.ticket ++ [])
        free
    rw [tickets]
    exact List.perm_append_comm.trans placed
  · rw [started, answered]
    exact records.begun
  · intro ticket result
    rw [fates_stop, answered, ← records.answered]
    split
    · next waits =>
        have unanswered := records.not_answered (waiting ▸ waits) result
        rw [← records.answered] at unanswered
        exact iff_of_false (fun same => by cases same) unanswered
    · exact Iff.rfl
  · intro ticket
    rw [fates_stop, dropped]
    split
    · next waits => exact iff_of_true rfl waits
    · next served =>
        rw [records.discarded, records.kept running]
        exact iff_of_false List.not_mem_nil served
  · exact fun held waits => by cases waits
  · intro service served
    have none := free.symm.trans served
    cases none
  · exact fun running => by cases running
  · exact fun entry waits => by cases waits
  · exact fun running => by cases running
  · exact fun _ => ⟨rfl, free⟩
  · rw [answered]
    exact records.completed
  · rw [answered]
    exact records.failed

private theorem start (begin : τ → σ) (now ticket : Nat) (request : Request τ)
    (queue : Queue (Nat × Request τ)) (running : scheduler.stopped = false)
    (free : scheduler.service = none)
    (popped : scheduler.sorted.pop = some ((ticket, request), queue)) :
    (scheduler.serve begin now ticket request queue).Records (journal ++ [.started ticket]) := by
  have accepted : Journal.accepted (journal ++ [.started ticket]) = journal.accepted :=
    (Journal.accepted_append ..).trans (List.append_nil _)
  have started : Journal.started (journal ++ [.started ticket]) = journal.started ++ [ticket] :=
    Journal.started_append ..
  have answered : Journal.answered (journal ++ [.started ticket]) = journal.answered :=
    (Journal.answered_append ..).trans (List.append_nil _)
  have dropped : Journal.dropped (journal ++ [.started ticket]) = journal.dropped :=
    (Journal.dropped_append ..).trans (List.append_nil _)
  have split : scheduler.requests = (ticket, request) :: queue.toList := Queue.toList_of_pop popped
  obtain ⟨head, -, sorted⟩ := Queue.waiting_of_pop popped
  constructor
  · rw [accepted]
    exact records.numbered
  · have tickets : (scheduler.serve begin now ticket request queue).tickets =
        scheduler.tickets := by
      rw [Scheduler.tickets, Scheduler.tickets, free, split]
      rfl
    rw [tickets, answered, dropped]
    exact records.placed
  · have begun := records.begun
    rw [free] at begun
    rw [started, answered]
    exact (begun.append_right _).trans List.perm_append_comm
  · rw [answered]
    exact records.answered
  · rw [dropped]
    exact records.discarded
  · rw [accepted]
    exact fun held waits => records.known held (split ▸ List.mem_cons_of_mem _ waits)
  · intro service served
    cases served
    rw [accepted]
    exact ⟨⟨request, records.known _ (split ▸ List.mem_cons_self), rfl⟩, now, rfl⟩
  · exact fun _ => (Queue.next_of_pop popped).trans (records.next running)
  · exact fun entry waits => records.keyed entry (sorted ▸ List.mem_cons_of_mem _ waits)
  · rw [dropped]
    exact records.kept
  · exact fun closed => absurd (running.symm.trans closed) (by decide)
  · rw [answered]
    exact records.completed
  · rw [answered]
    exact records.failed

/-- The end of the request that is served, however it is noted. -/
private theorem conclude {service : Service σ} (served : scheduler.service = some service)
    (result : Except Failure Value) {note : Note τ} (accepted : note.accepted? = none)
    (started : note.started? = none) (answered : note.answered? = some (service.ticket, result))
    (dropped : note.dropped = []) :
    (scheduler.conclude result).Records (journal ++ [note]) := by
  have accepts : Journal.accepted (journal ++ [note]) = journal.accepted := by
    rw [Journal.accepted_concat, accepted]
    exact List.append_nil _
  have starts : Journal.started (journal ++ [note]) = journal.started := by
    rw [Journal.started_concat, started]
    exact List.append_nil _
  have answers : Journal.answered (journal ++ [note]) =
      journal.answered ++ [(service.ticket, result)] := by
    rw [Journal.answered_concat, answered]
    rfl
  have drops : Journal.dropped (journal ++ [note]) = journal.dropped := by
    rw [Journal.dropped_concat, dropped, List.append_nil]
  have concluded : scheduler.conclude result =
      { scheduler with
        service := none
        fates := scheduler.fates.insert service.ticket (.answered result)
        tally := scheduler.tally.count result } := by
    rw [Scheduler.conclude, served]
  obtain ⟨free, requests, -, fates⟩ := conclude_spec served result
  have submitted : (scheduler.conclude result).tally.submitted = scheduler.tally.submitted := by
    rw [concluded]
    cases result <;> rfl
  have stopped : (scheduler.conclude result).stopped = scheduler.stopped := by
    rw [concluded]
  have inside : service.ticket ∈ scheduler.tickets := by
    rw [tickets, served]
    exact List.mem_cons_self
  constructor
  · rw [accepts, submitted]
    exact records.numbered
  · have placed := records.placed
    rw [tickets, served] at placed
    rw [tickets, free, requests, answers, drops, submitted]
    refine .trans (List.perm_iff_count.mpr fun ticket => ?_) placed
    simp only [List.count_append, List.map_append, List.map_cons, List.map_nil,
      Option.toList_none, Option.toList_some, List.count_cons, List.count_nil]
    omega
  · have begun := records.begun
    rw [served] at begun
    rw [starts, answers, free, List.map_append]
    exact begun.trans List.perm_append_comm
  · intro ticket answer
    rw [fates, answers, List.mem_append, List.mem_singleton, Prod.mk.injEq, ← records.answered]
    split
    · next same =>
        have fresh := records.not_answered inside answer
        rw [← records.answered, ← same] at fresh
        rw [same, eq_self_iff_true, true_and, Option.some.injEq, Fate.answered.injEq,
          or_iff_right (same ▸ fresh), eq_comm]
    · next differ => rw [or_iff_left fun both => differ both.1]
  · intro ticket
    rw [fates, drops, ← records.discarded]
    split
    · next same =>
        refine iff_of_false (fun same => by cases same) fun discarded => ?_
        have apart := List.disjoint_of_nodup_append records.nodup
        rw [records.discarded, same] at discarded
        exact apart (List.mem_append_left _ inside) discarded
    · exact Iff.rfl
  · rw [requests, accepts]
    exact records.known
  · intro service served
    have none := free.symm.trans served
    cases none
  · rw [stopped, sorted_conclude, submitted]
    exact records.next
  · rw [sorted_conclude]
    exact records.keyed
  · rw [stopped, drops]
    exact records.kept
  · intro closed
    exact ⟨requests.trans (records.emptied (stopped.symm.trans closed)).1, free⟩
  · rw [answers, List.filter_append, List.length_append, ← records.completed, concluded]
    cases result <;> rfl
  · rw [answers, List.filter_append, List.length_append, ← records.failed, concluded]
    cases result <;> rfl

/-- A move and its notes keep a scheduler and its journal together. -/
theorem step (step : scheduler.Step after notes) : after.Records (journal ++ notes) := by
  cases step with
  | refuse request closed => exact records.quiet rfl rfl rfl rfl rfl rfl rfl rfl rfl rfl
  | accept request running => exact records.accept request running
  | warn =>
      refine records.quiet sorted_shutdown ?_ ?_ ?_ ?_ ?_ rfl rfl rfl rfl
      all_goals
        unfold shutdown
        split <;> rfl
  | stop running free => exact records.stop running free
  | start begin now ticket request queue running free popped =>
      exact records.start begin now ticket request queue running free popped
  | proceed progress =>
      refine records.quiet rfl ?_ rfl rfl rfl rfl rfl rfl rfl rfl
      rw [Scheduler.proceed]
      cases scheduler.service <;> rfl
  | finish service result served => exact records.conclude served result rfl rfl rfl rfl
  | expire service now served overdue => exact records.conclude served _ rfl rfl rfl rfl

/-- What holds of a scheduler and its journal and is kept by every move holds after all moves. By
induction on the moves. -/
theorem follow_induction {holds : Scheduler τ σ → Journal τ → Prop}
    (kept : ∀ {scheduler : Scheduler τ σ} {journal : Journal τ} {after : Scheduler τ σ}
      {notes : Journal τ}, scheduler.Records journal → holds scheduler journal →
        scheduler.Step after notes → holds after (journal ++ notes))
    (start : holds scheduler journal) (followed : scheduler.follow moves = some (after, later)) :
    after.Records (journal ++ later) ∧ holds after (journal ++ later) := by
  induction moves generalizing scheduler journal later with
  | nil =>
      cases followed
      rw [List.append_nil]
      exact ⟨records, start⟩
  | cons move moves ih =>
      obtain ⟨middle, notes, rest, moved, further, rfl⟩ := follow_cons.mp followed
      have step := Step.of_undergo moved
      rw [← List.append_assoc]
      exact ih (records.step step) (kept records start step) further

theorem follow (followed : scheduler.follow moves = some (after, later)) :
    after.Records (journal ++ later) := by
  have kept : ∀ {scheduler : Scheduler τ σ} {journal : Journal τ} {after : Scheduler τ σ}
      {notes : Journal τ}, scheduler.Records journal → True → scheduler.Step after notes → True :=
    fun _ _ _ => trivial
  exact (records.follow_induction kept trivial followed).1

end Records

end Scheduler

end CardNet
