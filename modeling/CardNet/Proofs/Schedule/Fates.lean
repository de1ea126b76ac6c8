import CardNet.Proofs.Schedule.Moves

/-!
# What becomes of requests

Every request that a scheduler accepts is started once at most and has one fate
(`Scheduler.Settles`): the result of its task, a timeout, or, when it was never started, the stop
of the scheduler. How a request ends makes no difference to the others
(`Scheduler.follow_other_end`).
-/

namespace CardNet

namespace Scheduler

variable {τ σ : Type} {scheduler middle after : Scheduler τ σ} {journal notes later : Journal τ}
  {moves : List (Move τ σ)}

/-- A timeout is the failure of a request that was accepted, and names it and the limit. -/
def NamesTimeouts (scheduler : Scheduler τ σ) (journal : Journal τ) : Prop :=
  ∀ ticket failure, .expired ticket failure ∈ journal →
    ∃ request limit, (ticket, request) ∈ journal.accepted ∧ scheduler.limit = some limit ∧
      failure = .timeout request.label limit

/-- Behind the note of the stop nothing is accepted or started. -/
def ClosesForGood (scheduler : Scheduler τ σ) (journal : Journal τ) : Prop :=
  ∀ earlier tickets later, journal = earlier ++ .closed tickets :: later →
    scheduler.stopped = true ∧ Journal.accepted later = [] ∧ Journal.started later = []

/-- What holds of a scheduler and the journal of its history. -/
structure Settles (scheduler : Scheduler τ σ) (journal : Journal τ) : Prop where
  /-- Tickets are given out once, and in order. -/
  numbered : journal.accepted.map Prod.fst = List.range scheduler.tally.submitted
  /-- Nothing is started twice. -/
  once : journal.started.Nodup
  /-- Every accepted request waits, is served, was answered or was discarded, and only one of
  these, once. -/
  placed : (scheduler.waiting ++ scheduler.service.toList.map Service.ticket ++
    journal.answered.map Prod.fst ++ journal.dropped).Perm (journal.accepted.map Prod.fst)
  /-- Answers come to what was started, and so does service. -/
  begun : ∀ ticket, ticket ∈ journal.started ↔
    ticket ∈ scheduler.service.toList.map Service.ticket ∨ ticket ∈ journal.answered.map Prod.fst
  /-- The answer to a request is the one that was noted, or that the scheduler was closed. -/
  result : ∀ ticket result, scheduler.result? ticket = some result ↔
    (ticket, result) ∈ journal.answered ∨
      ticket ∈ journal.dropped ∧ result = .error .schedulerClosed
  /-- Discarded is what was accepted and not started, once the scheduler has stopped. -/
  discarded : ∀ ticket, ticket ∈ journal.dropped ↔ scheduler.stopped = true ∧
    ticket ∈ journal.accepted.map Prod.fst ∧ ticket ∉ journal.started
  timeouts : scheduler.NamesTimeouts journal
  /-- A request without an answer is served, or a turn can be taken. -/
  progress : ∀ ticket ∈ journal.accepted.map Prod.fst, scheduler.result? ticket = none →
    scheduler.service.isSome = true ∨
      ∀ (begin : τ → σ) (now : Nat), (scheduler.turn begin now).isSome = true
  closed : scheduler.ClosesForGood journal
  /-- The counts, at this moment. -/
  submitted : scheduler.tally.submitted = scheduler.tally.completed + scheduler.tally.failed +
    (scheduler.service.toList.length + scheduler.waiting.length) + journal.dropped.length
  completed : scheduler.tally.completed = (journal.answered.filter fun answer => answer.2.isOk).length
  failed : scheduler.tally.failed = (journal.answered.filter fun answer => !answer.2.isOk).length

namespace Records

variable (records : scheduler.Records journal)

include records

theorem result?_iff {ticket : Nat} {result : Except Failure Value} :
    scheduler.result? ticket = some result ↔
      (ticket, result) ∈ journal.answered ∨
        ticket ∈ journal.dropped ∧ result = .error .schedulerClosed := by
  rw [← records.answered, ← records.discarded, result?]
  cases scheduler.fates.get? ticket with
  | none => simp
  | some fate => cases fate <;> simp [eq_comm]

theorem mem_accepted {ticket : Nat} : ticket ∈ journal.accepted.map Prod.fst ↔
    ticket ∈ scheduler.waiting ∨ ticket ∈ scheduler.service.toList.map Service.ticket ∨
      ticket ∈ journal.answered.map Prod.fst ∨ ticket ∈ journal.dropped := by
  rw [records.numbered, ← records.placed.mem_iff, tickets, List.mem_append, List.mem_append,
    List.mem_append]
  have same : ticket ∈ scheduler.requests.map Prod.fst ↔ ticket ∈ scheduler.waiting := Iff.rfl
  rw [same]
  tauto

theorem mem_started {ticket : Nat} : ticket ∈ journal.started ↔
    ticket ∈ scheduler.service.toList.map Service.ticket ∨
      ticket ∈ journal.answered.map Prod.fst := by
  rw [records.begun.mem_iff, List.mem_append]

theorem mem_dropped {ticket : Nat} : ticket ∈ journal.dropped ↔ scheduler.stopped = true ∧
    ticket ∈ journal.accepted.map Prod.fst ∧ ticket ∉ journal.started := by
  rw [records.mem_accepted, records.mem_started]
  constructor
  · intro dropped
    refine ⟨?_, .inr (.inr (.inr dropped)), fun begun => ?_⟩
    · by_contra running
      rw [records.kept (Bool.not_eq_true _ ▸ running)] at dropped
      cases dropped
    · have apart := List.disjoint_of_nodup_append records.nodup
      rcases begun with served | answered
      · exact apart (List.mem_append_left _ (List.mem_append_left _ served)) dropped
      · exact apart (List.mem_append_right _ answered) dropped
  · rintro ⟨stopped, waits | served | answered | dropped, fresh⟩
    · have none := (records.emptied stopped).1
      rw [requests] at none
      rw [waiting, none] at waits
      cases waits
    · exact absurd (.inl served) fresh
    · exact absurd (.inr answered) fresh
    · exact dropped

theorem turn_isSome {ticket : Nat} (accepted : ticket ∈ journal.accepted.map Prod.fst)
    (unanswered : scheduler.result? ticket = none) (free : scheduler.service = none) (begin : τ → σ)
    (now : Nat) : (scheduler.turn begin now).isSome = true := by
  have unsettled : ∀ result, ¬((ticket, result) ∈ journal.answered ∨
      ticket ∈ journal.dropped ∧ result = .error .schedulerClosed) := by
    intro result settled
    rw [← records.result?_iff, unanswered] at settled
    cases settled
  have waits : ticket ∈ scheduler.waiting := by
    rcases records.mem_accepted.mp accepted with waits | served | answered | dropped
    · exact waits
    · rw [free] at served
      cases served
    · obtain ⟨answer, inside, rfl⟩ := List.mem_map.mp answered
      exact absurd (.inl inside) (unsettled answer.2)
    · exact absurd (.inr ⟨dropped, rfl⟩) (unsettled _)
  have running : scheduler.stopped = false := by
    by_contra stopped
    have none := (records.emptied (Bool.not_eq_false _ ▸ stopped)).1
    rw [requests] at none
    rw [waiting, none] at waits
    cases waits
  rw [turn, running, free]
  split
  · next idle => cases idle
  · split
    · rfl
    · split
      · next empty =>
          rw [waiting, Queue.toList, Queue.pop_eq_none_iff.mp empty] at waits
          cases waits
      · rfl

/-- A request that is given up had its time. -/
private theorem limit_of_overdue {service : Service σ} {now : Nat}
    (served : scheduler.service = some service) (overdue : service.isOverdue now = true) :
    ∃ request limit, (service.ticket, request) ∈ journal.accepted ∧
      scheduler.limit = some limit ∧
      scheduler.overdue service = .timeout request.label limit := by
  obtain ⟨⟨request, known, label⟩, start, deadline⟩ := records.labelled service served
  cases timed : scheduler.limit with
  | none =>
      rw [timed] at deadline
      rw [Service.isOverdue, deadline] at overdue
      cases overdue
  | some limit =>
      refine ⟨request, limit, known, rfl, ?_⟩
      rw [Scheduler.overdue, label, timed]
      rfl

end Records

theorem Step.limit (step : scheduler.Step after notes) : after.limit = scheduler.limit := by
  cases step with
  | refuse | accept | stop | start | proceed => rfl
  | warn =>
      unfold shutdown
      split <;> rfl
  | finish service result served | expire service now served => exact (conclude_spec served _).2.2.1

private theorem timeouts_step (records : scheduler.Records journal)
    (timeouts : scheduler.NamesTimeouts journal) (step : scheduler.Step after notes) :
    after.NamesTimeouts (journal ++ notes) := by
  intro ticket failure noted
  rw [Journal.accepted_append, step.limit]
  rcases List.mem_append.mp noted with old | new
  · obtain ⟨request, limit, known, timed, same⟩ := timeouts ticket failure old
    exact ⟨request, limit, List.mem_append_left _ known, timed, same⟩
  · cases step with
    | warn | proceed => cases new
    | refuse | accept | stop | start | finish => cases List.mem_singleton.mp new
    | expire service now served overdue =>
        cases List.mem_singleton.mp new
        obtain ⟨request, limit, known, timed, same⟩ := records.limit_of_overdue served overdue
        exact ⟨request, limit, List.mem_append_left _ known, timed, same⟩

private theorem closed_step (closed : scheduler.ClosesForGood journal)
    (step : scheduler.Step after notes) : after.ClosesForGood (journal ++ notes) := by
  intro earlier tickets later split
  cases step with
  | warn =>
      obtain ⟨stopped, quiet⟩ := closed _ _ _ (List.append_nil journal ▸ split)
      refine ⟨?_, quiet⟩
      rw [shutdown, if_pos stopped]
      exact stopped
  | proceed => exact closed _ _ _ (List.append_nil journal ▸ split)
  | stop running free =>
      rcases Journal.split_concat split with ⟨-, -, rfl⟩ | ⟨rest, before, -⟩
      · exact ⟨rfl, rfl, rfl⟩
      · exact absurd (running.symm.trans (closed _ _ _ before).1) (by decide)
  | accept request running | start begin now ticket request queue running =>
      rcases Journal.split_concat split with ⟨-, differ, -⟩ | ⟨rest, before, -⟩
      · cases differ
      · exact absurd (running.symm.trans (closed _ _ _ before).1) (by decide)
  | refuse request stopped =>
      rcases Journal.split_concat split with ⟨-, differ, -⟩ | ⟨rest, before, rfl⟩
      · cases differ
      · obtain ⟨stopped, accepted, started⟩ := closed _ _ _ before
        rw [Journal.accepted_concat, Journal.started_concat, accepted, started]
        exact ⟨stopped, rfl, rfl⟩
  | finish service result served | expire service now served =>
      rcases Journal.split_concat split with ⟨-, differ, -⟩ | ⟨rest, before, rfl⟩
      · cases differ
      · obtain ⟨stopped, accepted, started⟩ := closed _ _ _ before
        rw [Journal.accepted_concat, Journal.started_concat, accepted, started]
        refine ⟨?_, rfl, rfl⟩
        rw [conclude, served]
        exact stopped

private theorem Records.submitted (records : scheduler.Records journal) :
    scheduler.tally.submitted = scheduler.tally.completed + scheduler.tally.failed +
      (scheduler.service.toList.length + scheduler.waiting.length) + journal.dropped.length := by
  have placed := records.placed.length_eq
  have answers := List.length_eq_length_filter_add (l := journal.answered)
    fun answer => answer.2.isOk
  rw [← records.completed, ← records.failed] at answers
  rw [List.length_range, List.length_append, List.length_append, tickets, List.length_append,
    List.length_map, List.length_map, List.length_map] at placed
  rw [waiting, List.length_map, ← placed, answers, requests]
  omega

/-- What every history comes to. -/
theorem settles_of_follow {limit : Option Nat}
    (followed : (fresh limit).follow moves = some (scheduler, journal)) :
    scheduler.Settles journal := by
  have start := records_fresh (τ := τ) (σ := σ) limit
  have records := start.follow followed
  rw [List.nil_append] at records
  have timeouts : scheduler.NamesTimeouts journal :=
    (start.follow_induction timeouts_step (fun _ _ noted => nomatch noted) followed).2
  have unclosed : (fresh limit : Scheduler τ σ).ClosesForGood [] := by
    intro earlier tickets later split
    exact absurd split.symm (List.append_ne_nil_of_right_ne_nil _ (List.cons_ne_nil _ _))
  have closed : scheduler.ClosesForGood journal :=
    (start.follow_induction (fun _ => closed_step) unclosed followed).2
  refine ⟨records.numbered, ?_, ?_, fun _ => records.mem_started, fun _ _ => records.result?_iff,
    fun _ => records.mem_dropped, timeouts, ?_, closed, records.submitted, records.completed,
    records.failed⟩
  · have distinct := (List.nodup_append.mp records.nodup).1
    refine records.begun.nodup_iff.mpr (distinct.sublist ?_)
    exact (List.sublist_append_left _ _).append_right _
  · rw [records.numbered]
    refine .trans (.append_right _ (.append_right _ ?_)) records.placed
    exact List.perm_append_comm
  · intro ticket accepted unanswered
    cases free : scheduler.service with
    | none => exact .inr (records.turn_isSome accepted unanswered free)
    | some service => exact .inl rfl

/-- An answer stays the same. -/
theorem Records.result?_follow (records : scheduler.Records journal)
    (followed : scheduler.follow moves = some (after, later)) {ticket : Nat}
    {result : Except Failure Value} (answered : scheduler.result? ticket = some result) :
    after.result? ticket = some result := by
  rw [(records.follow followed).result?_iff, Journal.answered_append, Journal.dropped_append]
  exact (records.result?_iff.mp answered).imp (List.mem_append_left _)
    (And.imp_left (List.mem_append_left _))

/-! ## One end or another -/

/-- The end of the request that is served: it has a result or it is given up. -/
def Move.isEnd : Move τ σ → Bool
  | .finish _ | .expire _ => true
  | _ => false

/-- Two schedulers that differ only in the answer to one ticket. -/
structure Alike (ticket : Nat) (first second : Scheduler τ σ) : Prop where
  same : ∃ fates completed failed,
    second = { first with
      fates := fates, tally := ⟨first.tally.submitted, completed, failed⟩ }
  others : ∀ other ≠ ticket, second.fates.get? other = first.fates.get? other

namespace Alike

variable {ticket : Nat} {first second : Scheduler τ σ} {move : Move τ σ}

theorem result? (alike : Alike ticket first second) {other : Nat} (differ : other ≠ ticket) :
    second.result? other = first.result? other := by
  rw [Scheduler.result?, Scheduler.result?, alike.others other differ]

theorem service (alike : Alike ticket first second) : second.service = first.service := by
  obtain ⟨⟨fates, completed, failed, same⟩, -⟩ := alike
  rw [same]

private theorem conclude (alike : Alike ticket first second) {service : Service σ}
    (served : first.service = some service) (result : Except Failure Value) :
    Alike ticket (first.conclude result) (second.conclude result) where
  same := by
    have other := alike.service.trans served
    obtain ⟨⟨fates, completed, failed, same⟩, -⟩ := alike
    rw [Scheduler.conclude, Scheduler.conclude, other, served, same]
    cases result <;> exact ⟨_, _, _, rfl⟩
  others := by
    intro other differ
    rw [(conclude_spec (alike.service.trans served) result).2.2.2,
      (conclude_spec served result).2.2.2, alike.others other differ]

private theorem turn (alike : Alike ticket first second) {begin : τ → σ} {now : Nat}
    (turned : first.turn begin now = some middle) :
    ∃ other, second.turn begin now = some other ∧ Alike ticket middle other ∧
      other.service = middle.service ∧ second.waiting = first.waiting := by
  obtain ⟨⟨fates, completed, failed, rfl⟩, others⟩ := alike
  have sorted : Scheduler.sorted { first with
      fates := fates, tally := ⟨first.tally.submitted, completed, failed⟩ } = first.sorted := rfl
  unfold Scheduler.turn at turned ⊢
  rw [sorted]
  split at turned
  · cases turned
  · next idle =>
      rw [if_neg idle]
      split at turned
      · next asked =>
          cases turned
          rw [if_pos asked]
          refine ⟨_, rfl, ⟨⟨_, completed, failed, rfl⟩, fun other differ => ?_⟩, rfl, rfl⟩
          rw [fates_stop, fates_stop, others other differ]
          rfl
      · next unasked =>
          rw [if_neg unasked]
          split at turned
          · cases turned
          · cases turned
            exact ⟨_, rfl, ⟨⟨fates, completed, failed, rfl⟩, others⟩, rfl, rfl⟩

/-- What happens to one of them happens to the other, and is noted alike. -/
theorem undergo (alike : Alike ticket first second)
    (moved : first.undergo move = some (middle, notes)) :
    ∃ other, second.undergo move = some (other, notes) ∧ Alike ticket middle other := by
  cases move with
  | send request =>
      obtain ⟨⟨fates, completed, failed, rfl⟩, others⟩ := alike
      rw [Scheduler.undergo, Scheduler.send] at moved ⊢
      by_cases stopped : first.stopped
      · rw [if_pos stopped] at moved ⊢
        cases moved
        exact ⟨_, rfl, ⟨fates, completed, failed, rfl⟩, others⟩
      · rw [if_neg stopped] at moved ⊢
        cases moved
        exact ⟨_, rfl, ⟨fates, completed, failed, rfl⟩, others⟩
  | shutdown =>
      obtain ⟨⟨fates, completed, failed, rfl⟩, others⟩ := alike
      cases moved
      refine ⟨_, rfl, ?_⟩
      rw [Scheduler.shutdown, Scheduler.shutdown]
      by_cases stopped : first.stopped
      · rw [if_pos stopped, if_pos stopped]
        exact ⟨⟨fates, completed, failed, rfl⟩, others⟩
      · rw [if_neg stopped, if_neg stopped]
        exact ⟨⟨fates, completed, failed, rfl⟩, others⟩
  | turn begin now =>
      obtain ⟨turned, took, noted⟩ := Option.map_eq_some_iff.mp moved
      obtain ⟨other, taken, still, served, waiting⟩ := alike.turn took
      rw [Scheduler.undergo, taken, Option.map_some, served, waiting]
      cases held : turned.service <;>
        · rw [held] at noted
          cases noted
          exact ⟨other, rfl, still⟩
  | proceed progress =>
      obtain ⟨⟨fates, completed, failed, rfl⟩, others⟩ := alike
      cases moved
      exact ⟨_, rfl, ⟨fates, completed, failed, rfl⟩, others⟩
  | finish result =>
      obtain ⟨service, served, noted⟩ := Option.map_eq_some_iff.mp moved
      cases noted
      rw [Scheduler.undergo, alike.service, served]
      exact ⟨_, rfl, alike.conclude served result⟩
  | expire now =>
      obtain ⟨service, served, noted⟩ := Option.bind_eq_some_iff.mp moved
      have overdue : second.overdue service = first.overdue service := by
        obtain ⟨⟨fates, completed, failed, rfl⟩, others⟩ := alike
        rfl
      rw [Scheduler.undergo, alike.service, served, Option.bind_some, overdue]
      split at noted
      · next late =>
          cases noted
          rw [if_pos late]
          exact ⟨_, rfl, alike.conclude served _⟩
      · cases noted

theorem follow (alike : Alike ticket first second)
    (followed : first.follow moves = some (middle, notes)) :
    ∃ other, second.follow moves = some (other, notes) ∧ Alike ticket middle other := by
  induction moves generalizing first second notes with
  | nil =>
      cases followed
      exact ⟨second, rfl, alike⟩
  | cons move moves ih =>
      obtain ⟨next, noted, rest, moved, further, rfl⟩ := follow_cons.mp followed
      obtain ⟨other, also, still⟩ := alike.undergo moved
      obtain ⟨last, reached, alike⟩ := ih still further
      exact ⟨last, follow_cons.mpr ⟨other, noted, rest, also, reached, rfl⟩, alike⟩

end Alike

/-- What an end does. -/
private theorem undergo_end {move : Move τ σ} (ends : move.isEnd = true)
    (moved : scheduler.undergo move = some (after, notes)) :
    ∃ service result note, scheduler.service = some service ∧
      after = scheduler.conclude result ∧ notes = [note] ∧
      note.answered? = some (service.ticket, result) := by
  cases move with
  | send | shutdown | turn | proceed => cases ends
  | finish result =>
      obtain ⟨service, served, noted⟩ := Option.map_eq_some_iff.mp moved
      cases noted
      exact ⟨service, result, _, served, rfl, rfl, rfl⟩
  | expire now =>
      obtain ⟨service, served, noted⟩ := Option.bind_eq_some_iff.mp moved
      split at noted
      · cases noted
        exact ⟨service, _, _, served, rfl, rfl, rfl⟩
      · cases noted

/-- Two ends of one service leave schedulers alike. -/
private theorem alike_conclude {service : Service σ} (served : scheduler.service = some service)
    (first second : Except Failure Value) :
    Alike service.ticket (scheduler.conclude first) (scheduler.conclude second) where
  same := by
    rw [Scheduler.conclude, Scheduler.conclude, served]
    cases first <;> cases second <;> exact ⟨_, _, _, rfl⟩
  others := by
    intro other differ
    rw [(conclude_spec served second).2.2.2, (conclude_spec served first).2.2.2, if_neg differ,
      if_neg differ]

/-- Had the request that is served ended in another way, the rest would have gone as it did, and
every other request would have had the same answer. -/
theorem follow_other_end {before rest : List (Move τ σ)} {ending other : Move τ σ}
    (ends : ending.isEnd = true) (also : other.isEnd = true)
    (followed : scheduler.follow (before ++ ending :: rest) = some (after, journal))
    (possible : (scheduler.follow (before ++ [other])).isSome = true) :
    ∃ last ticket earlier note mark later result answer,
      scheduler.follow (before ++ other :: rest) =
        some (last, earlier ++ mark :: later) ∧
      journal = earlier ++ note :: later ∧
      note.answered? = some (ticket, result) ∧ mark.answered? = some (ticket, answer) ∧
      ∀ different ≠ ticket, last.result? different = after.result? different := by
  obtain ⟨middle, earlier, later, begun, continued, rfl⟩ := follow_append.mp followed
  obtain ⟨ended, notes, rest, moved, further, rfl⟩ := follow_cons.mp continued
  obtain ⟨service, result, note, served, rfl, rfl, noted⟩ := undergo_end ends moved
  obtain ⟨⟨final, all⟩, reached⟩ := Option.isSome_iff_exists.mp possible
  obtain ⟨same, prior, tail, again, ended, -⟩ := follow_append.mp reached
  obtain ⟨rfl, rfl⟩ := Prod.mk.inj (Option.some.inj (begun.symm.trans again))
  obtain ⟨next, marks, -, moved, -, -⟩ := follow_cons.mp ended
  obtain ⟨held, answer, mark, serving, rfl, rfl, marked⟩ := undergo_end also moved
  obtain rfl := Option.some.inj (served.symm.trans serving)
  obtain ⟨last, gone, alike⟩ := (alike_conclude served result answer).follow further
  refine ⟨last, service.ticket, earlier, note, mark, rest, result, answer, ?_, rfl, noted, marked,
    fun different differ => alike.result? differ⟩
  exact follow_append.mpr ⟨middle, earlier, mark :: rest, begun,
    follow_cons.mpr ⟨_, [mark], rest, moved, gone, rfl⟩, rfl⟩

end Scheduler

end CardNet
