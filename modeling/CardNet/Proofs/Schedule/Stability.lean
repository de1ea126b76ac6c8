import CardNet.Proofs.Schedule.Heaps
import CardNet.Proofs.Schedule.Moves
import Mathlib.Data.List.Sort

/-!
# Queues are stable

However pushes and pops follow one another, a pop takes out of what waits an entry of the highest
priority, and of those the one that came first; nothing is taken out twice and nothing is lost; and
what a queue still gives out is what waits, sorted by descending priority with the order of arrival
kept (`Queue.stable_by_priority`). The entries of a queue have distinct numbers, so every heap
orders them totally, and a queue that keeps its entries in a heap answers the same.

What happens to a queue is a list of moves, and what is seen of it is a trace. What waits is
read off the trace alone, in the order of arrival (`Queue.Trace.pending`).
-/

namespace CardNet

namespace Entry

variable {α : Type} {entries : List (Entry α)}

/-- Whether the priority of an entry is at least that of another. -/
def atLeast (first second : Entry α) : Bool := second.priority.rank ≤ first.priority.rank

theorem atLeast_iff {first second : Entry α} :
    first.atLeast second ↔ second.priority.rank ≤ first.priority.rank :=
  decide_eq_true_iff

theorem atLeast_trans (first second third : Entry α) (left : first.atLeast second)
    (right : second.atLeast third) : first.atLeast third := by
  rw [atLeast_iff] at *
  omega

theorem atLeast_total (first second : Entry α) : first.atLeast second || second.atLeast first := by
  rw [Bool.or_eq_true, atLeast_iff, atLeast_iff]
  omega

/-- Sorting by priority leaves the entries of each priority as they are. -/
theorem filter_mergeSort (entries : List (Entry α)) (priority : Priority) :
    (entries.mergeSort atLeast).filter (fun entry => entry.priority = priority) =
      entries.filter fun entry => entry.priority = priority := by
  have level : (entries.filter fun entry => entry.priority = priority).Pairwise
      fun first second => first.atLeast second := by
    refine List.pairwise_of_forall_mem_list fun first left second right => atLeast_iff.mpr ?_
    have high := of_decide_eq_true (List.mem_filter.mp left).2
    have low := of_decide_eq_true (List.mem_filter.mp right).2
    rw [high, low]
  have kept := List.sublist_mergeSort atLeast_trans atLeast_total level List.filter_sublist
  have inside := kept.filter fun entry => entry.priority = priority
  simp only [List.filter_filter, Bool.and_self] at inside
  exact (inside.eq_of_length ((List.mergeSort_perm entries _).filter _).length_eq.symm).symm

/-- Entries in the order of arrival are in the order of service once they are sorted by
priority. -/
theorem pairwise_mergeSort
    (arrived : entries.Pairwise fun first second => first.number < second.number) :
    (entries.mergeSort atLeast).Pairwise before := by
  have descending := List.pairwise_mergeSort atLeast_trans atLeast_total entries
  refine List.pairwise_iff_forall_sublist.mpr fun {first second} pair => ?_
  have high := atLeast_iff.mp (List.pairwise_iff_forall_sublist.mp descending pair)
  by_cases tie : second.priority = first.priority
  · -- both stand among the entries of one priority, which sorting does not move
    have both : [first, second].filter (fun entry => entry.priority = first.priority) =
        [first, second] := by simp [tie]
    have level := pair.filter fun entry => entry.priority = first.priority
    rw [both, filter_mergeSort] at level
    have earlier := List.pairwise_iff_forall_sublist.mp (arrived.filter _) level
    exact .inr ⟨congrArg Priority.rank tie, earlier⟩
  · exact .inl (lt_of_le_of_ne high fun same => tie (Priority.rank_injective same))

end Entry

namespace Queue

variable {α : Type} {queue rest : Queue α} {entry : Entry α}

/-- What a pop takes out, with its number and its priority, and the queue that is left. -/
def take (queue : Queue α) : Option (Entry α × Queue α) :=
  queue.pop.bind fun popped => queue.waiting.head?.map fun entry => (entry, popped.2)

theorem take_of_pop {item : α} (popped : queue.pop = some (item, rest)) :
    ∃ entry, entry.item = item ∧ queue.waiting = entry :: rest.waiting ∧
      queue.take = some (entry, rest) := by
  obtain ⟨entry, held, split⟩ := waiting_of_pop popped
  refine ⟨entry, held, split, ?_⟩
  rw [take, popped, Option.bind_some, split]
  rfl

theorem take_eq_none_iff : queue.take = none ↔ queue.waiting = [] := by
  constructor
  · intro nothing
    cases popped : queue.pop with
    | none => exact pop_eq_none_iff.mp popped
    | some pair =>
        obtain ⟨entry, -, -, taken⟩ := take_of_pop popped
        cases nothing.symm.trans taken
  · intro nothing
    rw [take, pop_eq_none_iff.mpr nothing, Option.bind_none]

theorem take_spec (taken : queue.take = some (entry, rest)) :
    queue.waiting = entry :: rest.waiting ∧ rest.next = queue.next := by
  cases popped : queue.pop with
  | none =>
      rw [take, popped] at taken
      cases taken
  | some pair =>
      obtain ⟨other, -, split, same⟩ := take_of_pop popped
      cases taken.symm.trans same
      exact ⟨split, next_of_pop popped⟩

theorem size_lt_of_pop {item : α} (popped : queue.pop = some (item, rest)) :
    rest.size < queue.size := by
  obtain ⟨head, -, split⟩ := waiting_of_pop popped
  rw [size, size, split]
  exact Nat.lt_succ_self _

/-- Everything that a queue hands out until nothing waits. -/
def drain (queue : Queue α) : List α :=
  match popped : queue.pop with
  | none => []
  | some (item, rest) =>
      have := size_lt_of_pop popped
      item :: rest.drain
termination_by queue.size

theorem drain_eq_toList (queue : Queue α) : queue.drain = queue.toList := by
  fun_induction drain queue with
  | case1 queue none => rw [toList, pop_eq_none_iff.mp none, List.map_nil]
  | case2 queue item rest popped _ ih =>
      obtain ⟨head, rfl, split⟩ := waiting_of_pop popped
      rw [ih, toList, toList, split, List.map_cons]

/-- What can be done to a queue. -/
inductive Move (α : Type) where
  | push (priority : Priority) (item : α)
  | pop

/-- What is seen of a move. -/
inductive Note (α : Type) where
  | entered (entry : Entry α)
  | left (entry : Entry α)
  /-- Nothing was there to be taken out. -/
  | idle

namespace Note

/-- The entry that was put in. -/
def entered? : Note α → Option (Entry α)
  | entered entry => some entry
  | _ => none

/-- The entry that was taken out. -/
def left? : Note α → Option (Entry α)
  | left entry => some entry
  | _ => none

end Note

/-- What was seen, oldest first. -/
abbrev Trace (α : Type) := List (Note α)

namespace Trace

/-- The entries that were put in, in the order of arrival. -/
def entered (trace : Trace α) : List (Entry α) := trace.filterMap Note.entered?

/-- The entries that were taken out, in this order. -/
def left (trace : Trace α) : List (Entry α) := trace.filterMap Note.left?

/-- The entries that were put in and not taken out, in the order of arrival. -/
def pending (trace : Trace α) : List (Entry α) :=
  trace.entered.filter fun entry => entry.number ∉ trace.left.map Entry.number

@[simp] theorem entered_append (earlier later : Trace α) :
    entered (earlier ++ later) = entered earlier ++ entered later :=
  List.filterMap_append

@[simp] theorem left_append (earlier later : Trace α) :
    left (earlier ++ later) = left earlier ++ left later :=
  List.filterMap_append

end Trace

/-- The queue after a move, and what is seen of it. -/
def undergo (queue : Queue α) : Move α → Queue α × Note α
  | .push priority item => (queue.push priority item, .entered ⟨queue.next, priority, item⟩)
  | .pop =>
      match queue.take with
      | none => (queue, .idle)
      | some (entry, rest) => (rest, .left entry)

/-- The state after moves in order, and what is seen of them. -/
def followBy {σ : Type} (step : σ → Move α → σ × Note α) (state : σ) : List (Move α) → σ × Trace α
  | [] => (state, [])
  | move :: moves =>
      let next := step state move
      let last := followBy step next.1 moves
      (last.1, next.2 :: last.2)

/-- What becomes of an empty queue. -/
def follow (moves : List (Move α)) : Queue α × Trace α := followBy undergo empty moves

/-- How a queue and what was seen of it belong together: what came and did not leave waits, and the
numbers count the arrivals. -/
structure Accounts (queue : Queue α) (trace : Trace α) : Prop where
  numbered : trace.entered.map Entry.number = List.range queue.next
  kept : trace.entered.Perm (trace.left ++ queue.waiting)

theorem accounts_empty : Accounts (empty : Queue α) [] := ⟨rfl, .refl _⟩

namespace Accounts

variable {trace : Trace α} (accounts : Accounts queue trace)

include accounts

theorem push (priority : Priority) (item : α) :
    Accounts (queue.push priority item)
      (trace ++ [.entered ⟨queue.next, priority, item⟩]) where
  numbered := by
    rw [Trace.entered_append, List.map_append, accounts.numbered]
    exact List.range_succ.symm
  kept := by
    have put := Entry.perm_insertInto ⟨queue.next, priority, item⟩ queue.waiting
    rw [Trace.entered_append, Trace.left_append]
    refine (List.perm_append_singleton ..).trans ((accounts.kept.cons _).trans ?_)
    refine List.perm_middle.symm.trans ?_
    exact (List.append_nil trace.left).symm ▸ put.symm.append_left _

theorem take (taken : queue.take = some (entry, rest)) :
    Accounts rest (trace ++ [.left entry]) where
  numbered := by
    rw [Trace.entered_append, (take_spec taken).2, ← accounts.numbered]
    exact congrArg _ (List.append_nil _)
  kept := by
    have kept := accounts.kept
    rw [(take_spec taken).1, List.append_cons] at kept
    rw [Trace.entered_append, Trace.left_append]
    exact (List.append_nil _).symm ▸ kept

theorem idle : Accounts queue (trace ++ [.idle]) where
  numbered := by
    rw [Trace.entered_append, ← accounts.numbered]
    exact congrArg _ (List.append_nil _)
  kept := by
    rw [Trace.entered_append, Trace.left_append]
    exact (List.append_nil trace.entered).symm ▸ (List.append_nil trace.left).symm ▸ accounts.kept

/-- One case for each kind of move. -/
theorem undergo (move : Move α) :
    Accounts (queue.undergo move).1 (trace ++ [(queue.undergo move).2]) := by
  cases move with
  | push priority item => exact accounts.push priority item
  | pop =>
      rw [Queue.undergo]
      split
      · exact accounts.idle
      · next taken => exact accounts.take taken

/-! ## What waits -/

theorem distinct : (trace.entered.map Entry.number).Nodup := accounts.numbered ▸ List.nodup_range

/-- No number is among those that left and among those that wait. -/
theorem distinct_places :
    (trace.left.map Entry.number ++ queue.waiting.map Entry.number).Nodup := by
  rw [← List.map_append]
  exact (accounts.kept.map _).nodup_iff.mp accounts.distinct

theorem distinct_waiting : (queue.waiting.map Entry.number).Nodup :=
  (List.nodup_append.mp accounts.distinct_places).2.1

theorem perm_pending : trace.pending.Perm queue.waiting := by
  have disjoint := List.disjoint_of_nodup_append accounts.distinct_places
  refine (accounts.kept.filter _).trans ?_
  rw [List.filter_append, List.filter_eq_nil_iff.mpr, List.filter_eq_self.mpr, List.nil_append]
  · intro entry waits
    exact decide_eq_true fun gone => disjoint gone (List.mem_map_of_mem waits)
  · intro entry gone
    simpa using ⟨entry, gone, rfl⟩

theorem pairwise_pending :
    trace.pending.Pairwise fun first second => first.number < second.number := by
  have ordered : (trace.entered.map Entry.number).Pairwise (· < ·) :=
    accounts.numbered ▸ List.pairwise_lt_range
  exact (List.pairwise_map.mp ordered).filter _

/-- Both lists are in the order of service, in which no entry comes before itself. -/
theorem waiting_eq : queue.waiting = trace.pending.mergeSort Entry.atLeast := by
  have served := Entry.pairwise_mergeSort accounts.pairwise_pending
  have same := accounts.perm_pending.symm.trans (List.mergeSort_perm _ Entry.atLeast).symm
  refine same.eq_of_pairwise (fun first second _ _ left right => ?_) queue.ordered served
  exact absurd (Entry.before_trans left right) (Entry.not_before_self first)

/-- What is taken out has the highest priority of all that waits, and came first of those. -/
theorem pending_of_take (taken : queue.take = some (entry, rest)) :
    ∃ front back, trace.pending = front ++ entry :: back ∧
      (∀ other ∈ front, other.priority.rank < entry.priority.rank) ∧
      ∀ other ∈ back, other.priority.rank ≤ entry.priority.rank := by
  have split := (take_spec taken).1
  have next : ∀ other ∈ trace.pending, other.number ≠ entry.number → entry.before other := by
    intro other waits differ
    have ordered := queue.ordered
    have behind := accounts.perm_pending.mem_iff.mp waits
    rw [split] at ordered behind
    rcases List.mem_cons.mp behind with rfl | behind
    · exact absurd rfl differ
    · exact (List.pairwise_cons.mp ordered).1 other behind
  have waits : entry ∈ trace.pending :=
    accounts.perm_pending.mem_iff.mpr (split ▸ List.mem_cons_self)
  -- all that waits comes behind the entry in the order of service, so what arrived before it can
  -- only be of lower priority
  obtain ⟨front, back, around⟩ := List.append_of_mem waits
  have arrived := accounts.pairwise_pending
  rw [around] at arrived next
  obtain ⟨-, behind, ahead⟩ := List.pairwise_append.mp arrived
  refine ⟨front, back, around, fun other member => ?_, fun other member => ?_⟩
  · have earlier := ahead other member entry List.mem_cons_self
    have before := next other (List.mem_append_left _ member) (Nat.ne_of_lt earlier)
    exact before.resolve_right fun tie => Nat.lt_asymm earlier tie.2
  · have later := (List.pairwise_cons.mp behind).1 other member
    have before := next other (List.mem_append_right _ (List.mem_cons_of_mem _ member))
      (Nat.ne_of_gt later)
    exact before.elim Nat.le_of_lt fun tie => Nat.le_of_eq tie.1

end Accounts

/-- By induction on the moves. -/
theorem accounts_followBy {trace : Trace α} (accounts : Accounts queue trace)
    (moves : List (Move α)) :
    Accounts (followBy undergo queue moves).1 (trace ++ (followBy undergo queue moves).2) := by
  induction moves generalizing queue trace with
  | nil => exact (List.append_nil trace).symm ▸ accounts
  | cons move moves ih =>
      rw [followBy, List.append_cons]
      exact ih (accounts.undergo move)

end Queue

/-! ## Heaps -/

namespace Heap

variable {α : Type} (heap : Heap α) {queue : Queue α} {trace : Queue.Trace α}

/-- The store and the number of the next entry after a move, and what is seen of it. -/
def undergo (state : heap.Store × Nat) : Queue.Move α → (heap.Store × Nat) × Queue.Note α
  | .push priority item =>
      let entry : Entry α := ⟨state.2, priority, item⟩
      ((heap.push state.1 entry, state.2 + 1), .entered entry)
  | .pop =>
      match heap.pop state.1 with
      | none => (state, .idle)
      | some (entry, rest) => ((rest, state.2), .left entry)

/-- What becomes of an empty heap. -/
def follow (moves : List (Queue.Move α)) : (heap.Store × Nat) × Queue.Trace α :=
  Queue.followBy heap.undergo (heap.empty, 0) moves

/-- A heap that holds what waits in a queue and gives the same number next. -/
structure Holds (state : heap.Store × Nat) (queue : Queue α) : Prop where
  sound : heap.Sound state.1
  next : state.2 = queue.next
  perm : (heap.contents state.1).Perm queue.waiting

variable {heap} {state : heap.Store × Nat}

namespace Holds

variable (holds : heap.Holds state queue)

include holds

theorem push (accounts : queue.Accounts trace) (priority : Priority) (item : α) :
    heap.Holds (heap.push state.1 ⟨state.2, priority, item⟩, state.2 + 1)
      (queue.push priority item) := by
  have distinct : ((⟨state.2, priority, item⟩ :: heap.contents state.1).map
      Entry.number).Nodup := by
    refine List.nodup_cons.mpr ⟨fun given => ?_,
      (holds.perm.map _).nodup_iff.mpr accounts.distinct_waiting⟩
    obtain ⟨entry, held, same⟩ := List.mem_map.mp given
    have less := queue.fresh entry (holds.perm.mem_iff.mp held)
    exact Nat.ne_of_lt less (same.trans holds.next)
  obtain ⟨sound, perm⟩ := heap.push_spec holds.sound (Entry.comparable_of_numbers distinct)
  refine ⟨sound, congrArg (· + 1) holds.next, perm.trans ?_⟩
  rw [holds.next]
  exact (holds.perm.cons _).trans (Entry.perm_insertInto _ _).symm

theorem comparable (accounts : queue.Accounts trace) :
    Entry.Comparable (heap.contents state.1) :=
  Entry.comparable_of_numbers ((holds.perm.map _).nodup_iff.mpr accounts.distinct_waiting)

theorem take_eq_none (accounts : queue.Accounts trace) (popped : heap.pop state.1 = none) :
    queue.take = none := by
  have perm := holds.perm
  rw [heap.eq_nil_of_pop holds.sound (holds.comparable accounts) popped] at perm
  exact Queue.take_eq_none_iff.mpr (List.nil_perm.mp perm)

/-- A heap and a queue hand out the same entry: the greatest one of the heap and the first one of
the queue are not less than each other. -/
theorem take_eq_some (accounts : queue.Accounts trace) {entry : Entry α} {store : heap.Store}
    (popped : heap.pop state.1 = some (entry, store)) :
    ∃ rest, queue.take = some (entry, rest) ∧ heap.Holds (store, state.2) rest := by
  have comparable := holds.comparable accounts
  obtain ⟨sound, split, greatest⟩ := heap.pop_spec holds.sound comparable popped
  have inside : entry ∈ heap.contents state.1 := split.mem_iff.mpr List.mem_cons_self
  cases taken : queue.take with
  | none =>
      have perm := holds.perm
      rw [Queue.take_eq_none_iff.mp taken] at perm
      rw [List.perm_nil.mp perm] at inside
      cases inside
  | some pair =>
      obtain ⟨head, rest⟩ := pair
      obtain ⟨line, next⟩ := Queue.take_spec taken
      have ordered := List.pairwise_cons.mp (line ▸ queue.ordered)
      have member : head ∈ heap.contents state.1 :=
        holds.perm.mem_iff.mpr (line ▸ List.mem_cons_self)
      have low : (compare head entry).isLE := by
        rcases List.mem_cons.mp (split.mem_iff.mp member) with rfl | behind
        · exact Entry.isLE_compare_iff.mpr (Entry.not_before_self head)
        · exact greatest head behind
      have high : (compare entry head).isLE := by
        refine Entry.isLE_compare_iff.mpr fun before => ?_
        rcases List.mem_cons.mp (line ▸ holds.perm.mem_iff.mp inside) with rfl | behind
        · exact Entry.not_before_self entry before
        · exact Entry.not_before_self head
            (Entry.before_trans (ordered.1 entry behind) before)
      obtain rfl := comparable.antisymm member inside low high
      have perm := split.symm.trans holds.perm
      rw [line] at perm
      exact ⟨rest, rfl, sound, holds.next.trans next.symm, perm.cons_inv⟩

/-- Nothing tells a heap and a queue apart by a move. -/
theorem undergo (accounts : queue.Accounts trace) (move : Queue.Move α) :
    (heap.undergo state move).2 = (queue.undergo move).2 ∧
      heap.Holds (heap.undergo state move).1 (queue.undergo move).1 := by
  cases move with
  | push priority item =>
      refine ⟨?_, holds.push accounts priority item⟩
      rw [Heap.undergo, Queue.undergo, holds.next]
  | pop =>
      rw [Heap.undergo]
      split
      · next popped =>
          rw [Queue.undergo, holds.take_eq_none accounts popped]
          exact ⟨rfl, holds⟩
      · next entry store popped =>
          obtain ⟨rest, taken, held⟩ := holds.take_eq_some accounts popped
          rw [Queue.undergo, taken]
          exact ⟨rfl, held⟩

end Holds

/-- By induction on the moves. -/
theorem followBy_eq (holds : heap.Holds state queue) (accounts : queue.Accounts trace)
    (moves : List (Queue.Move α)) :
    (Queue.followBy heap.undergo state moves).2 = (Queue.followBy Queue.undergo queue moves).2 ∧
      heap.Holds (Queue.followBy heap.undergo state moves).1
        (Queue.followBy Queue.undergo queue moves).1 := by
  induction moves generalizing state queue trace with
  | nil => exact ⟨rfl, holds⟩
  | cons move moves ih =>
      obtain ⟨seen, held⟩ := holds.undergo accounts move
      obtain ⟨same, last⟩ := ih held (accounts.undergo move)
      rw [Queue.followBy, Queue.followBy]
      exact ⟨congrArg₂ List.cons seen same, last⟩

end Heap

namespace Queue

variable {α : Type} {queue : Queue α} {trace : Trace α}

/-- A queue that serves by priority and then by arrival, after what was seen of it. -/
structure Serves (queue : Queue α) (trace : Trace α) : Prop extends Accounts queue trace where
  /-- Nothing leaves twice. -/
  once : trace.left.Nodup
  pop_eq_none_iff : queue.pop = none ↔ trace.pending = []
  /-- What a pop hands out has the highest priority of all that waits: whatever came before it is
  of lower priority, and whatever came after it is not of higher priority. -/
  first : ∀ item rest, queue.pop = some (item, rest) → ∃ front entry back,
    queue.undergo .pop = (rest, .left entry) ∧ entry.item = item ∧
      trace.pending = front ++ entry :: back ∧
      (∀ other ∈ front, other.priority.rank < entry.priority.rank) ∧
      ∀ other ∈ back, other.priority.rank ≤ entry.priority.rank
  drained : queue.drain = (trace.pending.mergeSort Entry.atLeast).map Entry.item
  comparable : Entry.Comparable trace.entered

theorem Accounts.serves (accounts : Accounts queue trace) : queue.Serves trace where
  toAccounts := accounts
  once := (List.nodup_append.mp accounts.distinct_places).1.of_map _
  pop_eq_none_iff := by
    rw [Queue.pop_eq_none_iff]
    constructor
    · exact fun none => List.perm_nil.mp (none ▸ accounts.perm_pending)
    · exact fun none => List.nil_perm.mp (none ▸ accounts.perm_pending)
  first := by
    intro item rest popped
    obtain ⟨entry, held, -, taken⟩ := take_of_pop popped
    obtain ⟨front, back, order⟩ := accounts.pending_of_take taken
    refine ⟨front, entry, back, ?_, held, order⟩
    rw [Queue.undergo, taken]
  drained := by rw [drain_eq_toList, toList, accounts.waiting_eq]
  comparable := Entry.comparable_of_numbers accounts.distinct

/-- Queues are stable. After any pushes and pops, in any order: a pop hands out an entry of the
highest priority among all that waits, the one that came first, and nothing just when nothing
waits; everything that came has left once or waits; and what the queue hands out until it is empty
is what waits, sorted by descending priority with the order of arrival kept. The comparison is a
total order on all that ever came, so any heap may keep what waits: the same is seen of it. -/
theorem stable_by_priority (moves : List (Move α)) :
    (follow moves).1.Serves (follow moves).2 ∧
      ∀ heap : Heap α, (heap.follow moves).2 = (follow moves).2 ∧
        heap.Holds (heap.follow moves).1 (follow moves).1 := by
  refine ⟨(accounts_followBy accounts_empty moves).serves, fun heap => ?_⟩
  have blank : heap.Holds (heap.empty, 0) (empty : Queue α) :=
    ⟨heap.sound_empty, rfl, heap.contents_empty ▸ .refl _⟩
  exact Heap.followBy_eq blank accounts_empty moves

/-- Pushes of each priority, with pops before, between and behind them. -/
def rush : List (Move String) :=
  [.pop, .push .low "first", .push .normal "second", .pop, .push .high "third",
    .push .high "fourth", .push .low "fifth", .pop, .push .high "sixth", .pop]

theorem stable_by_priority_rush :
    (follow rush).2.left.map Entry.item = ["second", "third", "fourth"] ∧
      (follow rush).1.drain = ["sixth", "first", "fifth"] ∧
      ((Heap.searching String).follow rush).2.left.map Entry.item =
        ["second", "third", "fourth"] := by
  have taken : (follow rush).2.left.map Entry.item = ["second", "third", "fourth"] := rfl
  obtain ⟨-, heaps⟩ := stable_by_priority rush
  refine ⟨taken, ?_, ?_⟩
  · rw [drain_eq_toList]
    rfl
  · rw [(heaps _).1, taken]

end Queue

end CardNet
