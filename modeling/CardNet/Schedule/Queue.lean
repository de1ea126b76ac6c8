import CardNet.Schedule.Priority

/-!
# Queues

A queue hands out what was put in by descending priority, and what has one priority in the order
in which it came. Every entry gets a number when it is put in; `Entry.before` is the order of
service. That the waiting entries stand in this order and that no number is given out twice is
part of the type of queues.
-/

namespace CardNet

/-- Something that waits, with the number under which it came in. -/
structure Entry (α : Type) where
  number : Nat
  priority : Priority
  item : α

namespace Entry

variable {α : Type}

/-- The order of service: higher priority first, then the smaller number. -/
def before (first second : Entry α) : Prop :=
  second.priority.rank < first.priority.rank ∨
    (second.priority.rank = first.priority.rank ∧ first.number < second.number)

instance (first second : Entry α) : Decidable (first.before second) :=
  inferInstanceAs (Decidable (_ ∨ _))

theorem before_trans {first second third : Entry α} (left : first.before second)
    (right : second.before third) : first.before third := by
  unfold before at *
  omega

theorem before_or_before {first second : Entry α} (differ : first.number ≠ second.number) :
    first.before second ∨ second.before first := by
  unfold before
  omega

theorem not_before_self (entry : Entry α) : ¬entry.before entry := by
  unfold before
  omega

/-- Put an entry in front of the first one that it comes before. -/
def insertInto (entry : Entry α) : List (Entry α) → List (Entry α)
  | [] => [entry]
  | head :: rest =>
      if entry.before head then entry :: head :: rest else head :: insertInto entry rest

theorem perm_insertInto (entry : Entry α) (entries : List (Entry α)) :
    (entry.insertInto entries).Perm (entry :: entries) := by
  induction entries with
  | nil => exact .refl _
  | cons head rest ih =>
      unfold insertInto
      split
      · exact .refl _
      · exact (ih.cons head).trans (.swap entry head rest)

theorem pairwise_insertInto {entry : Entry α} {entries : List (Entry α)}
    (ordered : entries.Pairwise before) (fresh : ∀ other ∈ entries, other.number ≠ entry.number) :
    (entry.insertInto entries).Pairwise before := by
  induction entries with
  | nil => simp [insertInto]
  | cons head rest ih =>
      rw [List.pairwise_cons] at ordered
      unfold insertInto
      split
      · next first =>
          refine List.pairwise_cons.mpr ⟨?_, List.pairwise_cons.mpr ordered⟩
          intro other member
          rcases List.mem_cons.mp member with rfl | inRest
          · exact first
          · exact before_trans first (ordered.1 other inRest)
      · next notFirst =>
          have differ := fresh head (List.mem_cons_self ..)
          have headFirst := (before_or_before differ).resolve_right notFirst
          refine List.pairwise_cons.mpr ⟨?_, ih ordered.2 ?_⟩
          · intro other member
            rcases List.mem_cons.mp ((perm_insertInto entry rest).mem_iff.mp member) with
              rfl | inRest
            · exact headFirst
            · exact ordered.1 other inRest
          · exact fun other inRest => fresh other (List.mem_cons_of_mem _ inRest)

end Entry

/-- Entries in the order of service. -/
structure Queue (α : Type) where
  waiting : List (Entry α)
  /-- The number of the next entry. -/
  next : Nat
  ordered : waiting.Pairwise Entry.before
  fresh : ∀ entry ∈ waiting, entry.number < next

namespace Queue

variable {α : Type}

/-- The queue in which nothing waits. -/
def empty : Queue α := ⟨[], 0, .nil, by simp⟩

instance : Inhabited (Queue α) := ⟨empty⟩

/-- What waits, in the order of service. -/
def toList (queue : Queue α) : List α := queue.waiting.map Entry.item

/-- The number of entries that wait. -/
def size (queue : Queue α) : Nat := queue.waiting.length

/-- Whether nothing waits. -/
def isEmpty (queue : Queue α) : Bool := queue.waiting.isEmpty

/-- Put something in. -/
def push (queue : Queue α) (priority : Priority) (item : α) : Queue α where
  waiting := Entry.insertInto ⟨queue.next, priority, item⟩ queue.waiting
  next := queue.next + 1
  ordered := Entry.pairwise_insertInto queue.ordered fun other member =>
    Nat.ne_of_lt (queue.fresh other member)
  fresh := by
    intro other member
    rcases List.mem_cons.mp ((Entry.perm_insertInto _ _).mem_iff.mp member) with rfl | inOld
    · exact Nat.lt_succ_self _
    · exact Nat.lt_succ_of_lt (queue.fresh other inOld)

/-- The queue behind the first of some entries that are left of a queue. -/
def ofRest (queue : Queue α) (head : Entry α) (rest : List (Entry α))
    (split : queue.waiting = head :: rest) : Queue α where
  waiting := rest
  next := queue.next
  ordered := (List.pairwise_cons.mp (split ▸ queue.ordered)).2
  fresh := fun other member => queue.fresh other (split ▸ List.mem_cons_of_mem _ member)

/-- Take out the next in the order of service, if anything waits. -/
def pop (queue : Queue α) : Option (α × Queue α) :=
  match split : queue.waiting with
  | [] => none
  | head :: rest => some (head.item, queue.ofRest head rest split)

theorem pop_eq_none_iff {queue : Queue α} : queue.pop = none ↔ queue.waiting = [] := by
  unfold pop
  split <;> simp_all

theorem waiting_of_pop {queue rest : Queue α} {item : α} (popped : queue.pop = some (item, rest)) :
    ∃ head, head.item = item ∧ queue.waiting = head :: rest.waiting := by
  unfold pop at popped
  split at popped
  · simp at popped
  · next head tail split =>
      simp only [Option.some.injEq, Prod.mk.injEq] at popped
      exact ⟨head, popped.1, by rw [← popped.2]; exact split⟩

end Queue

end CardNet
