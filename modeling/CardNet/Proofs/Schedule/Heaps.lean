import CardNet.Schedule.Queue
import Mathlib.Data.List.Nodup

/-!
# Heaps of entries

Entries are compared by their priorities, and of two that have one priority the one with the
smaller number is the greater. Two entries count as equal when they have one number. A heap is any
store that hands out a greatest entry; what it promises, it promises only as long as the comparison
orders its entries totally and no two of them count as equal (`Entry.Comparable`). Entries with
distinct numbers meet this (`Entry.comparable_of_numbers`).
-/

namespace CardNet

namespace Entry

variable {α : Type} {first second : Entry α} {entries : List (Entry α)}

instance : Ord (Entry α) where
  compare first second :=
    (compare first.priority.rank second.priority.rank).then (compare second.number first.number)

instance : BEq (Entry α) where
  beq first second := first.number == second.number

theorem compare_eq_then (first second : Entry α) : compare first second =
    (compare first.priority.rank second.priority.rank).then (compare second.number first.number) :=
  rfl

theorem beq_iff : first == second ↔ first.number = second.number :=
  show first.number == second.number ↔ _ from beq_iff_eq

/-- The greater of two entries is the one that is served first. -/
theorem compare_eq_gt_iff : compare first second = .gt ↔ first.before second := by
  rw [compare_eq_then, Ordering.then_eq_gt, Nat.compare_eq_gt, Nat.compare_eq_eq,
    Nat.compare_eq_gt, before, eq_comm]

theorem compare_eq_eq_iff : compare first second = .eq ↔
    first.priority = second.priority ∧ first.number = second.number := by
  rw [compare_eq_then, Ordering.then_eq_eq, Nat.compare_eq_eq, Nat.compare_eq_eq]
  exact and_congr ⟨Priority.rank_injective, congrArg Priority.rank⟩ eq_comm

theorem compare_swap (first second : Entry α) :
    compare first second = (compare second first).swap := by
  rw [compare_eq_then, compare_eq_then, Ordering.swap_then, Nat.compare_swap, Nat.compare_swap]

theorem isLE_compare_iff : (compare first second).isLE ↔ ¬first.before second := by
  rw [Ordering.isLE_iff_ne_gt, compare_eq_gt_iff]

instance : Std.TransOrd (Entry α) where
  eq_swap := compare_swap _ _
  isLE_trans := by
    intro first second third left right
    rw [isLE_compare_iff, before] at *
    omega

/-- What a heap asks of the comparison of some entries: it orders them totally, and it says of an
entry and of no other one that they are equal. -/
structure Comparable (entries : List (Entry α)) : Prop where
  swap : ∀ first ∈ entries, ∀ second ∈ entries,
    compare first second = (compare second first).swap
  trans : ∀ first ∈ entries, ∀ second ∈ entries, ∀ third ∈ entries,
    (compare first second).isLE → (compare second third).isLE → (compare first third).isLE
  equal_iff : ∀ first ∈ entries, ∀ second ∈ entries,
    compare first second = .eq ↔ first == second
  eq_of_equal : ∀ first ∈ entries, ∀ second ∈ entries, first == second → first = second

theorem Comparable.antisymm (comparable : Comparable entries) (left : first ∈ entries)
    (right : second ∈ entries) (low : (compare first second).isLE)
    (high : (compare second first).isLE) : first = second := by
  have swapped := comparable.swap first left second right
  cases same : compare second first with
  | lt => rw [swapped, same] at low; cases low
  | eq =>
      rw [same] at swapped
      exact comparable.eq_of_equal first left second right
        ((comparable.equal_iff first left second right).mp swapped)
  | gt => rw [same] at high; cases high

/-- The comparison itself is a total order whatever the entries are. That equal ones are the same
is due to their numbers. -/
theorem comparable_of_numbers (distinct : (entries.map number).Nodup) : Comparable entries := by
  have unique : ∀ first ∈ entries, ∀ second ∈ entries, first == second → first = second :=
    fun first left second right same =>
      List.inj_on_of_nodup_map distinct left right (beq_iff.mp same)
  refine ⟨fun first _ second _ => compare_swap first second,
    fun first _ second _ third _ => Std.TransOrd.isLE_trans, fun first left second right => ?_,
    unique⟩
  refine compare_eq_eq_iff.trans ⟨fun same => beq_iff.mpr same.2, fun same => ?_⟩
  exact ⟨congrArg priority (unique first left second right same), beq_iff.mp same⟩

end Entry

/-- A heap of entries: a store into which entries are put and out of which a greatest one is taken,
in whatever way it keeps them. It is bound to this only while the comparison orders what is in the
store. -/
structure Heap (α : Type) where
  Store : Type
  empty : Store
  push : Store → Entry α → Store
  pop : Store → Option (Entry α × Store)
  /-- What is in a store, in no order that matters. -/
  contents : Store → List (Entry α)
  /-- Whether a store is arranged as the heap needs it. -/
  Sound : Store → Prop
  sound_empty : Sound empty
  contents_empty : contents empty = []
  push_spec : ∀ {store : Store} {entry : Entry α}, Sound store →
    Entry.Comparable (entry :: contents store) →
      Sound (push store entry) ∧ (contents (push store entry)).Perm (entry :: contents store)
  eq_nil_of_pop : ∀ {store : Store}, Sound store → Entry.Comparable (contents store) →
    pop store = none → contents store = []
  pop_spec : ∀ {store rest : Store} {entry : Entry α}, Sound store →
    Entry.Comparable (contents store) → pop store = some (entry, rest) →
      Sound rest ∧ (contents store).Perm (entry :: contents rest) ∧
        ∀ other ∈ contents rest, (compare other entry).isLE

namespace Heap

variable {α : Type} {entries rest : List (Entry α)} {entry : Entry α}

/-- Take a greatest of some entries out. -/
def extract : List (Entry α) → Option (Entry α × List (Entry α))
  | [] => none
  | head :: tail =>
      match extract tail with
      | none => some (head, tail)
      | some (entry, rest) =>
          if compare entry head = .gt then some (entry, head :: rest) else some (head, tail)

theorem eq_nil_of_extract (extracted : extract entries = none) : entries = [] := by
  cases entries with
  | nil => rfl
  | cons head tail =>
      rw [extract] at extracted
      split at extracted
      · cases extracted
      · split at extracted <;> cases extracted

theorem perm_extract (extracted : extract entries = some (entry, rest)) :
    entries.Perm (entry :: rest) := by
  induction entries generalizing entry rest with
  | nil => cases extracted
  | cons head tail ih =>
      rw [extract] at extracted
      split at extracted
      · cases extracted
        exact .refl _
      · next other others taken =>
          split at extracted
          · cases extracted
            exact ((ih taken).cons head).trans (.swap ..)
          · cases extracted
            exact .refl _

theorem isLE_of_extract (extracted : extract entries = some (entry, rest)) :
    ∀ other ∈ rest, (compare other entry).isLE := by
  induction entries generalizing entry rest with
  | nil => cases extracted
  | cons head tail ih =>
      rw [extract] at extracted
      split at extracted
      · next taken =>
          cases extracted
          rw [eq_nil_of_extract taken]
          exact fun other member => nomatch member
      · next greatest others taken =>
          split at extracted
          · next above =>
              cases extracted
              intro other member
              rcases List.mem_cons.mp member with rfl | behind
              · rw [Entry.compare_swap, above]
                rfl
              · exact ih taken other behind
          · next below =>
              cases extracted
              have low := Ordering.isLE_iff_ne_gt.mpr below
              intro other member
              rcases List.mem_cons.mp ((perm_extract taken).mem_iff.mp member) with rfl | behind
              · exact low
              · exact Std.TransOrd.isLE_trans (ih taken other behind) low

/-- The heap that keeps entries as they come and looks for a greatest one when it has to. -/
def searching (α : Type) : Heap α where
  Store := List (Entry α)
  empty := []
  push store entry := entry :: store
  pop := extract
  contents := id
  Sound _ := True
  sound_empty := trivial
  contents_empty := rfl
  push_spec _ _ := ⟨trivial, .refl _⟩
  eq_nil_of_pop _ _ := eq_nil_of_extract
  pop_spec _ _ extracted := ⟨trivial, perm_extract extracted, isLE_of_extract extracted⟩

end Heap

end CardNet
