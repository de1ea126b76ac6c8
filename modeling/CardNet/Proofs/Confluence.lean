import Mathlib.Data.List.Nodup
import Mathlib.Logic.Relation

/-!
# Orders of work

Work items that do not depend on one another can be done in either order. When a list is arranged
so that no item stands before one that it depends on (`Arranged`), the outcome of working it off
is the same for every such arrangement (`Arranged.foldlM_eq`), failures included.
-/

namespace CardNet

variable {ι σ : Type}

/-- A list without repetition in which no item stands before one that it comes after. -/
structure Arranged (before : ι → ι → Prop) (items : List ι) : Prop where
  nodup : items.Nodup
  ordered : items.Pairwise fun first second => ¬before second first

/-- What an item depends on at once stands before it, hence also what it depends on in the
end. -/
theorem mem_of_transGen {needs : ι → ι → Prop} {items : List ι}
    (closed : ∀ front item rest, items = front ++ item :: rest →
      ∀ other, needs other item → other ∈ front)
    {first last : ι} (path : Relation.TransGen needs first last) {front rest : List ι}
    (split : items = front ++ last :: rest) : first ∈ front := by
  induction path generalizing front rest with
  | single step => exact closed _ _ _ split _ step
  | @tail middle last _ step ih =>
      obtain ⟨early, late, same⟩ := List.append_of_mem (closed _ _ _ split _ step)
      have member := @ih early (late ++ last :: rest) (by simp [split, same])
      exact same ▸ List.mem_append_left _ member

namespace Arranged

/-- A list without repetition in which what an item needs stands before it. -/
theorem of_closed {needs : ι → ι → Prop} {items : List ι} (nodup : items.Nodup)
    (closed : ∀ front item rest, items = front ++ item :: rest →
      ∀ other, needs other item → other ∈ front) :
    Arranged (Relation.TransGen needs) items where
  nodup := nodup
  ordered := by
    rw [List.pairwise_iff_getElem]
    intro i j iLt jLt less path
    have split : items = items.take i ++ items[i] :: items.drop (i + 1) := by simp
    have early := mem_of_transGen closed path split
    obtain ⟨k, kLt, same⟩ := List.mem_take_iff_getElem.mp early
    have equal := nodup.getElem_inj_iff.mp same
    omega

variable {before : ι → ι → Prop} {item : ι} {front rest : List ι}

theorem tail (arranged : Arranged before (item :: rest)) : Arranged before rest :=
  ⟨(List.nodup_cons.mp arranged.nodup).2, (List.pairwise_cons.mp arranged.ordered).2⟩

theorem drop_middle (arranged : Arranged before (front ++ item :: rest)) :
    Arranged before (front ++ rest) := by
  have sublist : (front ++ rest).Sublist (front ++ item :: rest) :=
    (List.sublist_cons_self item rest).append_left front
  exact ⟨arranged.nodup.sublist sublist, arranged.ordered.sublist sublist⟩

end Arranged

/-- An item that can be exchanged with all items before it may as well be done first. -/
theorem foldlM_move_front {act : σ → ι → Option σ} {item : ι} {front : List ι}
    (swap : ∀ other ∈ front, ∀ state,
      (act state item).bind (act · other) = (act state other).bind (act · item))
    (rest : List ι) (state : σ) :
    (front ++ item :: rest).foldlM act state = (item :: (front ++ rest)).foldlM act state := by
  induction front generalizing state with
  | nil => rfl
  | cons head tail ih =>
      have moved := ih fun other member => swap other (List.mem_cons_of_mem _ member)
      have exchanged := swap head (List.mem_cons_self ..) state
      calc ((head :: tail) ++ item :: rest).foldlM act state
          = (act state head).bind fun next => (tail ++ item :: rest).foldlM act next := rfl
        _ = (act state head).bind fun next =>
              (act next item).bind fun last => (tail ++ rest).foldlM act last := by
            simp only [moved, List.foldlM_cons]
            rfl
        _ = ((act state head).bind (act · item)).bind
              fun last => (tail ++ rest).foldlM act last := (Option.bind_assoc ..).symm
        _ = ((act state item).bind (act · head)).bind
              fun last => (tail ++ rest).foldlM act last := by rw [exchanged]
        _ = (item :: ((head :: tail) ++ rest)).foldlM act state := Option.bind_assoc ..

/-- When items can be exchanged unless one comes before the other, all arrangements of the same
items have the same outcome. -/
theorem Arranged.foldlM_eq {act : σ → ι → Option σ} {before : ι → ι → Prop}
    {first second : List ι} (left : Arranged before first) (right : Arranged before second)
    (perm : first.Perm second)
    (swap : ∀ item ∈ first, ∀ other ∈ first, item ≠ other →
      ¬before item other → ¬before other item → ∀ state,
        (act state item).bind (act · other) = (act state other).bind (act · item))
    (state : σ) : first.foldlM act state = second.foldlM act state := by
  induction first generalizing second state with
  | nil => rw [perm.nil_eq]
  | cons item rest ih =>
      obtain ⟨front, back, rfl⟩ := List.append_of_mem (perm.mem_iff.mp (List.mem_cons_self ..))
      have shifted : (item :: rest).Perm (item :: (front ++ back)) :=
        perm.trans List.perm_middle
      have early : ∀ other ∈ front, ∀ state,
          (act state item).bind (act · other) = (act state other).bind (act · item) := by
        intro other member
        have differ : other ≠ item :=
          (List.nodup_append.mp right.nodup).2.2 other member item (List.mem_cons_self ..)
        have known : other ∈ item :: rest :=
          perm.mem_iff.mpr (List.mem_append_left _ member)
        have later : other ∈ rest := (List.mem_cons.mp known).resolve_left differ
        refine swap item (List.mem_cons_self ..) other known differ.symm ?_ ?_
        · exact (List.pairwise_append.mp right.ordered).2.2 other member item
            (List.mem_cons_self ..)
        · exact (List.pairwise_cons.mp left.ordered).1 other later
      rw [foldlM_move_front early, List.foldlM_cons, List.foldlM_cons]
      congr
      funext next
      refine ih left.tail right.drop_middle shifted.cons_inv ?_ next
      exact fun one oneIn two twoIn =>
        swap one (List.mem_cons_of_mem _ oneIn) two (List.mem_cons_of_mem _ twoIn)

/-- Items of a list can be numbered so that a relation without a cycle leads to higher numbers. -/
theorem exists_depth {leads : ι → ι → Prop} {items : List ι}
    (within : ∀ first second, leads first second → first ∈ items)
    (acyclic : ∀ item, ¬Relation.TransGen leads item item) :
    ∃ depth : ι → Nat, ∀ first second, leads first second → depth first < depth second := by
  classical
  -- The depth of an item is the number of items that lead to it in the end.
  refine ⟨fun item => items.countP fun other => Relation.TransGen leads other item, ?_⟩
  intro first second arc
  obtain ⟨front, rest, split⟩ := List.append_of_mem (within first second arc)
  have grows : ∀ other ∈ items, decide (Relation.TransGen leads other first) = true →
      decide (Relation.TransGen leads other second) = true := fun other _ path =>
    decide_eq_true ((of_decide_eq_true path).tail arc)
  have before := List.countP_mono_left fun other (member : other ∈ front) =>
    grows other (split ▸ List.mem_append_left _ member)
  have behind := List.countP_mono_left fun other (member : other ∈ rest) =>
    grows other (split ▸ List.mem_append_right _ (List.mem_cons_of_mem _ member))
  simp only [split, List.countP_append, List.countP_cons, decide_eq_true_eq,
    eq_false (acyclic first), eq_true (Relation.TransGen.single arc), ↓reduceIte]
  omega

end CardNet
