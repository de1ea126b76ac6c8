import CardNet.Proofs.Value.Lookup
import Mathlib.Data.List.Forall2

/-!
# Related values

Named values are related when they have the same names and the values under each name are
(`Values.Related`). Putting values in keeps them related. Equality and the equality by which the
memo is consulted are two such relations (`Values.related_eq_iff`, `Values.agrees_iff`).
-/

namespace CardNet

/-! ## Agreement -/

namespace Value

mutual

theorem agrees_refl : ∀ value : Value, value.agrees value = true
  | .null => rfl
  | .bool b => beq_self_eq_true b
  | .number (.whole n) => beq_self_eq_true n
  | .number (.double x) => by
      rw [agrees, Number.agrees, Double.agrees, beq_self_eq_true, Bool.true_or]
  | .text s => beq_self_eq_true s
  | .list items => by rw [agrees, agreesList_refl items]
  | .object fields => by rw [agrees, agreesFields_refl fields]

theorem agreesList_refl : ∀ items : List Value, agreesList items items = true
  | [] => rfl
  | item :: rest => by rw [agreesList, agrees_refl item, agreesList_refl rest, Bool.and_self]

theorem agreesFields_refl :
    ∀ fields : List (String × Value), agreesFields fields fields = true
  | [] => rfl
  | (name, value) :: rest => by
      rw [agreesFields, beq_self_eq_true, agrees_refl value, agreesFields_refl rest]
      rfl

end

theorem agreesFields_iff {first second : List (String × Value)} :
    agreesFields first second = true ↔
      List.Forall₂ (fun one two => one.1 = two.1 ∧ one.2.agrees two.2 = true) first second := by
  induction first generalizing second with
  | nil => cases second <;> simp [agreesFields]
  | cons field rest ih =>
      cases second with
      | nil => simp [agreesFields]
      | cons other others =>
          rw [agreesFields, Bool.and_eq_true, Bool.and_eq_true, beq_iff_eq, ih,
            List.forall₂_cons]

end Value

/-- Entries under different names come in in either order. -/
theorem insert_comm {κ α : Type} [Ord κ] [Std.TransOrd κ] [Std.LawfulEqOrd κ]
    (entries : Std.ExtTreeMap κ α) {first second : κ} (differ : first ≠ second) (one two : α) :
    (entries.insert first one).insert second two = (entries.insert second two).insert first one := by
  refine Std.ExtTreeMap.ext_getElem? fun name => ?_
  simp only [Std.ExtTreeMap.getElem?_insert]
  split
  · next here =>
      rw [if_neg fun other => differ ((Std.LawfulEqCmp.eq_of_compare other).trans
        (Std.LawfulEqCmp.eq_of_compare here).symm)]
  · rfl

namespace Values

/-- The same names, and related values under each. -/
def Related (relation : Value → Value → Prop) (first second : Values) : Prop :=
  ∀ name : String, Option.Rel relation first[name]? second[name]?

variable {relation : Value → Value → Prop} {first second : Values}

theorem Related.refl (reflexive : ∀ value, relation value value) (values : Values) :
    values.Related relation values := by
  intro name
  cases values[name]? with
  | none => exact .none
  | some value => exact .some (reflexive value)

@[simp] theorem related_eq_iff : first.Related (· = ·) second ↔ first = second := by
  constructor
  · intro related
    refine Std.ExtTreeMap.ext_getElem? fun name => ?_
    have same := related name
    revert same
    cases first[name]? <;> cases second[name]? <;> rintro ⟨⟩ <;> simp_all
  · rintro rfl
    exact .refl (fun _ => rfl) first

/-- What stands under a name on one side has a related value on the other. -/
theorem Related.exists_right (related : first.Related relation second) {name : String}
    {value : Value} (held : first[name]? = some value) :
    ∃ other, second[name]? = some other ∧ relation value other := by
  have here := related name
  rw [held] at here
  revert here
  cases second[name]? with
  | none => rintro ⟨⟩
  | some other =>
      rintro ⟨same⟩
      exact ⟨other, rfl, same⟩

theorem Related.exists_left (related : first.Related relation second) {name : String}
    {other : Value} (held : second[name]? = some other) :
    ∃ value, first[name]? = some value ∧ relation value other := by
  have here := related name
  rw [held] at here
  revert here
  cases first[name]? with
  | none => rintro ⟨⟩
  | some value =>
      rintro ⟨same⟩
      exact ⟨value, rfl, same⟩

theorem Related.insert (related : first.Related relation second) (name : String)
    {value other : Value} (same : relation value other) :
    Related relation (first.insert name value) (second.insert name other) := by
  intro key
  rw [Std.ExtTreeMap.getElem?_insert, Std.ExtTreeMap.getElem?_insert]
  split
  · exact .some same
  · exact related key

/-! ## Lists of pairs -/

/-- The same names in the same order, with related values. -/
abbrev RelatedPairs (relation : Value → Value → Prop)
    (first second : List (String × Value)) : Prop :=
  List.Forall₂ (fun one two => one.1 = two.1 ∧ relation one.2 two.2) first second

/-- Lists by ascending name with the same names and related values under each. -/
private theorem relatedPairs_of_ordered {one two : List (String × Value)}
    (left : one.Pairwise fun first second => compare first.1 second.1 = .lt)
    (right : two.Pairwise fun first second => compare first.1 second.1 = .lt)
    (forth : ∀ name value, (name, value) ∈ one →
      ∃ other, (name, other) ∈ two ∧ relation value other)
    (back : ∀ name other, (name, other) ∈ two → ∃ value, (name, value) ∈ one) :
    RelatedPairs relation one two := by
  have irrefl : ∀ {name : String}, compare name name ≠ .lt := by
    intro name less
    have same : compare name name = .eq := Std.ReflCmp.compare_self
    rw [same] at less
    cases less
  induction one generalizing two with
  | nil =>
      cases two with
      | nil => exact .nil
      | cons pair _ =>
          obtain ⟨_, absurd⟩ := back pair.1 pair.2 List.mem_cons_self
          cases absurd
  | cons pair rest ih =>
      obtain ⟨name, value⟩ := pair
      obtain ⟨leftHead, leftRest⟩ := List.pairwise_cons.mp left
      obtain ⟨other, member, same⟩ := forth name value List.mem_cons_self
      cases two with
      | nil => cases member
      | cons pair others =>
          obtain ⟨first, found⟩ := pair
          obtain ⟨rightHead, rightRest⟩ := List.pairwise_cons.mp right
          have leftLess : ∀ {key other}, (key, other) ∈ rest → compare name key = .lt :=
            fun inside => leftHead _ inside
          have rightLess : ∀ {key other}, (key, other) ∈ others → compare first key = .lt :=
            fun inside => rightHead _ inside
          -- The least names of both lists are the same.
          have least : name = first := by
            rcases List.mem_cons.mp member with head | behind
            · exact congrArg Prod.fst head
            · obtain ⟨_, inside⟩ := back first found List.mem_cons_self
              rcases List.mem_cons.mp inside with head | later
              · exact (congrArg Prod.fst head).symm
              · exact (irrefl (Std.TransCmp.lt_trans (rightLess behind) (leftLess later))).elim
          subst least
          have held : other = found := by
            rcases List.mem_cons.mp member with head | behind
            · exact congrArg Prod.snd head
            · exact (irrefl (rightLess behind)).elim
          refine .cons ⟨rfl, held ▸ same⟩ (ih leftRest rightRest ?_ ?_)
          · intro key value inside
            obtain ⟨other, member, same⟩ := forth key value (List.mem_cons_of_mem _ inside)
            rcases List.mem_cons.mp member with head | behind
            · obtain rfl : key = name := congrArg Prod.fst head
              exact (irrefl (leftLess inside)).elim
            · exact ⟨other, behind, same⟩
          · intro key other inside
            obtain ⟨value, member⟩ := back key other (List.mem_cons_of_mem _ inside)
            rcases List.mem_cons.mp member with head | behind
            · obtain rfl : key = name := congrArg Prod.fst head
              exact (irrefl (rightLess inside)).elim
            · exact ⟨value, behind⟩

private theorem relatedPairs_mem {one two : List (String × Value)}
    (pairs : RelatedPairs relation one two) {name : String} {value : Value}
    (member : (name, value) ∈ one) : ∃ other, (name, other) ∈ two ∧ relation value other := by
  induction pairs with
  | nil => cases member
  | @cons first second _ _ head _ ih =>
      rcases List.mem_cons.mp member with rfl | behind
      · exact ⟨second.2, List.mem_cons.mpr (.inl (Prod.ext head.1 rfl)), head.2⟩
      · obtain ⟨other, inside, same⟩ := ih behind
        exact ⟨other, List.mem_cons_of_mem _ inside, same⟩

/-- Named values are related when their lists by ascending name are. -/
theorem related_iff_toList :
    first.Related relation second ↔ RelatedPairs relation first.toList second.toList := by
  constructor
  · intro related
    refine relatedPairs_of_ordered Std.ExtTreeMap.ordered_keys_toList
      Std.ExtTreeMap.ordered_keys_toList (fun name value member => ?_) fun name other member => ?_
    · rw [Std.ExtTreeMap.mem_toList_iff_getElem?_eq_some] at member
      obtain ⟨other, held, same⟩ := related.exists_right member
      exact ⟨other, Std.ExtTreeMap.mem_toList_iff_getElem?_eq_some.mpr held, same⟩
    · rw [Std.ExtTreeMap.mem_toList_iff_getElem?_eq_some] at member
      obtain ⟨value, held, -⟩ := related.exists_left member
      exact ⟨value, Std.ExtTreeMap.mem_toList_iff_getElem?_eq_some.mpr held⟩
  · intro pairs name
    have back : RelatedPairs (flip relation) second.toList first.toList :=
      pairs.flip.imp fun one two same => ⟨same.1.symm, same.2⟩
    cases left : first[name]? with
    | some value =>
        obtain ⟨other, member, same⟩ := relatedPairs_mem pairs
          (Std.ExtTreeMap.mem_toList_iff_getElem?_eq_some.mpr left)
        rw [Std.ExtTreeMap.mem_toList_iff_getElem?_eq_some.mp member]
        exact .some same
    | none =>
        cases right : second[name]? with
        | none => exact .none
        | some other =>
            obtain ⟨value, member, -⟩ := relatedPairs_mem back
              (Std.ExtTreeMap.mem_toList_iff_getElem?_eq_some.mpr right)
            rw [Std.ExtTreeMap.mem_toList_iff_getElem?_eq_some.mp member] at left
            cases left

theorem agrees_iff :
    first.agrees second = true ↔ first.Related (fun one two => one.agrees two = true) second := by
  rw [related_iff_toList, agrees, Value.agreesFields_iff]

theorem related_ofPairs {one two : List (String × Value)} (same : RelatedPairs relation one two) :
    (ofPairs one).Related relation (ofPairs two) := by
  have grown : ∀ {one two : Values}, one.Related relation two → ∀ {more others},
      RelatedPairs relation more others →
        Related relation (more.foldl (fun values pair => values.insert pair.1 pair.2) one)
          (others.foldl (fun values pair => values.insert pair.1 pair.2) two) := by
    intro one two related more others same
    induction same generalizing one two with
    | nil => exact related
    | @cons first second _ _ head _ ih =>
        rw [List.foldl_cons, List.foldl_cons, ← head.1]
        exact ih (related.insert _ head.2)
  exact grown (fun name => by simp) same

theorem related_fill (related : first.Related relation second) {more others : Values}
    (same : more.Related relation others) :
    (first.fill more).Related relation (second.fill others) := by
  intro name
  have both := related name
  rw [getElem?_fill, getElem?_fill]
  generalize first[name]? = one at both ⊢
  generalize second[name]? = two at both ⊢
  cases both with
  | some pair => exact .some pair
  | none => exact same name

/-- Pairs with different names are as many values. -/
theorem size_ofPairs {pairs : List (String × Value)} (distinct : (pairs.map Prod.fst).Nodup) :
    (ofPairs pairs).size = pairs.length := by
  have own : (ofPairs pairs).toList.Nodup := .of_map _ (ofPairs pairs).nodup_names
  have same : (ofPairs pairs).toList.Perm pairs := by
    refine (List.perm_ext_iff_of_nodup own (.of_map _ distinct)).mpr fun pair => ?_
    rw [← getElem?_ofPairs_eq_some_iff distinct]
    exact Std.ExtTreeMap.mem_toList_iff_getElem?_eq_some
  rw [← Std.ExtTreeMap.length_toList, same.length_eq]

/-- Pairs with different names may come in any order. -/
theorem ofPairs_perm {pairs others : List (String × Value)} (perm : pairs.Perm others)
    (distinct : (pairs.map Prod.fst).Nodup) : ofPairs pairs = ofPairs others := by
  refine perm.foldl_eq' (fun one left two right values => ?_) ∅
  by_cases same : one.1 = two.1
  · rw [List.inj_on_of_nodup_map distinct left right same]
  · exact insert_comm values same one.2 two.2

end Values

end CardNet
