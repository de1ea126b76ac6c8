import CardNet.Proofs.Registry
import CardNet.Value.Basic
import Mathlib.Data.List.Nodup

/-!
# Looking named values up

What stands under a name after values were put in from a list: of several values under one name the
last one that was put in (`getElem?_foldl_insert`), and the first one where only free names are
filled (`Values.getElem?_fill`).
-/

namespace CardNet

/-- Of what is put in under a key the last counts. -/
theorem getElem?_foldl_insert {κ : Type} [Ord κ] [Std.TransOrd κ] [Std.LawfulEqOrd κ] [BEq κ]
    [LawfulBEq κ] (values : Std.ExtTreeMap κ Value) (pairs : List (κ × Value)) (key : κ) :
    (pairs.foldl (fun values pair => values.insert pair.1 pair.2) values)[key]? =
      (pairs.reverse.lookup key).or values[key]? := by
  induction pairs generalizing values with
  | nil => simp
  | cons pair rest ih =>
      obtain ⟨first, value⟩ := pair
      rw [List.foldl_cons, ih, Std.ExtTreeMap.getElem?_insert, List.reverse_cons,
        List.lookup_append, Option.or_assoc]
      congr 1
      by_cases same : key = first
      · subst same
        simp
      · have differs : (key == first) = false := by simpa using same
        simp [List.lookup_cons, differs, Ne.symm same]

/-- Of pairs with different keys it does not matter which comes first. -/
theorem lookup_reverse {κ α : Type} [BEq κ] [LawfulBEq κ] {pairs : List (κ × α)}
    (distinct : (pairs.map Prod.fst).Nodup) (key : κ) :
    pairs.reverse.lookup key = pairs.lookup key := by
  have back : (pairs.reverse.map Prod.fst).Nodup := by
    rw [List.map_reverse, List.nodup_reverse]
    exact distinct
  refine Option.ext fun value => ?_
  rw [lookup_eq_some_iff back, lookup_eq_some_iff distinct, List.mem_reverse]

namespace Values

/-- The names of values are listed once. -/
theorem nodup_names (values : Values) : (values.toList.map Prod.fst).Nodup := by
  rw [List.Nodup, List.pairwise_map]
  refine Std.ExtTreeMap.distinct_keys_toList.imp fun differ same => differ ?_
  rw [same]
  exact Std.ReflCmp.compare_self

theorem lookup_toList (values : Values) (name : String) :
    values.toList.lookup name = values[name]? := by
  refine Option.ext fun value => ?_
  rw [lookup_eq_some_iff values.nodup_names, Std.ExtTreeMap.mem_toList_iff_getElem?_eq_some]

/-- What is put on top counts, and elsewhere what there was. -/
theorem getElem?_merge (values overriding : Values) (name : String) :
    (values.merge overriding)[name]? = overriding[name]?.or values[name]? := by
  rw [merge, Std.ExtTreeMap.foldl_eq_foldl_toList, getElem?_foldl_insert,
    lookup_reverse overriding.nodup_names, lookup_toList]

private theorem getElem?_foldl_insertIfNew (values : Values) (pairs : List (String × Value))
    (name : String) :
    (pairs.foldl (fun values pair => values.insertIfNew pair.1 pair.2) values)[name]? =
      values[name]?.or (pairs.lookup name) := by
  induction pairs generalizing values with
  | nil => simp
  | cons pair rest ih =>
      obtain ⟨first, value⟩ := pair
      rw [List.foldl_cons, ih, Std.ExtTreeMap.getElem?_insertIfNew, List.lookup_cons]
      by_cases same : name = first
      · subst same
        cases held : values[name]? with
        | none => simp [Std.ExtTreeMap.mem_iff_isSome_getElem?, held]
        | some held => simp [Std.ExtTreeMap.mem_iff_isSome_getElem?, *]
      · have differs : (name == first) = false := by simpa using same
        simp [differs, Ne.symm same]

/-- What there is counts, and elsewhere what is filled in. -/
theorem getElem?_fill (values filling : Values) (name : String) :
    (values.fill filling)[name]? = values[name]?.or filling[name]? := by
  rw [fill, Std.ExtTreeMap.foldl_eq_foldl_toList, getElem?_foldl_insertIfNew, lookup_toList]

/-- Where there is nothing, everything is filled in. -/
theorem fill_empty (values : Values) : fill ∅ values = values := by
  refine Std.ExtTreeMap.ext_getElem? fun name => ?_
  rw [getElem?_fill, Std.ExtTreeMap.getElem?_empty, Option.none_or]

theorem get?_insert (values : Values) (name other : String) (value : Value) :
    (values.insert name value).get? other =
      if other = name then some value else values.get? other := by
  rw [Std.ExtTreeMap.get?_eq_getElem?, Std.ExtTreeMap.get?_eq_getElem?,
    Std.ExtTreeMap.getElem?_insert]
  by_cases same : other = name
  · simp [same]
  · simp [same, Ne.symm same]

theorem getElem?_ofPairs_eq_lookup (pairs : List (String × Value)) (name : String) :
    (ofPairs pairs)[name]? = pairs.reverse.lookup name := by
  rw [ofPairs, getElem?_foldl_insert, Std.ExtTreeMap.getElem?_empty, Option.or_none]

theorem mem_ofPairs {pairs : List (String × Value)} {name : String} :
    name ∈ ofPairs pairs ↔ name ∈ pairs.map Prod.fst := by
  rw [Std.ExtTreeMap.mem_iff_isSome_getElem?, getElem?_ofPairs_eq_lookup, List.lookup_isSome_iff]
  simp

theorem getElem?_ofPairs_eq_some_iff {pairs : List (String × Value)}
    (distinct : (pairs.map Prod.fst).Nodup) {name : String} {value : Value} :
    (ofPairs pairs)[name]? = some value ↔ (name, value) ∈ pairs := by
  rw [getElem?_ofPairs_eq_lookup, lookup_reverse distinct, lookup_eq_some_iff distinct]

/-- Of pairs with different names each stands under its own. -/
theorem getElem?_ofPairs {pairs : List (String × Value)} (distinct : (pairs.map Prod.fst).Nodup)
    {name : String} {value : Value} (member : (name, value) ∈ pairs) :
    (ofPairs pairs)[name]? = some value :=
  (getElem?_ofPairs_eq_some_iff distinct).mpr member

theorem ofPairs_toList (values : Values) : ofPairs values.toList = values := by
  refine Std.ExtTreeMap.ext_getElem? fun name => ?_
  rw [getElem?_ofPairs_eq_lookup, lookup_reverse values.nodup_names, lookup_toList]

end Values

end CardNet
