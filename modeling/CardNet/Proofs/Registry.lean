import CardNet.Registry

/-!
# Looking entries up

What stands under a name after each operation on registries, and what the lists of names and of
values have to do with it. Together with the order of the names these lemmas determine a
registry, so that nothing outside this module has to look at the list of entries.
-/

namespace CardNet

variable {α β : Type}

/-- Under a key that is listed once stands what it is listed with. -/
theorem lookup_eq_some_iff {κ : Type} [BEq κ] [LawfulBEq κ] {entries : List (κ × α)}
    (distinct : (entries.map Prod.fst).Nodup) {key : κ} {entry : α} :
    entries.lookup key = some entry ↔ (key, entry) ∈ entries := by
  induction entries with
  | nil => simp
  | cons head rest ih =>
      obtain ⟨first, value⟩ := head
      rw [List.map_cons, List.nodup_cons] at distinct
      by_cases same : key = first
      · subst same
        have absent : (key, entry) ∉ rest := fun member =>
          distinct.1 (List.mem_map.mpr ⟨_, member, rfl⟩)
        simp only [List.lookup_cons_self, Option.some.injEq, List.mem_cons, Prod.mk.injEq,
          true_and, absent, or_false]
        exact eq_comm
      · have differs : (key == first) = false := by simpa using same
        simp only [List.lookup_cons, differs, ih distinct.2, List.mem_cons, Prod.mk.injEq, same,
          false_and, false_or]

namespace Registry

/-- An entry stands under a name exactly when it is listed with it. -/
theorem get?_eq_some_iff {registry : Registry α} {name : String} {entry : α} :
    registry.get? name = some entry ↔ (name, entry) ∈ registry.entries :=
  lookup_eq_some_iff registry.distinct

theorem get?_eq_none_iff {registry : Registry α} {name : String} :
    registry.get? name = none ↔ name ∉ registry.names := by
  rw [← get?_isSome_iff, Bool.not_eq_true, Option.isSome_eq_false_iff, Option.isNone_iff_eq_none]

theorem mem_names_of_get? {registry : Registry α} {name : String} {entry : α}
    (held : registry.get? name = some entry) : name ∈ registry.names :=
  get?_isSome_iff.mp (Option.isSome_of_eq_some held)

theorem exists_get?_of_mem_names {registry : Registry α} {name : String}
    (member : name ∈ registry.names) : ∃ entry, registry.get? name = some entry :=
  Option.isSome_iff_exists.mp (get?_isSome_iff.mpr member)

theorem mem_values_iff {registry : Registry α} {entry : α} :
    entry ∈ registry.values ↔ ∃ name, registry.get? name = some entry := by
  simp only [values, List.mem_map, get?_eq_some_iff]
  constructor
  · rintro ⟨⟨name, _⟩, member, rfl⟩
    exact ⟨name, member⟩
  · rintro ⟨name, member⟩
    exact ⟨(name, entry), member, rfl⟩

/-- The entries are what stands under the names. -/
theorem values_eq (registry : Registry α) :
    registry.values = registry.names.filterMap registry.get? := by
  have found : ∀ entries : List (String × α), (∀ entry ∈ entries, entry ∈ registry.entries) →
      entries.map Prod.snd = (entries.map Prod.fst).filterMap registry.get? := by
    intro entries within
    induction entries with
    | nil => rfl
    | cons entry rest ih =>
        have held := get?_eq_some_iff.mpr (within entry (List.mem_cons_self ..))
        rw [List.map_cons, List.map_cons, List.filterMap_cons, held,
          ih fun other member => within other (List.mem_cons_of_mem _ member)]
  exact found registry.entries fun _ member => member

theorem nodup_names (registry : Registry α) : registry.names.Nodup := registry.distinct

@[simp] theorem get?_empty (name : String) : (empty : Registry α).get? name = none := rfl

@[simp] theorem names_empty : (empty : Registry α).names = [] := rfl

@[simp] theorem values_empty : (empty : Registry α).values = [] := rfl

private theorem lookup_map (change : String → α → β) (entries : List (String × α))
    (name : String) :
    (entries.map fun entry => (entry.1, change entry.1 entry.2)).lookup name =
      (entries.lookup name).map (change name) := by
  induction entries with
  | nil => rfl
  | cons head rest ih =>
      obtain ⟨key, value⟩ := head
      by_cases same : name = key
      · subst same
        simp
      · have differs : (name == key) = false := by simpa using same
        simpa [List.lookup_cons, differs] using ih

@[simp] theorem get?_map (change : String → α → β) (registry : Registry α) (name : String) :
    (registry.map change).get? name = (registry.get? name).map (change name) :=
  lookup_map change registry.entries name

theorem map_map {γ : Type} (change : String → α → β) (further : String → β → γ)
    (registry : Registry α) :
    (registry.map change).map further =
      registry.map fun name entry => further name (change name entry) := by
  apply ext
  simp [map, Function.comp_def]

theorem get?_modify (registry : Registry α) (name other : String) (change : α → α) :
    (registry.modify name change).get? other =
      if other = name then (registry.get? other).map change else registry.get? other := by
  rw [modify, get?_map]
  split
  · rfl
  · exact Option.map_id'

theorem get?_append (registry : Registry α) (name other : String) (entry : α)
    (fresh : name ∉ registry.names) :
    (registry.append name entry fresh).get? other =
      if other = name then some entry else registry.get? other := by
  have absent := get?_eq_none_iff.mpr fresh
  unfold get? at *
  simp only [append, List.lookup_append]
  by_cases same : other = name
  · subst same
    simp [absent]
  · have differs : (other == name) = false := by simpa using same
    simp [List.lookup_cons, differs, same]

/-- A name that is entered holds its entry, and every other name what it held. -/
theorem get?_insert (registry : Registry α) (name other : String) (entry : α) :
    (registry.insert name entry).get? other =
      if other = name then some entry else registry.get? other := by
  unfold insert
  split
  · next fresh => exact get?_append registry name other entry fresh
  · next known =>
      rw [get?_modify]
      split
      · next same =>
          subst same
          obtain ⟨held, found⟩ := exists_get?_of_mem_names (Decidable.not_not.mp known)
          rw [found]
          rfl
      · rfl

theorem mem_names_insert {registry : Registry α} {name other : String} {entry : α} :
    other ∈ (registry.insert name entry).names ↔ other = name ∨ other ∈ registry.names := by
  rw [← get?_isSome_iff, get?_insert, ← get?_isSome_iff]
  split
  · next same => simp [same]
  · next differ => simp [differ]

/-- The values after a fresh name is entered. -/
theorem values_insert_of_not_mem {registry : Registry α} {name : String} (entry : α)
    (fresh : name ∉ registry.names) :
    (registry.insert name entry).values = registry.values ++ [entry] := by
  simp [insert, fresh, values, append]

/-- A name that is dropped holds nothing, and every other name what it held. -/
theorem get?_erase (registry : Registry α) (name other : String) :
    (registry.erase name).get? other =
      if other = name then none else registry.get? other := by
  ext entry
  rw [get?_eq_some_iff]
  simp only [erase, List.mem_filter, decide_eq_true_eq]
  split
  · next same => simp [same]
  · next differ => simp [differ, get?_eq_some_iff]

/-- Entering again what stands under a name changes nothing. -/
theorem insert_eq_self {registry : Registry α} {name : String} {entry : α}
    (held : registry.get? name = some entry) : registry.insert name entry = registry := by
  have member := mem_names_of_get? held
  apply ext
  simp only [insert, member, not_true_eq_false, ↓reduceDIte, modify, map]
  refine (List.map_congr_left ?_).trans (List.map_id _)
  rintro ⟨key, value⟩ listed
  by_cases same : key = name
  · subst same
    have found := get?_eq_some_iff.mpr listed
    simp_all
  · simp [same]

/-- Dropping a name that is not taken changes nothing. -/
theorem erase_of_not_mem {registry : Registry α} {name : String}
    (absent : name ∉ registry.names) : registry.erase name = registry := by
  refine ext (List.filter_eq_self.mpr fun entry member => decide_eq_true ?_)
  exact fun same => absent (same ▸ List.mem_map_of_mem member)

/-- Dropping a name drops one entry. -/
theorem values_perm_erase {registry : Registry α} {name : String} {entry : α}
    (found : registry.get? name = some entry) :
    registry.values.Perm (entry :: (registry.erase name).values) := by
  obtain ⟨front, back, split⟩ := List.append_of_mem (get?_eq_some_iff.mp found)
  have absent : name ∉ (front ++ back).map Prod.fst := by
    have distinct := registry.distinct
    rw [split, (List.perm_middle.map Prod.fst).nodup_iff, List.map_cons] at distinct
    exact (List.nodup_cons.mp distinct).1
  have kept : (registry.erase name).entries = front ++ back := by
    change registry.entries.filter _ = _
    rw [split, List.filter_append, List.filter_cons_of_neg (by simp), ← List.filter_append]
    refine List.filter_eq_self.mpr fun other member => decide_eq_true fun same => ?_
    exact absent (same ▸ List.mem_map_of_mem member)
  rw [values, values, kept, split, List.map_append, List.map_cons, List.map_append]
  exact List.perm_middle

end Registry

end CardNet
