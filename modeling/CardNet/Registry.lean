/-!
# Registries

A registry holds named entries in the order in which their names first came in. Entering a
known name again replaces the entry and keeps its position; erasing a name closes the gap and
keeps the order of the others. No name occurs twice, which is part of the type, so two
registries are equal as soon as their lists of entries are (`Registry.ext`).
-/

namespace CardNet

/-- Named entries in order of first entry. -/
structure Registry (α : Type) where
  entries : List (String × α)
  distinct : (entries.map Prod.fst).Nodup

namespace Registry

variable {α β : Type}

@[ext] theorem ext {first second : Registry α} (same : first.entries = second.entries) :
    first = second := by
  cases first
  cases second
  cases same
  rfl

/-- The registry without entries. -/
def empty : Registry α := ⟨[], List.nodup_nil⟩

instance : Inhabited (Registry α) := ⟨empty⟩

/-- The names in order. -/
def names (registry : Registry α) : List String := registry.entries.map Prod.fst

/-- The entries in order, without their names. -/
def values (registry : Registry α) : List α := registry.entries.map Prod.snd

/-- The number of entries. -/
def size (registry : Registry α) : Nat := registry.entries.length

/-- The entry under a name. -/
def get? (registry : Registry α) (name : String) : Option α := registry.entries.lookup name

/-- Whether a name is taken. -/
def contains (registry : Registry α) (name : String) : Bool := registry.names.contains name

@[simp] theorem contains_eq_true {registry : Registry α} {name : String} :
    registry.contains name = true ↔ name ∈ registry.names := by
  simp [contains]

/-- Change the entries one by one, with their names in view. -/
def map (change : String → α → β) (registry : Registry α) : Registry β where
  entries := registry.entries.map fun entry => (entry.1, change entry.1 entry.2)
  distinct := by
    simpa [List.map_map, Function.comp_def] using registry.distinct

@[simp] theorem names_map (change : String → α → β) (registry : Registry α) :
    (registry.map change).names = registry.names := by
  simp [names, map, Function.comp_def]

/-- Change the entry under a name, if there is one. -/
def modify (registry : Registry α) (name : String) (change : α → α) : Registry α :=
  registry.map fun key entry => if key = name then change entry else entry

@[simp] theorem names_modify (registry : Registry α) (name : String) (change : α → α) :
    (registry.modify name change).names = registry.names :=
  names_map _ _

/-- Enter a name that is not taken, behind all others. -/
def append (registry : Registry α) (name : String) (entry : α) (fresh : name ∉ registry.names) :
    Registry α where
  entries := registry.entries ++ [(name, entry)]
  distinct := by
    rw [List.map_append, List.nodup_append]
    refine ⟨registry.distinct, by simp, ?_⟩
    intro key member other single
    simp only [List.map_cons, List.map_nil, List.mem_singleton] at single
    subst single
    exact fun same => fresh (same ▸ member)

/-- Enter a name: behind all others when it is new, in its place when it is known. -/
def insert (registry : Registry α) (name : String) (entry : α) : Registry α :=
  if fresh : name ∉ registry.names then registry.append name entry fresh
  else registry.modify name fun _ => entry

/-- Drop a name. -/
def erase (registry : Registry α) (name : String) : Registry α where
  entries := registry.entries.filter fun entry => entry.1 ≠ name
  distinct := registry.distinct.sublist (List.filter_sublist.map _)

theorem names_append (registry : Registry α) (name : String) (entry : α)
    (fresh : name ∉ registry.names) :
    (registry.append name entry fresh).names = registry.names ++ [name] := by
  simp [names, append]

theorem names_insert_of_mem {registry : Registry α} {name : String} (entry : α)
    (member : name ∈ registry.names) : (registry.insert name entry).names = registry.names := by
  simp [insert, member]

theorem names_insert_of_not_mem {registry : Registry α} {name : String} (entry : α)
    (fresh : name ∉ registry.names) :
    (registry.insert name entry).names = registry.names ++ [name] := by
  simp [insert, fresh, names_append]

theorem names_erase (registry : Registry α) (name : String) :
    (registry.erase name).names = registry.names.filter (· ≠ name) := by
  simp only [names, erase, List.filter_map]
  rfl

/-- A name is taken exactly when an entry stands under it. -/
theorem get?_isSome_iff {registry : Registry α} {name : String} :
    (registry.get? name).isSome = true ↔ name ∈ registry.names := by
  unfold get? names
  induction registry.entries with
  | nil => simp
  | cons entry rest ih =>
      obtain ⟨key, value⟩ := entry
      by_cases same : name = key
      · subst same
        simp
      · have differs : (name == key) = false := by simpa using same
        simp [List.lookup_cons, differs, ih, same]

end Registry

end CardNet
