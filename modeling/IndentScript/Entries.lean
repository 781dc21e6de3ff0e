/-!
Entries: names with their values, in the order in which the names first came. They hold the
fields of a table and the variables of a scope.

Setting a name that is already there keeps its place and replaces its value.
-/

namespace IndentScript

/-- Names with their values, first come first. -/
abbrev Entries (α : Type u) := List (String × α)

namespace Entries

def set (name : String) (value : α) : Entries α → Entries α
  | [] => [(name, value)]
  | (key, held) :: rest =>
    if key = name then (key, value) :: rest else (key, held) :: set name value rest

def get? (name : String) : Entries α → Option α
  | [] => none
  | (key, held) :: rest => if key = name then some held else get? name rest

def ofPairs (pairs : List (String × α)) : Entries α :=
  pairs.foldl (fun entries pair => set pair.1 pair.2 entries) []

def names (entries : Entries α) : List String :=
  entries.map Prod.fst

@[simp]
theorem get?_set_self (name : String) (value : α) (entries : Entries α) :
    get? name (set name value entries) = some value := by
  induction entries with
  | nil => simp [set, get?]
  | cons head rest ih =>
    obtain ⟨key, held⟩ := head
    by_cases same : key = name <;> simp [set, get?, same, ih]

theorem get?_set_of_ne {name other : String} (different : other ≠ name) (value : α)
    (entries : Entries α) : get? other (set name value entries) = get? other entries := by
  induction entries with
  | nil => simp [set, get?, different.symm]
  | cons head rest ih =>
    obtain ⟨key, held⟩ := head
    by_cases same : key = name
    · subst same
      simp [set, get?, different.symm]
    · simp [set, get?, same, ih]

/-- A new name comes last; a name already there keeps its place. -/
theorem names_set (name : String) (value : α) (entries : Entries α) :
    names (set name value entries)
      = if name ∈ names entries then names entries else names entries ++ [name] := by
  induction entries with
  | nil => simp [set, names]
  | cons head rest ih =>
    obtain ⟨key, held⟩ := head
    simp only [names] at ih ⊢
    by_cases same : key = name
    · simp [set, same]
    · by_cases present : name ∈ rest.map Prod.fst <;> simp_all [set, Ne.symm same]

end Entries

end IndentScript
