/-!
Maps from names to values that keep their names in order, each once.
-/
namespace FilterQuery

structure SortedMap (α : Type) where
  /-- The entries by ascending name. -/
  entries : List (String × α)

namespace SortedMap

variable {α : Type}

def empty : SortedMap α := ⟨[]⟩

/-- Puts an entry in its place, over an entry of the same name. -/
def insertEntry (name : String) (a : α) : List (String × α) → List (String × α)
  | [] => [(name, a)]
  | (n, b) :: rest =>
    if name < n then (name, a) :: (n, b) :: rest
    else if n = name then (name, a) :: rest
    else (n, b) :: insertEntry name a rest

def insert (m : SortedMap α) (name : String) (a : α) : SortedMap α :=
  ⟨insertEntry name a m.entries⟩

/-- Later entries replace earlier ones of the same name. -/
def ofList (l : List (String × α)) : SortedMap α :=
  l.foldl (fun m (name, a) => m.insert name a) empty

def get? (m : SortedMap α) (name : String) : Option α :=
  (m.entries.find? (·.1 = name)).map (·.2)

def contains (m : SortedMap α) (name : String) : Bool := m.entries.any (·.1 = name)

def names (m : SortedMap α) : List String := m.entries.map (·.1)

def values (m : SortedMap α) : List α := m.entries.map (·.2)

def size (m : SortedMap α) : Nat := m.entries.length

@[simp] theorem names_empty : (empty : SortedMap α).names = [] := rfl
@[simp] theorem get?_empty (name : String) : (empty : SortedMap α).get? name = none := rfl

theorem find?_insertEntry_self (name : String) (a : α) (l : List (String × α)) :
    (insertEntry name a l).find? (·.1 = name) = some (name, a) := by
  induction l with
  | nil => simp [insertEntry]
  | cons p rest ih =>
    obtain ⟨n, b⟩ := p
    rw [insertEntry]
    split
    · simp
    · split
      · simp
      · rename_i hn
        simp [hn, ih]

theorem find?_insertEntry_of_ne {name other : String} (h : other ≠ name) (a : α)
    (l : List (String × α)) :
    (insertEntry name a l).find? (·.1 = other) = l.find? (·.1 = other) := by
  induction l with
  | nil => simp [insertEntry, h.symm]
  | cons p rest ih =>
    obtain ⟨n, b⟩ := p
    rw [insertEntry]
    split
    · simp [h.symm]
    · split
      · rename_i hn
        subst hn
        simp [h.symm]
      · by_cases hn : n = other <;> simp [hn, ih]

@[simp] theorem get?_insert_self (m : SortedMap α) (name : String) (a : α) :
    (m.insert name a).get? name = some a := by
  simp [insert, get?, find?_insertEntry_self]

/-- A map contains the names it has a value for. -/
theorem contains_iff_get? (m : SortedMap α) (name : String) :
    m.contains name = true ↔ ∃ a, m.get? name = some a := by
  rw [contains, get?, List.any_eq_true, ← Option.isSome_iff_exists, Option.isSome_map,
    List.find?_isSome]

theorem get?_insert_of_ne (m : SortedMap α) {name other : String} (h : other ≠ name) (a : α) :
    (m.insert name a).get? other = m.get? other := by
  simp [insert, get?, find?_insertEntry_of_ne h]

end SortedMap
end FilterQuery
