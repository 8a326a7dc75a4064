import FilterQuery.Proofs.Text.Lower
import FilterQuery.Query.TagRegistry

/-!
Registries of tags as maps from types to handlers. Sorted maps keep each name once and in order;
on top of them, a registry finds the handler that was registered last under a type, whatever its
letter case, and lists each type once.
-/
namespace FilterQuery

namespace SortedMap

variable {α : Type} {name : String}

/-- Each name stands before the greater ones, and so occurs once. -/
def Sorted (m : SortedMap α) : Prop := m.names.Pairwise (· < ·)

theorem sorted_empty : (empty : SortedMap α).Sorted := List.Pairwise.nil

theorem mem_names_insert (m : SortedMap α) (a : α) {n : String} :
    n ∈ (m.insert name a).names ↔ n = name ∨ n ∈ m.names := by
  obtain ⟨entries⟩ := m
  simp only [insert, names]
  induction entries with
  | nil => simp [insertEntry]
  | cons e rest ih =>
    obtain ⟨k, b⟩ := e
    rw [insertEntry]
    split_ifs with hlt heq
    · simp
    · simp [heq]
    · rw [List.map_cons, List.mem_cons, ih, List.map_cons, List.mem_cons]
      exact or_left_comm

theorem Sorted.insert {m : SortedMap α} (h : m.Sorted) (name : String) (a : α) :
    (m.insert name a).Sorted := by
  obtain ⟨entries⟩ := m
  simp only [Sorted, SortedMap.insert, names] at h ⊢
  induction entries with
  | nil => exact List.pairwise_singleton _ _
  | cons e rest ih =>
    obtain ⟨k, b⟩ := e
    rw [List.map_cons, List.pairwise_cons] at h
    obtain ⟨hk, hrest⟩ := h
    rw [insertEntry]
    split_ifs with hlt heq
    · refine List.pairwise_cons.mpr ⟨?_, List.pairwise_cons.mpr ⟨hk, hrest⟩⟩
      intro n hn
      rcases List.mem_cons.mp hn with rfl | hn
      · exact hlt
      · exact lt_trans hlt (hk n hn)
    · exact List.pairwise_cons.mpr ⟨heq ▸ hk, hrest⟩
    · refine List.pairwise_cons.mpr ⟨?_, ih hrest⟩
      intro n hn
      rcases (mem_names_insert ⟨rest⟩ a).mp hn with rfl | hn
      · exact lt_of_le_of_ne (not_lt.mp hlt) heq
      · exact hk n hn

theorem sorted_ofList (l : List (String × α)) : (ofList l).Sorted := by
  induction l using List.reverseRecOn with
  | nil => exact sorted_empty
  | append_singleton l e ih =>
    rw [ofList, List.foldl_append]
    exact Sorted.insert ih e.1 e.2

theorem get?_isSome_iff (m : SortedMap α) : (m.get? name).isSome ↔ name ∈ m.names := by
  rw [get?, Option.isSome_map, List.find?_isSome, names, List.mem_map]
  simp only [decide_eq_true_eq]

/-- Of some entries in order, the last one has the greatest name. -/
theorem Sorted.eq_or_lt_getLast? {m : SortedMap α} (h : m.Sorted) {p : String × α → Bool}
    {last : String × α} (hlast : (m.entries.filter p).getLast? = some last) :
    ∀ e ∈ m.entries, p e = true → e.1 = last.1 ∨ e.1 < last.1 := by
  obtain ⟨front, hfront⟩ := List.getLast?_eq_some_iff.mp hlast
  have hsorted : (front ++ [last]).Pairwise fun e e' => e.1 < e'.1 :=
    hfront ▸ (List.pairwise_map.mp h).filter p
  intro e he hp
  have hmem : e ∈ front ++ [last] := hfront ▸ List.mem_filter.mpr ⟨he, hp⟩
  rcases List.mem_append.mp hmem with hmem | hmem
  · exact .inr ((List.pairwise_append.mp hsorted).2.2 e hmem last (List.mem_singleton_self last))
  · exact .inl (by rw [List.mem_singleton.mp hmem])

end SortedMap

namespace TagRegistry

variable {Handler : Type} {l : List (String × Handler)} {type : String}

theorem ofList_append (l : List (String × Handler)) (type : String) (handler : Handler) :
    ofList (l ++ [(type, handler)]) = (ofList l).register type handler := by
  simp [ofList, List.foldl_append]

/-- Whether an entry is registered under a type, up to letter case. -/
def isUnder (type : String) (e : String × Handler) : Bool := Text.lower e.1 = Text.lower type

theorem hasTag_iff_lookup {r : TagRegistry Handler} :
    r.hasTag type = true ↔ ∃ handler, r.lookup type = some handler :=
  SortedMap.contains_iff_get? r.handlers (Text.lower type)

theorem lookup_register (r : TagRegistry Handler) (name : String) (handler : Handler) :
    (r.register name handler).lookup type =
      if isUnder type (name, handler) then some handler else r.lookup type := by
  rw [lookup, register, lookup]
  by_cases h : Text.lower name = Text.lower type
  · rw [isUnder, if_pos (decide_eq_true h), ← h, SortedMap.get?_insert_self]
  · rw [isUnder, if_neg (by simpa using h), SortedMap.get?_insert_of_ne _ (Ne.symm h)]

/-- The last registration under a type counts. -/
theorem lookup_ofList (l : List (String × Handler)) (type : String) :
    (ofList l).lookup type = ((l.filter (isUnder type)).getLast?).map (·.2) := by
  induction l using List.reverseRecOn with
  | nil => rfl
  | append_singleton l e ih =>
    rw [ofList_append, lookup_register, ih, List.filter_append]
    cases he : isUnder type e with
    | true => simp [he]
    | false => simp [he]

/-- A registry holds the handlers of its list, each under a type that differs in letter case at
most. -/
theorem mem_of_lookup {handler : Handler} (h : (ofList l).lookup type = some handler) :
    ∃ name, (name, handler) ∈ l ∧ Text.lower name = Text.lower type := by
  rw [lookup_ofList, Option.map_eq_some_iff] at h
  obtain ⟨⟨name, f⟩, hlast, rfl⟩ := h
  obtain ⟨hmem, hunder⟩ := List.mem_filter.mp (List.mem_of_getLast? hlast)
  exact ⟨name, hmem, of_decide_eq_true hunder⟩

theorem sorted_ofList (l : List (String × Handler)) : (ofList l).handlers.Sorted := by
  induction l using List.reverseRecOn with
  | nil => exact SortedMap.sorted_empty
  | append_singleton l e ih =>
    rw [ofList_append]
    exact ih.insert _ _

theorem mem_types_ofList : type ∈ (ofList l).types ↔ ∃ e ∈ l, Text.lower e.1 = type := by
  induction l using List.reverseRecOn with
  | nil => simp [ofList, types, empty]
  | append_singleton l e ih =>
    rw [ofList_append, types, register, SortedMap.mem_names_insert, ← types, ih]
    constructor
    · rintro (rfl | ⟨e', he', rfl⟩)
      · exact ⟨e, by simp, rfl⟩
      · exact ⟨e', List.mem_append_left _ he', rfl⟩
    · rintro ⟨e', he', rfl⟩
      rcases List.mem_append.mp he' with he' | he'
      · exact .inr ⟨e', he', rfl⟩
      · exact .inl (by rw [List.mem_singleton.mp he'])

theorem size_eq (r : TagRegistry Handler) : r.size = r.types.length := by
  rw [size, SortedMap.size, types, SortedMap.names, List.length_map]

theorem isEmpty_ofList : (ofList l).isEmpty = true ↔ l = [] := by
  rw [isEmpty, beq_iff_eq, size_eq, List.length_eq_zero_iff, List.eq_nil_iff_forall_not_mem]
  constructor
  · intro h
    rw [List.eq_nil_iff_forall_not_mem]
    intro e he
    exact h _ (mem_types_ofList.mpr ⟨e, he, rfl⟩)
  · rintro rfl type hmem
    obtain ⟨e, he, -⟩ := mem_types_ofList.mp hmem
    cases he

/-- What is listed is found, since a listed type is its own lower-case form. -/
theorem lookup_of_mem_types (h : type ∈ (ofList l).types) : ((ofList l).lookup type).isSome := by
  obtain ⟨e, he, rfl⟩ := mem_types_ofList.mp h
  rw [lookup, Text.lower_lower, SortedMap.get?_isSome_iff]
  exact mem_types_ofList.mpr ⟨e, he, rfl⟩

end TagRegistry
end FilterQuery
