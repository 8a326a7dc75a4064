import FilterQuery.Proofs.Schema.Validation
import FilterQuery.Proofs.Text.Split
import FilterQuery.Schema.Path

/-!
Field paths over a schema. A path is its names joined by points, and it resolves where its
references lead to an entity with its last name. The listing of paths holds every chain of
properties over references; in a well-formed schema each chain is found again by its names.
-/
namespace FilterQuery

namespace FieldPath

theorem intercalate_segments (p : FieldPath) : ".".intercalate p.segments = p.text := by
  have hp : ['.'].intercalate (p.text.toList.splitOn '.') = p.text.toList :=
    List.intercalate_splitOn '.'
  rw [← String.toList_inj, String.toList_intercalate, segments, List.map_map, ← hp]
  simp [Function.comp_def]

/-- Two paths with the same names are the same. -/
theorem eq_of_segments {p q : FieldPath} (h : p.segments = q.segments) : p = q := by
  have ht : p.text = q.text := by rw [← intercalate_segments p, ← intercalate_segments q, h]
  cases p
  cases q
  simpa using ht

theorem segments_ne_nil (p : FieldPath) : p.segments ≠ [] := by
  simp [segments, List.splitOn_ne_nil]

theorem not_mem_of_mem_segments {p : FieldPath} {name : String} (h : name ∈ p.segments) :
    '.' ∉ name.toList := by
  obtain ⟨w, hw, rfl⟩ := List.mem_map.mp h
  rw [List.splitOn_eq_splitOnP] at hw
  intro hm
  rw [String.toList_ofList] at hm
  simpa using (Text.mem_of_mem_splitOnP hw hm).2

/-- Names without points are the names of the path they are joined to. -/
theorem segments_intercalate {names : List String} (hne : names ≠ [])
    (h : ∀ name ∈ names, '.' ∉ name.toList) :
    (FieldPath.mk (".".intercalate names)).segments = names := by
  have hs : (['.'].intercalate (names.map String.toList)).splitOn '.' = names.map String.toList :=
    List.splitOn_intercalate '.' (by simpa using h) (by simpa using hne)
  have hp : ".".toList = ['.'] := rfl
  rw [segments, String.toList_intercalate, hp, hs, List.map_map]
  simp [Function.comp_def]

theorem parents_append_leaf (p : FieldPath) : p.parents ++ [p.leaf] = p.segments := by
  rw [parents, leaf, List.getLastD_eq_getLast?, List.getLast?_eq_some_getLast p.segments_ne_nil]
  exact List.dropLast_append_getLast p.segments_ne_nil

theorem not_mem_leaf (p : FieldPath) : '.' ∉ p.leaf.toList := by
  refine not_mem_of_mem_segments (p := p) ?_
  rw [← parents_append_leaf]
  simp

/-- A path is nested when names stand before its last one. -/
theorem isNested_iff (p : FieldPath) : p.isNested = true ↔ p.parents ≠ [] := by
  rw [isNested, List.contains_iff_mem]
  constructor
  · intro hm hp
    have ht : p.text = p.leaf := by
      rw [← intercalate_segments, ← parents_append_leaf, hp]
      simp
    rw [ht] at hm
    exact not_mem_leaf p hm
  · intro hp
    by_contra hm
    rw [parents, segments, List.splitOn_eq_singleton hm] at hp
    exact hp rfl

end FieldPath

namespace Schema

/-- The entity that references with these names lead to, one after the other. -/
def follow? (s : Schema) : Entity → List String → Option Entity
  | e, [] => some e
  | e, name :: names =>
    ((e.property? name).bind s.target?).bind fun next => s.follow? next names

variable (s : Schema)

theorem follow?_append (e : Entity) (front back : List String) :
    s.follow? e (front ++ back) = (s.follow? e front).bind fun next => s.follow? next back := by
  induction front generalizing e with
  | nil => rfl
  | cons name front ih =>
    simp only [List.cons_append, follow?, Option.bind_assoc]
    congr 1
    funext p
    congr 1
    funext next
    exact ih next

theorem resolveSegments?_append (e : Entity) (names : List String) (name : String) :
    s.resolveSegments? e (names ++ [name]) =
      (s.follow? e names).bind fun last => (last.property? name).map (Resolved.mk last) := by
  induction names generalizing e with
  | nil => rfl
  | cons n names ih =>
    have hne : names ++ [name] ≠ [] := by simp
    rw [List.cons_append, resolveSegments?, follow?, Option.bind_assoc, Option.bind_assoc]
    · congr 1
      funext p
      congr 1
      funext next
      exact ih next
    · exact hne

/-- A path resolves where its references lead to an entity with its last name. -/
theorem resolve?_eq (e : Entity) (path : FieldPath) :
    s.resolve? e path =
      (s.follow? e path.parents).bind fun last =>
        (last.property? path.leaf).map (Resolved.mk last) := by
  rw [resolve?, ← path.parents_append_leaf, resolveSegments?_append]

variable {s}

/-- In a well-formed schema the properties of an entity differ in their names. -/
theorem nodup_names_of_validate (h : s.validate = .ok ()) {e : Entity} (he : e ∈ s.entities) :
    (e.properties.map (·.name)).Nodup :=
  ((validate_eq_ok_iff.mp h).properties e he).names

theorem entity?_mem {name : String} {e : Entity} (h : s.entity? name = some e) :
    e ∈ s.entities :=
  List.mem_of_find?_eq_some h

theorem target?_mem {p : Property} {e : Entity} (h : s.target? p = some e) : e ∈ s.entities := by
  obtain ⟨name, -, he⟩ := Option.bind_eq_some_iff.mp h
  exact entity?_mem he

/-- A property is found by its name where names differ. -/
theorem property?_of_mem {e : Entity} (hn : (e.properties.map (·.name)).Nodup) {p : Property}
    (hp : p ∈ e.properties) : e.property? p.name = some p :=
  find?_name_of_mem Property.name hn hp

/-- From the entity `e`, properties with these names lead over at most `depth` references to the
property `r`. -/
inductive Lists (s : Schema) : Nat → Entity → List String → Resolved → Prop where
  | here {depth : Nat} {e : Entity} {p : Property} (hp : p ∈ e.properties) :
      Lists s depth e [p.name] ⟨e, p⟩
  | through {depth : Nat} {e next : Entity} {p : Property} {names : List String} {r : Resolved}
      (hp : p ∈ e.properties) (ht : s.target? p = some next) (h : Lists s depth next names r) :
      Lists s (depth + 1) e (p.name :: names) r

theorem Lists.ne_nil {depth : Nat} {e : Entity} {names : List String} {r : Resolved}
    (h : Lists s depth e names r) : names ≠ [] := by
  cases h <;> simp

theorem intercalate_cons {name : String} {names : List String} (h : names ≠ []) :
    ".".intercalate (name :: names) = name ++ "." ++ ".".intercalate names :=
  String.intercalate_cons_of_ne_nil h

/-- The listed paths are those of the chains of properties, joined by points. -/
theorem mem_fieldPaths_iff {depth : Nat} {e : Entity} {path : String} :
    path ∈ s.fieldPaths depth e ↔
      ∃ names r, Lists s depth e names r ∧ path = ".".intercalate names := by
  constructor
  · intro h
    induction depth generalizing e path with
    | zero =>
      obtain ⟨p, hp, rfl⟩ := List.mem_map.mp h
      exact ⟨_, _, .here hp, by simp⟩
    | succ depth ih =>
      rw [fieldPaths, List.mem_flatMap] at h
      obtain ⟨p, hp, h⟩ := h
      rcases List.mem_cons.mp h with rfl | h
      · exact ⟨_, _, .here hp, by simp⟩
      · cases ht : s.target? p with
        | none => simp [ht] at h
        | some next =>
          rw [ht] at h
          obtain ⟨below, hb, rfl⟩ := List.mem_map.mp h
          obtain ⟨names, r, hl, rfl⟩ := ih hb
          exact ⟨_, r, .through hp ht hl, (intercalate_cons hl.ne_nil).symm⟩
  · rintro ⟨names, r, hl, rfl⟩
    induction hl with
    | @here depth e p hp =>
      rw [String.intercalate_singleton]
      cases depth with
      | zero => exact List.mem_map_of_mem hp
      | succ depth => exact List.mem_flatMap.mpr ⟨p, hp, List.mem_cons_self⟩
    | @through depth e next p names r hp ht hl ih =>
      rw [intercalate_cons hl.ne_nil, fieldPaths, List.mem_flatMap]
      refine ⟨p, hp, List.mem_cons_of_mem _ ?_⟩
      rw [ht]
      exact List.mem_map_of_mem ih

theorem resolveSegments?_of_lists (hv : s.validate = .ok ()) {depth : Nat} {e : Entity}
    {names : List String} {r : Resolved} (h : Lists s depth e names r) (he : e ∈ s.entities) :
    s.resolveSegments? e names = some r := by
  induction h with
  | here hp =>
    rw [resolveSegments?, property?_of_mem (nodup_names_of_validate hv he) hp]
    rfl
  | through hp ht hl ih =>
    rw [resolveSegments?, property?_of_mem (nodup_names_of_validate hv he) hp, Option.bind_some,
      ht, Option.bind_some]
    · exact ih (target?_mem ht)
    · exact hl.ne_nil

/-- A listed path without points in its names resolves to the property it is listed for. -/
theorem resolve?_of_lists (hv : s.validate = .ok ()) {depth : Nat} {e : Entity}
    {names : List String} {r : Resolved} (h : Lists s depth e names r) (he : e ∈ s.entities)
    (hd : ∀ name ∈ names, '.' ∉ name.toList) :
    s.resolve? e ⟨".".intercalate names⟩ = some r := by
  rw [resolve?, FieldPath.segments_intercalate h.ne_nil hd]
  exact resolveSegments?_of_lists hv h he

/-- No path resolves to a property with a point in its name. -/
theorem not_mem_name_of_resolve {e : Entity} {path : FieldPath} {r : Resolved}
    (h : s.resolve? e path = some r) : '.' ∉ r.property.name.toList := by
  rw [resolve?_eq] at h
  obtain ⟨last, -, h⟩ := Option.bind_eq_some_iff.mp h
  obtain ⟨p, hp, rfl⟩ := Option.map_eq_some_iff.mp h
  have hname : p.name = path.leaf := by simpa using List.find?_some hp
  rw [hname]
  exact path.not_mem_leaf

end Schema

end FilterQuery
