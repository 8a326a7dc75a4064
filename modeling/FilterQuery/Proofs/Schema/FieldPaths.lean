import FilterQuery.Proofs.Schema.Path

/-!
The listing of field paths against resolution. In a well-formed schema without points in its names
the paths listed to a depth are those that resolve with so many points at most. None is listed
twice, references in a circle or not, and a greater depth only puts further paths between them.
-/
namespace FilterQuery

namespace FieldPath

/-- A path has one name more than it has points. -/
theorem length_segments (p : FieldPath) :
    p.segments.length = p.text.toList.count '.' + 1 := by
  rw [segments, List.length_map, List.splitOn_eq_splitOnP, Text.length_splitOnP, List.count]

/-- The text in front of the first point. -/
def firstName (path : String) : List Char := path.toList.takeWhile (· != '.')

theorem bne_point_of_mem {name : String} (h : '.' ∉ name.toList) :
    ∀ c ∈ name.toList, (c != '.') = true := by
  intro c hc
  apply bne_iff_ne.mpr
  rintro rfl
  exact h hc

theorem firstName_self {name : String} (h : '.' ∉ name.toList) : firstName name = name.toList :=
  List.takeWhile_eq_self_iff.mpr (bne_point_of_mem h)

theorem firstName_append {name : String} (h : '.' ∉ name.toList) (path : String) :
    firstName (name ++ "." ++ path) = name.toList := by
  rw [firstName, String.toList_append, String.toList_append, List.append_assoc,
    List.takeWhile_append_of_pos (bne_point_of_mem h)]
  simp

end FieldPath

namespace Schema

variable {s : Schema} {depth : Nat} {e : Entity}

/-- No name of a property has a point. -/
def PointFree (s : Schema) : Prop :=
  ∀ e ∈ s.entities, ∀ p ∈ e.properties, '.' ∉ p.name.toList

theorem Lists.length_le {names : List String} {r : Resolved} (h : Lists s depth e names r) :
    names.length ≤ depth + 1 := by
  induction h with
  | here => simp
  | through _ _ _ ih => simpa using ih

theorem Lists.not_mem_name (hd : s.PointFree) {names : List String} {r : Resolved}
    (h : Lists s depth e names r) (he : e ∈ s.entities) :
    ∀ name ∈ names, '.' ∉ name.toList := by
  induction h with
  | here hp =>
    intro name hn
    obtain rfl := List.mem_singleton.mp hn
    exact hd _ he _ hp
  | through hp ht _ ih =>
    intro name hn
    rcases List.mem_cons.mp hn with rfl | hn
    · exact hd _ he _ hp
    · exact ih (target?_mem ht) name hn

theorem property?_eq_some {name : String} {p : Property} (h : e.property? name = some p) :
    p ∈ e.properties ∧ p.name = name :=
  ⟨List.mem_of_find?_eq_some h, by simpa using List.find?_some h⟩

/-- Names that resolve are a chain of properties. -/
theorem lists_of_resolveSegments? {names : List String} {r : Resolved}
    (h : s.resolveSegments? e names = some r) (hl : names.length ≤ depth + 1) :
    Lists s depth e names r := by
  induction names generalizing depth e with
  | nil => simp [resolveSegments?] at h
  | cons name names ih =>
    cases names with
    | nil =>
      rw [resolveSegments?, Option.map_eq_some_iff] at h
      obtain ⟨p, hp, rfl⟩ := h
      obtain ⟨hmem, rfl⟩ := property?_eq_some hp
      exact .here hmem
    | cons next names =>
      rw [resolveSegments?, Option.bind_eq_some_iff] at h
      · obtain ⟨p, hp, h⟩ := h
        obtain ⟨target, ht, h⟩ := Option.bind_eq_some_iff.mp h
        obtain ⟨hmem, rfl⟩ := property?_eq_some hp
        cases depth with
        | zero => simp at hl
        | succ depth => exact .through hmem ht (ih h (by simpa using hl))
      · simp

/-- In a well-formed schema the names that resolve are the chains of properties. -/
theorem resolveSegments?_eq_some_iff (hv : s.validate = .ok ()) (he : e ∈ s.entities)
    {names : List String} {r : Resolved} :
    s.resolveSegments? e names = some r ↔ ∃ depth, Lists s depth e names r := by
  constructor
  · intro h
    exact ⟨names.length, lists_of_resolveSegments? h (Nat.le_succ _)⟩
  · rintro ⟨depth, h⟩
    exact resolveSegments?_of_lists hv h he

/-- The paths of the entity that a property refers to, behind the name of the property. -/
def pathsBelow (s : Schema) (depth : Nat) (p : Property) : List String :=
  match s.target? p with
  | none => []
  | some next => (s.fieldPaths depth next).map fun path => p.name ++ "." ++ path

theorem fieldPaths_succ :
    s.fieldPaths (depth + 1) e = e.properties.flatMap fun p => p.name :: s.pathsBelow depth p := rfl

theorem fieldPaths_zero : s.fieldPaths 0 e = e.properties.flatMap fun p => [p.name] :=
  List.map_eq_flatMap

/-- The paths over a property start with its name. -/
theorem firstName_of_mem {p : Property} (hp : '.' ∉ p.name.toList) {path : String}
    (h : path ∈ p.name :: s.pathsBelow depth p) : FieldPath.firstName path = p.name.toList := by
  rcases List.mem_cons.mp h with rfl | h
  · exact FieldPath.firstName_self hp
  · rw [pathsBelow] at h
    cases ht : s.target? p with
    | none => simp [ht] at h
    | some next =>
      rw [ht] at h
      obtain ⟨below, -, rfl⟩ := List.mem_map.mp h
      exact FieldPath.firstName_append hp below

theorem nodup_pathsBelow (p : Property)
    (h : ∀ next, s.target? p = some next → (s.fieldPaths depth next).Nodup) :
    (p.name :: s.pathsBelow depth p).Nodup := by
  rw [pathsBelow]
  cases ht : s.target? p with
  | none => simp
  | some next =>
    rw [List.nodup_cons]
    constructor
    · intro hm
      obtain ⟨below, -, he⟩ := List.mem_map.mp hm
      have hl := congrArg String.length he
      simp only [String.length_append] at hl
      have hpoint : ".".length = 1 := rfl
      omega
    · apply (h next ht).map
      intro path other heq
      exact String.append_right_inj _ |>.mp heq

theorem nodup_fieldPaths (hv : s.validate = .ok ()) (hd : s.PointFree) (he : e ∈ s.entities) :
    (s.fieldPaths depth e).Nodup := by
  induction depth generalizing e with
  | zero => exact nodup_names_of_validate hv he
  | succ depth ih =>
    rw [fieldPaths_succ, List.nodup_flatMap]
    constructor
    · intro p hp
      exact nodup_pathsBelow p fun next ht => ih (target?_mem ht)
    · have hn := List.pairwise_map.mp (nodup_names_of_validate hv he)
      apply hn.imp_of_mem
      intro p q hp hq hne path hpath hother
      have hfirst := firstName_of_mem (hd e he p hp) hpath
      rw [firstName_of_mem (hd e he q hq) hother] at hfirst
      exact hne (String.toList_inj.mp hfirst.symm)

theorem fieldPaths_sublist_succ (s : Schema) (depth : Nat) (e : Entity) :
    (s.fieldPaths depth e).Sublist (s.fieldPaths (depth + 1) e) := by
  induction depth generalizing e with
  | zero =>
    rw [fieldPaths_zero, fieldPaths_succ]
    apply List.Sublist.flatMap_right
    intro p _
    exact (List.nil_sublist _).cons_cons p.name
  | succ depth ih =>
    rw [fieldPaths_succ, fieldPaths_succ]
    apply List.Sublist.flatMap_right
    intro p _
    apply List.Sublist.cons_cons
    rw [pathsBelow, pathsBelow]
    cases s.target? p with
    | none => exact List.Sublist.refl _
    | some next => exact (ih next).map _

/-- In a well-formed schema a path is listed if it resolves and has no more points than the depth
allows, and it is listed once. A listing is part of the next deeper one, in the same order. -/
theorem fieldPaths_resolve (hv : s.validate = .ok ()) (hd : s.PointFree) (he : e ∈ s.entities)
    (depth : Nat) :
    (∀ path, path ∈ s.fieldPaths depth e ↔
        (s.resolve? e ⟨path⟩).isSome = true ∧ path.toList.count '.' ≤ depth) ∧
      (s.fieldPaths depth e).Nodup ∧
      (s.fieldPaths depth e).Sublist (s.fieldPaths (depth + 1) e) := by
  refine ⟨fun path => ?_, nodup_fieldPaths hv hd he, fieldPaths_sublist_succ s depth e⟩
  have hlength : (FieldPath.mk path).segments.length = path.toList.count '.' + 1 :=
    FieldPath.length_segments ⟨path⟩
  rw [mem_fieldPaths_iff]
  constructor
  · rintro ⟨names, r, hl, rfl⟩
    have hnames := hl.not_mem_name hd he
    rw [resolve?_of_lists hv hl he hnames]
    rw [FieldPath.segments_intercalate hl.ne_nil hnames] at hlength
    have hle := hl.length_le
    exact ⟨rfl, by omega⟩
  · rintro ⟨hr, hle⟩
    obtain ⟨r, hr⟩ := Option.isSome_iff_exists.mp hr
    refine ⟨_, r, lists_of_resolveSegments? hr (by omega), ?_⟩
    exact (FieldPath.intercalate_segments ⟨path⟩).symm

/-- Two entities that refer to each other. -/
def sampleCircle : Schema :=
  ⟨[⟨"u", [⟨"a", .int, some "v"⟩, ⟨"x", .string, none⟩]⟩, ⟨"v", [⟨"b", .int, some "u"⟩]⟩]⟩

def sampleCircleRoot : Entity := ⟨"u", [⟨"a", .int, some "v"⟩, ⟨"x", .string, none⟩]⟩

theorem fieldPaths_sampleCircle :
    sampleCircle.validate = .ok () ∧ sampleCircle.PointFree ∧
      sampleCircleRoot ∈ sampleCircle.entities ∧
      sampleCircle.fieldPaths 2 sampleCircleRoot = ["a", "a.b", "a.b.a", "a.b.x", "x"] ∧
      (sampleCircle.resolve? sampleCircleRoot ⟨"a.b.x"⟩).isSome = true ∧
      (sampleCircle.fieldPaths 2 sampleCircleRoot).Nodup := by
  have hv : sampleCircle.validate = .ok () := by decide
  have hd : sampleCircle.PointFree := by
    unfold PointFree
    decide
  have he : sampleCircleRoot ∈ sampleCircle.entities := by decide
  have hlist :
      sampleCircle.fieldPaths 2 sampleCircleRoot = ["a", "a.b", "a.b.a", "a.b.x", "x"] := by
    decide
  obtain ⟨hmem, hnodup, -⟩ := fieldPaths_resolve hv hd he 2
  exact ⟨hv, hd, he, hlist, ((hmem "a.b.x").mp (by simp [hlist])).1, hnodup⟩

end Schema
end FilterQuery
