import FilterQuery.Proofs.Schema.Path

/-!
Field paths put together from shorter ones. A path resolves where its front resolves to a reference
and its back resolves from the entity referred to, wherever the path is cut; so a path is matched
name by name or not at all.
-/
namespace FilterQuery

theorem FieldPath.segments_append (p q : String) :
    (FieldPath.mk (p ++ "." ++ q)).segments =
      (FieldPath.mk p).segments ++ (FieldPath.mk q).segments := by
  have hpoint : ('.' == '.') = true := rfl
  have hsplit := List.splitOnP_append_cons (p := (· == '.')) p.toList q.toList hpoint
  have htext : (p ++ "." ++ q).toList = p.toList ++ '.' :: q.toList := by simp
  simp only [segments, List.splitOn_eq_splitOnP, htext, hsplit, List.map_append]

/-- The names of a path joined from any names are those that these have between their points. -/
theorem FieldPath.segments_intercalate_flatMap {names : List String} (hne : names ≠ []) :
    (FieldPath.mk (".".intercalate names)).segments =
      names.flatMap fun name => (FieldPath.mk name).segments := by
  induction names with
  | nil => exact absurd rfl hne
  | cons name names ih =>
    by_cases hn : names = []
    · subst hn
      rw [String.intercalate_singleton, List.flatMap_singleton]
    · rw [Schema.intercalate_cons hn, segments_append, ih hn, List.flatMap_cons]

/-- A path without points is its only name. -/
theorem FieldPath.segments_eq_singleton {name : String} (h : '.' ∉ name.toList) :
    (FieldPath.mk name).segments = [name] := by
  rw [segments, List.splitOn_eq_singleton h, List.map_singleton, String.ofList_toList]

namespace Schema

variable (s : Schema)

/-- Names in front of others lead to the entity that the others start from. Only the last name of
all is no reference, and it is one of the others. -/
theorem resolveSegments?_front (e : Entity) (front : List String) {back : List String}
    (h : back ≠ []) :
    s.resolveSegments? e (front ++ back) =
      (s.follow? e front).bind fun next => s.resolveSegments? next back := by
  obtain ⟨names, name, rfl⟩ := (List.eq_nil_or_concat back).resolve_left h
  simp only [List.concat_eq_append, ← List.append_assoc, resolveSegments?_append, follow?_append,
    Option.bind_assoc]

/-- The names of a path lead on from the property that the path resolves to. -/
theorem follow?_segments (e : Entity) (path : FieldPath) :
    s.follow? e path.segments = (s.resolve? e path).bind fun via => s.target? via.property := by
  have hlast (last : Entity) : s.follow? last [path.leaf] =
      (last.property? path.leaf).bind fun p => s.target? p := by
    simp [follow?]
  rw [resolve?_eq, ← path.parents_append_leaf, follow?_append, Option.bind_assoc]
  congr 1
  funext last
  rw [hlast, Option.bind_map]
  rfl

theorem resolve?_append (e : Entity) (p q : String) :
    s.resolve? e ⟨p ++ "." ++ q⟩ =
      ((s.resolve? e ⟨p⟩).bind fun via => s.target? via.property).bind fun next =>
        s.resolve? next ⟨q⟩ := by
  rw [resolve?, FieldPath.segments_append,
    resolveSegments?_front s e _ (FieldPath.segments_ne_nil ⟨q⟩), follow?_segments]
  rfl

/-- The entity a reference leads to, by its name. -/
theorem target?_eq_some_iff {s : Schema} {p : Property} {next : Entity} :
    s.target? p = some next ↔
      ∃ name, p.references = some name ∧ s.entity? name = some next :=
  Option.bind_eq_some_iff

/-- A path cut at a point resolves if its front resolves to a reference to an entity that exists
and its back resolves on that entity. -/
theorem resolve?_append_eq_some_iff {e : Entity} {p q : String} {r : Resolved} :
    s.resolve? e ⟨p ++ "." ++ q⟩ = some r ↔
      ∃ via name next, s.resolve? e ⟨p⟩ = some via ∧ via.property.references = some name ∧
        s.entity? name = some next ∧ s.resolve? next ⟨q⟩ = some r := by
  simp only [resolve?_append, Option.bind_eq_some_iff, target?_eq_some_iff]
  constructor
  · rintro ⟨next, ⟨via, hvia, name, hname, hnext⟩, hr⟩
    exact ⟨via, name, next, hvia, hname, hnext, hr⟩
  · rintro ⟨via, name, next, hvia, hname, hnext, hr⟩
    exact ⟨next, ⟨via, hvia, name, hname, hnext⟩, hr⟩

/-- A path resolves to a property when its references lead, all of them, to the entity of the
property, which has it under the last name. -/
theorem resolve?_eq_some_iff {e : Entity} {path : FieldPath} {r : Resolved} :
    s.resolve? e path = some r ↔
      s.follow? e path.parents = some r.entity ∧
        r.entity.property? path.leaf = some r.property := by
  rw [resolve?_eq, Option.bind_eq_some_iff]
  constructor
  · rintro ⟨last, hlast, hr⟩
    obtain ⟨p, hp, rfl⟩ := Option.map_eq_some_iff.mp hr
    exact ⟨hlast, hp⟩
  · rintro ⟨hlast, hp⟩
    exact ⟨r.entity, hlast, by rw [hp]; rfl⟩

/-- Resolution composes at every point of a path. Each front of a path that resolves is a
reference, a path matches to its last name or not at all, and one without points is a property of
the entity it starts from. -/
theorem resolve?_composes (s : Schema) (e : Entity) :
    (∀ (p q : String) (r : Resolved), s.resolve? e ⟨p ++ "." ++ q⟩ = some r ↔
        ∃ via name next, s.resolve? e ⟨p⟩ = some via ∧ via.property.references = some name ∧
          s.entity? name = some next ∧ s.resolve? next ⟨q⟩ = some r) ∧
      (∀ (path : FieldPath) (p q : String), (s.resolve? e path).isSome → path.text = p ++ "." ++ q →
        ∃ via, s.resolve? e ⟨p⟩ = some via ∧ via.property.references.isSome) ∧
      (∀ (path : FieldPath) (r : Resolved), s.resolve? e path = some r ↔
        s.follow? e path.parents = some r.entity ∧
          r.entity.property? path.leaf = some r.property) ∧
      ∀ name : String, '.' ∉ name.toList →
        s.resolve? e ⟨name⟩ = (e.property? name).map (Resolved.mk e) := by
  refine ⟨fun p q r => resolve?_append_eq_some_iff s, ?_,
    fun path r => resolve?_eq_some_iff s, ?_⟩
  · rintro ⟨text⟩ p q hsome rfl
    obtain ⟨r, hr⟩ := Option.isSome_iff_exists.mp hsome
    obtain ⟨via, name, -, hvia, hname, -, -⟩ := (resolve?_append_eq_some_iff s).mp hr
    exact ⟨via, hvia, by simp [hname]⟩
  · intro name h
    rw [resolve?, FieldPath.segments_eq_singleton h, resolveSegments?]

/-- Three entities, the second of which refers to the third by a property without a name. -/
def sampleNameless : Schema :=
  ⟨[⟨"u", [⟨"a", .int, some "v"⟩]⟩, ⟨"v", [⟨"", .int, some "w"⟩]⟩, ⟨"w", [⟨"b", .string, none⟩]⟩]⟩

theorem resolve?_sampleNameless :
    (∃ via name next,
      sampleNameless.resolve? ⟨"u", [⟨"a", .int, some "v"⟩]⟩ ⟨"a" ++ "." ++ ""⟩ = some via ∧
        via.property.references = some name ∧ sampleNameless.entity? name = some next ∧
        sampleNameless.resolve? next ⟨"b"⟩ =
          some ⟨⟨"w", [⟨"b", .string, none⟩]⟩, ⟨"b", .string, none⟩⟩) ∧
      (∃ via, sampleNameless.resolve? ⟨"u", [⟨"a", .int, some "v"⟩]⟩ ⟨"a"⟩ = some via ∧
        via.property.references.isSome) ∧
      sampleNameless.resolve? ⟨"u", [⟨"a", .int, some "v"⟩]⟩ ⟨"b"⟩ = none := by
  obtain ⟨hiff, hfront, -, hname⟩ :=
    resolve?_composes sampleNameless ⟨"u", [⟨"a", .int, some "v"⟩]⟩
  have hr : sampleNameless.resolve? ⟨"u", [⟨"a", .int, some "v"⟩]⟩ ⟨"a..b"⟩ =
      some ⟨⟨"w", [⟨"b", .string, none⟩]⟩, ⟨"b", .string, none⟩⟩ := by cbv
  refine ⟨(hiff ("a" ++ "." ++ "") "b" _).mp hr, ?_, ?_⟩
  · exact hfront ⟨"a..b"⟩ "a" ".b" (by rw [hr]; rfl) rfl
  · rw [hname "b" (by decide)]
    decide

end Schema
end FilterQuery
