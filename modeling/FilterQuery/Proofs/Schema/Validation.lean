import FilterQuery.Schema.Validation
import Mathlib

/-!
What the check of a schema accepts and reports. It passes the well-formed schemas and no others.
Of several defects it reports the first: entities are compared by name before any property is
looked at, and a property with more than one defect is reported for its name, then for its
constants, then for its reference.
-/
namespace FilterQuery

/-- Where names differ, one element has the name of a given one. -/
theorem filter_name_of_mem {α : Type} (name : α → String) {as : List α} {a : α}
    (hn : (as.map name).Nodup) (ha : a ∈ as) : as.filter (name · = name a) = [a] := by
  induction as with
  | nil => cases ha
  | cons b as ih =>
    rw [List.map_cons, List.nodup_cons] at hn
    by_cases hb : b = a
    · subst hb
      have hrest : as.filter (name · = name b) = [] := by
        rw [List.filter_eq_nil_iff]
        intro c hc he
        exact hn.1 (of_decide_eq_true he ▸ List.mem_map_of_mem hc)
      rw [List.filter_cons_of_pos (by simp), hrest]
    · have hmem : a ∈ as := (List.mem_cons.mp ha).resolve_left (Ne.symm hb)
      have hne : name b ≠ name a := fun he => hn.1 (he ▸ List.mem_map_of_mem hmem)
      rw [List.filter_cons_of_neg (by simpa using hne)]
      exact ih hn.2 hmem

theorem find?_name_of_mem {α : Type} (name : α → String) {as : List α} {a : α}
    (hn : (as.map name).Nodup) (ha : a ∈ as) : as.find? (name · = name a) = some a := by
  rw [← List.head?_filter, filter_name_of_mem name hn ha]
  rfl

namespace Schema

variable {s : Schema} {e : Entity} {before : List Property} {p : Property} {error : SchemaError}

/-- Properties of one entity without a defect. -/
structure Faultless (s : Schema) (ps : List Property) : Prop where
  names : (ps.map (·.name)).Nodup
  constants : ∀ p ∈ ps, ∀ constants, p.type = .enumeration constants → constants ≠ []
  references : ∀ p ∈ ps, ∀ target, p.references = some target → ∃ e ∈ s.entities, e.name = target

/-- The names of the entities differ, and no property has a defect. -/
structure WellFormed (s : Schema) : Prop where
  names : (s.entities.map (·.name)).Nodup
  properties : ∀ e ∈ s.entities, s.Faultless e.properties

/-- The defect of the property `p` of the entity `e`, in which the properties `before` stand in
front of it. -/
inductive Defect (s : Schema) (e : Entity) (before : List Property) (p : Property) :
    SchemaError → Prop where
  | repeated (h : ∃ q ∈ before, q.name = p.name) :
      Defect s e before p (.duplicateProperty e.name p.name)
  | empty (hnew : ∀ q ∈ before, q.name ≠ p.name) (h : p.type = .enumeration []) :
      Defect s e before p (.emptyEnumeration e.name p.name)
  | unknown {target : String} (hnew : ∀ q ∈ before, q.name ≠ p.name)
      (htype : p.type ≠ .enumeration []) (hp : p.references = some target)
      (h : ∀ e ∈ s.entities, e.name ≠ target) :
      Defect s e before p (.unknownReference e.name p.name target)

/-- The first defect of a schema: the first entity with the name of an earlier one or, where
entities differ in their names, the first property with a defect. -/
inductive FirstDefect (s : Schema) : SchemaError → Prop where
  | entity {front back : List Entity} {e : Entity} (hs : s.entities = front ++ e :: back)
      (hfront : (front.map (·.name)).Nodup) (h : ∃ f ∈ front, f.name = e.name) :
      FirstDefect s (.duplicateEntity e.name)
  | property {front back : List Entity} {e : Entity} {before after : List Property} {p : Property}
      {error : SchemaError} (hnames : (s.entities.map (·.name)).Nodup)
      (hs : s.entities = front ++ e :: back) (hfront : ∀ f ∈ front, s.Faultless f.properties)
      (he : e.properties = before ++ p :: after) (hbefore : s.Faultless before)
      (h : s.Defect e before p error) : FirstDefect s error

theorem firstRepeated?_eq_none_iff {seen names : List String} :
    firstRepeated? seen names = none ↔ names.Nodup ∧ ∀ name ∈ names, name ∉ seen := by
  induction names generalizing seen with
  | nil => simp [firstRepeated?]
  | cons name names ih =>
    rw [firstRepeated?]
    by_cases h : name ∈ seen
    · simp [h]
    · rw [if_neg h, ih, List.nodup_cons]
      constructor
      · rintro ⟨hnodup, hseen⟩
        refine ⟨⟨fun hm => hseen name hm List.mem_cons_self, hnodup⟩, ?_⟩
        intro other hm
        rcases List.mem_cons.mp hm with rfl | hm
        · exact h
        · exact fun hs => hseen other hm (List.mem_cons_of_mem name hs)
      · rintro ⟨⟨hname, hnodup⟩, hseen⟩
        refine ⟨hnodup, ?_⟩
        intro other hm hs
        rcases List.mem_cons.mp hs with rfl | hs
        · exact hname hm
        · exact hseen other (List.mem_cons_of_mem name hm) hs

theorem firstRepeated?_eq_some_iff {seen names : List String} {name : String} :
    firstRepeated? seen names = some name ↔
      ∃ front back, names = front ++ name :: back ∧ firstRepeated? seen front = none ∧
        (name ∈ seen ∨ name ∈ front) := by
  induction names generalizing seen with
  | nil => simp [firstRepeated?]
  | cons first names ih =>
    rw [firstRepeated?]
    by_cases h : first ∈ seen
    · rw [if_pos h]
      constructor
      · rintro ⟨rfl⟩
        exact ⟨[], names, rfl, rfl, .inl h⟩
      · rintro ⟨front, back, hn, hfront, -⟩
        cases front with
        | nil =>
          cases hn
          rfl
        | cons f front =>
          cases hn
          simp [firstRepeated?, h] at hfront
    · rw [if_neg h, ih]
      constructor
      · rintro ⟨front, back, rfl, hfront, hm⟩
        refine ⟨first :: front, back, rfl, ?_, ?_⟩
        · rw [firstRepeated?, if_neg h, hfront]
        · simpa [or_assoc, or_left_comm] using hm
      · rintro ⟨front, back, hn, hfront, hm⟩
        cases front with
        | nil =>
          cases hn
          simp [h] at hm
        | cons f front =>
          cases hn
          rw [firstRepeated?, if_neg h] at hfront
          refine ⟨front, back, rfl, hfront, ?_⟩
          simpa [or_assoc, or_left_comm] using hm

/-- One more property brings no defect exactly if it has none behind the others. -/
theorem faultless_snoc (hb : s.Faultless before) :
    s.Faultless (before ++ [p]) ↔ ∀ error, ¬s.Defect e before p error := by
  constructor
  · intro h error hd
    cases hd with
    | repeated hq =>
      obtain ⟨q, hq, he⟩ := hq
      have hn := h.names
      rw [List.map_append, List.nodup_append] at hn
      exact hn.2.2 q.name (List.mem_map_of_mem hq) p.name (by simp) he
    | empty hnew ht => exact h.constants p (by simp) [] ht rfl
    | unknown hnew ht hp he =>
      obtain ⟨f, hf, hname⟩ := h.references p (by simp) _ hp
      exact he f hf hname
  · intro h
    have hnew : ∀ q ∈ before, q.name ≠ p.name := fun q hq he => h _ (.repeated ⟨q, hq, he⟩)
    have htype : p.type ≠ .enumeration [] := fun ht => h _ (.empty hnew ht)
    constructor
    · rw [List.map_append, List.nodup_append]
      refine ⟨hb.names, by simp, ?_⟩
      intro name hm other ho
      obtain ⟨q, hq, rfl⟩ := List.mem_map.mp hm
      obtain rfl : other = p.name := by simpa using ho
      exact hnew q hq
    · intro q hq constants ht
      rcases List.mem_append.mp hq with hq | hq
      · exact hb.constants q hq constants ht
      · obtain rfl := List.mem_singleton.mp hq
        rintro rfl
        exact htype ht
    · intro q hq target hr
      rcases List.mem_append.mp hq with hq | hq
      · exact hb.references q hq target hr
      · obtain rfl := List.mem_singleton.mp hq
        by_contra hnone
        exact h _ (.unknown hnew htype hr fun f hf he => hnone ⟨f, hf, he⟩)

theorem Faultless.of_append {ps qs : List Property} (h : s.Faultless (ps ++ qs)) :
    s.Faultless ps := by
  constructor
  · have hn := h.names
    rw [List.map_append] at hn
    exact hn.of_append_left
  · exact fun p hp => h.constants p (List.mem_append_left qs hp)
  · exact fun p hp => h.references p (List.mem_append_left qs hp)

/-- The names that the check has seen when it comes to the property behind `before`. -/
def seenNames (before : List Property) : List String := (before.map (·.name)).reverse

theorem mem_seenNames {name : String} :
    name ∈ seenNames before ↔ ∃ q ∈ before, q.name = name := by
  rw [seenNames, List.mem_reverse, List.mem_map]

theorem seenNames_snoc : seenNames (before ++ [p]) = p.name :: seenNames before := by
  simp [seenNames]

theorem propertyDefect?_eq_some_iff :
    s.propertyDefect? e.name (seenNames before) p = some error ↔ s.Defect e before p error := by
  constructor
  · intro h
    rw [propertyDefect?] at h
    split at h
    · next hm =>
      cases h
      exact .repeated (mem_seenNames.mp hm)
    · next hm =>
      have hnew : ∀ q ∈ before, q.name ≠ p.name := by simpa [mem_seenNames] using hm
      split at h
      · next ht =>
        cases h
        exact .empty hnew ht
      · next ht =>
        split at h
        · cases h
        · next target hr =>
          split at h
          · cases h
          · next hnone =>
            cases h
            exact .unknown hnew ht hr (by simpa using hnone)
  · intro h
    rw [propertyDefect?]
    cases h with
    | repeated hq => rw [if_pos (mem_seenNames.mpr hq)]
    | empty hnew ht =>
      have hm : p.name ∉ seenNames before := by simpa [mem_seenNames] using hnew
      rw [if_neg hm, if_pos ht]
    | @unknown target hnew ht hr hnone =>
      have hm : p.name ∉ seenNames before := by simpa [mem_seenNames] using hnew
      have hu : target ∉ s.entities.map (·.name) := by simpa using hnone
      rw [if_neg hm, if_neg ht, hr]
      exact if_neg hu

theorem faultless_snoc_iff (hb : s.Faultless before) :
    s.Faultless (before ++ [p]) ↔ s.propertyDefect? e.name (seenNames before) p = none := by
  rw [faultless_snoc (e := e) hb, Option.eq_none_iff_forall_ne_some]
  simp only [ne_eq, propertyDefect?_eq_some_iff]

theorem firstDefect?_eq_none_iff (hb : s.Faultless before) (ps : List Property) :
    s.firstDefect? e.name (seenNames before) ps = none ↔ s.Faultless (before ++ ps) := by
  induction ps generalizing before with
  | nil => simpa [firstDefect?] using hb
  | cons p ps ih =>
    have hp := faultless_snoc_iff (e := e) (p := p) hb
    rw [firstDefect?, Option.or_eq_none_iff, ← hp, ← seenNames_snoc,
      List.append_cons before p ps]
    constructor
    · rintro ⟨hsnoc, hps⟩
      exact (ih hsnoc).mp hps
    · intro h
      exact ⟨h.of_append, (ih h.of_append).mpr h⟩

theorem firstDefect?_eq_some_iff (hb : s.Faultless before) (ps : List Property) :
    s.firstDefect? e.name (seenNames before) ps = some error ↔
      ∃ mid p after, ps = mid ++ p :: after ∧ s.Faultless (before ++ mid) ∧
        s.Defect e (before ++ mid) p error := by
  induction ps generalizing before with
  | nil => simp [firstDefect?]
  | cons p ps ih =>
    have hp := faultless_snoc_iff (e := e) (p := p) hb
    rw [firstDefect?, ← seenNames_snoc]
    cases hd : s.propertyDefect? e.name (seenNames before) p with
    | some d =>
      have hdefect := propertyDefect?_eq_some_iff.mp hd
      rw [Option.some_or]
      constructor
      · rintro ⟨rfl⟩
        exact ⟨[], p, ps, rfl, by simpa using hb, by simpa using hdefect⟩
      · rintro ⟨mid, q, after, hps, hmid, hq⟩
        cases mid with
        | nil =>
          cases hps
          rw [List.append_nil, ← propertyDefect?_eq_some_iff, hd] at hq
          exact hq
        | cons q mid =>
          cases hps
          rw [List.append_cons] at hmid
          simp [hp.mp hmid.of_append] at hd
    | none =>
      have hsnoc := hp.mpr hd
      rw [Option.none_or, ih hsnoc]
      constructor
      · rintro ⟨mid, q, after, rfl, hmid, hq⟩
        exact ⟨p :: mid, q, after, rfl, by simpa using hmid, by simpa using hq⟩
      · rintro ⟨mid, q, after, hps, hmid, hq⟩
        cases mid with
        | nil =>
          cases hps
          rw [List.append_nil, ← propertyDefect?_eq_some_iff, hd] at hq
          cases hq
        | cons q mid =>
          cases hps
          exact ⟨mid, _, after, rfl, by simpa using hmid, by simpa using hq⟩

theorem faultless_nil : s.Faultless [] := by
  constructor <;> simp

theorem wellFormed_iff : s.WellFormed ↔ s.defect? = none := by
  rw [defect?, Option.or_eq_none_iff, Option.map_eq_none_iff, firstRepeated?_eq_none_iff,
    List.findSome?_eq_none_iff]
  constructor
  · intro h
    refine ⟨⟨h.names, by simp⟩, fun e he => ?_⟩
    exact (firstDefect?_eq_none_iff faultless_nil e.properties).mpr (h.properties e he)
  · rintro ⟨⟨hnames, -⟩, hes⟩
    refine ⟨hnames, fun e he => ?_⟩
    exact (firstDefect?_eq_none_iff faultless_nil e.properties).mp (hes e he)

/-- The first repeated name is that of the first entity that repeats one. -/
theorem firstRepeated?_names_iff {es : List Entity} {name : String} :
    firstRepeated? [] (es.map (·.name)) = some name ↔
      ∃ front e back, es = front ++ e :: back ∧ (front.map (·.name)).Nodup ∧
        (∃ f ∈ front, f.name = e.name) ∧ e.name = name := by
  rw [firstRepeated?_eq_some_iff]
  constructor
  · rintro ⟨names, rest, hs, hfront, hm⟩
    obtain ⟨front, back, rfl, rfl, hback⟩ := List.map_eq_append_iff.mp hs
    obtain ⟨e, back, rfl, rfl, -⟩ := List.map_eq_cons_iff.mp hback
    refine ⟨front, e, back, rfl, (firstRepeated?_eq_none_iff.mp hfront).1, ?_, rfl⟩
    simpa using hm
  · rintro ⟨front, e, back, rfl, hfront, hm, rfl⟩
    refine ⟨front.map (·.name), back.map (·.name), by simp, ?_, ?_⟩
    · exact firstRepeated?_eq_none_iff.mpr ⟨hfront, by simp⟩
    · simpa using hm

theorem firstDefect_iff : s.FirstDefect error ↔ s.defect? = some error := by
  rw [defect?, Option.or_eq_some_iff, Option.map_eq_some_iff, Option.map_eq_none_iff,
    firstRepeated?_eq_none_iff, List.findSome?_eq_some_iff]
  simp only [firstRepeated?_names_iff]
  constructor
  · intro h
    cases h with
    | entity hs hfront hrep => exact .inl ⟨_, ⟨_, _, _, hs, hfront, hrep, rfl⟩, rfl⟩
    | @property front back e before after p _ hnames hs hfront he hbefore hd =>
      refine .inr ⟨⟨hnames, by simp⟩, front, e, back, hs, ?_, ?_⟩
      · exact (firstDefect?_eq_some_iff faultless_nil _).mpr ⟨before, p, after, he, hbefore, hd⟩
      · intro f hf
        exact (firstDefect?_eq_none_iff faultless_nil _).mpr (hfront f hf)
  · rintro (⟨name, ⟨front, e, back, hs, hfront, hrep, rfl⟩, rfl⟩ |
      ⟨⟨hnames, -⟩, front, e, back, hs, he, hfront⟩)
    · exact .entity hs hfront hrep
    · obtain ⟨before, p, after, hps, hbefore, hd⟩ :=
        (firstDefect?_eq_some_iff faultless_nil _).mp he
      refine .property hnames hs (fun f hf => ?_) hps hbefore hd
      exact (firstDefect?_eq_none_iff faultless_nil _).mp (hfront f hf)

theorem validate_eq_ok_iff : s.validate = .ok () ↔ s.WellFormed := by
  rw [wellFormed_iff, validate]
  cases s.defect? <;> simp

theorem validate_eq_error_iff : s.validate = .error error ↔ s.FirstDefect error := by
  rw [firstDefect_iff, validate]
  cases s.defect? <;> simp

/-- In a well-formed schema a reference leads to the one entity with its name. -/
theorem WellFormed.target? (h : s.WellFormed) (he : e ∈ s.entities) (hp : p ∈ e.properties)
    {target : String} (hr : p.references = some target) :
    ∃ next, s.target? p = some next ∧ s.entities.filter (·.name = target) = [next] := by
  obtain ⟨next, hn, rfl⟩ := (h.properties e he).references p hp target hr
  refine ⟨next, ?_, filter_name_of_mem Entity.name h.names hn⟩
  rw [Schema.target?, hr]
  exact find?_name_of_mem Entity.name h.names hn

/-- The check passes exactly the well-formed schemas, fails with the first defect, and leaves every
reference with the one entity that it names. -/
theorem validate_firstDefect (s : Schema) :
    (s.validate = .ok () ↔ s.WellFormed) ∧
      (∀ error, s.validate = .error error ↔ s.FirstDefect error) ∧
      (s.validate = .ok () →
        ∀ e ∈ s.entities, ∀ p ∈ e.properties, ∀ target, p.references = some target →
          ∃ next, s.target? p = some next ∧ s.entities.filter (·.name = target) = [next]) := by
  refine ⟨validate_eq_ok_iff, fun error => validate_eq_error_iff, ?_⟩
  intro hv e he p hp target hr
  exact (validate_eq_ok_iff.mp hv).target? he hp hr

/-- A reference ahead of its entity, and a property with two defects behind it. -/
def sampleFaulty : Schema :=
  ⟨[⟨"u", [⟨"a", .int, some "v"⟩, ⟨"b", .enumeration [], some "w"⟩, ⟨"a", .enumeration [], none⟩]⟩,
    ⟨"v", []⟩]⟩

/-- The same without what the check reports, one defect after the other. -/
def sampleRepaired : Schema := ⟨[⟨"u", [⟨"a", .int, some "v"⟩]⟩, ⟨"v", []⟩]⟩

theorem validate_sampleFaulty :
    sampleFaulty.FirstDefect (.emptyEnumeration "u" "b") ∧
      sampleRepaired.WellFormed ∧
      sampleRepaired.validate = .ok () ∧
      ∃ next, sampleRepaired.target? ⟨"a", .int, some "v"⟩ = some next ∧
        sampleRepaired.entities.filter (·.name = "v") = [next] := by
  obtain ⟨-, herror, -⟩ := validate_firstDefect sampleFaulty
  obtain ⟨hok, -, htarget⟩ := validate_firstDefect sampleRepaired
  have hv : sampleRepaired.validate = .ok () := by decide
  refine ⟨(herror _).mp (by decide), hok.mp hv, hv, ?_⟩
  exact htarget hv ⟨"u", [⟨"a", .int, some "v"⟩]⟩ (by decide) _ (by decide) "v" rfl

end Schema
end FilterQuery
