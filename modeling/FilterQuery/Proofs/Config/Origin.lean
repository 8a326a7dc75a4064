import FilterQuery.Proofs.Config.Listing
import FilterQuery.Proofs.Query.Origin

/-!
Where the texts in a compiled query come from. A text that a field is compared with or searched
for is spelled with characters of the query, and a constant is one of an enumeration of the schema.
Every other value has been converted from a text.
-/
namespace FilterQuery

open Query

namespace Schema

/-- One of the enumerations has the constant. -/
def HasConstant (s : Schema) (name : String) : Prop :=
  ∃ e ∈ s.entities, ∃ p ∈ e.properties, ∃ constants,
    p.type = .enumeration constants ∧ name ∈ constants

theorem mem_of_resolveSegments? {s : Schema} {e : Entity} {names : List String} {r : Resolved}
    (he : e ∈ s.entities) (h : s.resolveSegments? e names = some r) :
    r.entity ∈ s.entities ∧ r.property ∈ r.entity.properties := by
  induction names generalizing e with
  | nil => cases h
  | cons name names ih =>
    cases names with
    | nil =>
      obtain ⟨p, hp, rfl⟩ := Option.map_eq_some_iff.mp h
      exact ⟨he, List.mem_of_find?_eq_some hp⟩
    | cons next names =>
      obtain ⟨p, -, h⟩ := Option.bind_eq_some_iff.mp h
      obtain ⟨e', he', h⟩ := Option.bind_eq_some_iff.mp h
      exact ih (target?_mem he') h

end Schema

/-- A text has only characters of `cs`, and a constant is one of the schema. -/
def Value.DrawnFrom (s : Schema) (cs : List Char) : Value → Prop
  | .string text => text.toList ⊆ cs
  | .constant name => s.HasConstant name
  | _ => True

namespace Query

variable {st : Setting} {cs : List Char} {field : FieldPath} {op : Operator} {value : Value}

theorem drawnFrom_of_readTrimmed? {t : DataType} {raw : String}
    (h : t.readTrimmed? raw = some value) : value.DrawnFrom st.schema cs := by
  cases t with
  | string => cases h
  | enumeration constants => cases h
  | _ =>
    obtain ⟨_, -, rfl⟩ := Option.map_eq_some_iff.mp h
    trivial

theorem drawnFrom_of_read {r : Resolved} {raw : String} (hr : r.entity ∈ st.schema.entities)
    (hp : r.property ∈ r.entity.properties) (hraw : raw.toList ⊆ cs)
    (h : r.property.type.read raw = .ok value) : value.DrawnFrom st.schema cs := by
  generalize htype : r.property.type = type at h
  revert h
  fun_cases DataType.read type raw with
  | case1 =>
    intro h
    cases h
    exact hraw
  | case2 constants name hname =>
    intro h
    cases h
    exact ⟨r.entity, hr, r.property, hp, constants, htype, List.mem_of_find?_eq_some hname⟩
  | case3 =>
    intro h
    cases h
  | case4 t _ _ v hv =>
    intro h
    cases h
    exact drawnFrom_of_readTrimmed? hv
  | case5 =>
    intro h
    cases h

/-- What a text of the query is converted to. -/
theorem converted_drawnFrom (hroot : st.root ∈ st.schema.entities) {r : Resolved} {raw : String}
    (hr : st.schema.resolve? st.root field = some r) (hraw : raw.toList ⊆ cs) :
    (converted r raw).DrawnFrom st.schema cs := by
  obtain ⟨he, hp⟩ := Schema.mem_of_resolveSegments? hroot hr
  rw [converted]
  cases hread : r.property.type.read raw with
  | error e => exact hraw
  | ok v => exact drawnFrom_of_read he hp hraw hread

theorem operandValue_drawnFrom (hroot : st.root ∈ st.schema.entities) {r : Resolved} {t : Term}
    (hr : st.schema.resolve? st.root field = some r) (ht : t.text.toList ⊆ cs) :
    (operandValue r t).DrawnFrom st.schema cs := by
  rw [operandValue]
  split
  · trivial
  · exact converted_drawnFrom hroot hr ht

theorem Asks.drawnFrom (hroot : st.root ∈ st.schema.entities) (h : Asks st cs field op value) :
    value.DrawnFrom st.schema cs := by
  cases h with
  | @operator r after op width hr hs ho =>
    have htext := List.Subset.trans (takeValue_subset _) (List.drop_suffix width after).subset
    exact operandValue_drawnFrom hroot hr (List.Subset.trans htext hs.subset)
  | @tag r rest type value hr hs ht hl =>
    have hpayload := List.Subset.trans (read_value_subset ht) (takePayload_subset rest)
    have hrest := ((List.suffix_append ['|', '|'] rest).trans hs).subset
    exact converted_drawnFrom hroot hr (List.Subset.trans hpayload hrest)

end Query

namespace Command

variable {config : Config} {query : String} {t : FilterTree}

/-- A query that compiles to a tree asks for its leaves. -/
theorem asked_of_outcome (h : outcome config query = .ok (some t)) :
    ∃ root, config.rootEntity = .ok root ∧ Asked (config.setting root) query.toList t := by
  cases hroot : config.rootEntity with
  | error e => simp [outcome, compileWith, hroot] at h
  | ok root =>
    refine ⟨root, rfl, asked_of_compile ?_⟩
    rw [outcome, compileWith_eq hroot] at h
    exact mapError_eq_ok.mp h

theorem drawnFrom_of_outcome (h : outcome config query = .ok (some t)) {field : FieldPath}
    {op : Operator} {value : Value} (hm : .compare field op value ∈ t.postOrder) :
    value.DrawnFrom config.schema query.toList := by
  obtain ⟨root, hroot, hasked⟩ := asked_of_outcome h
  exact (hasked.compare hm).drawnFrom (Config.root_mem hroot)

theorem word_subset_of_outcome (h : outcome config query = .ok (some t)) {field : FieldPath}
    {mode : SearchMode} {word : String} (hm : .search field mode word ∈ t.postOrder) :
    word.toList ⊆ query.toList := by
  obtain ⟨root, -, hasked⟩ := asked_of_outcome h
  exact hasked.search hm

end Command

end FilterQuery
