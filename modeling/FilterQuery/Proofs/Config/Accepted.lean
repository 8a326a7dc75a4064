import FilterQuery.Proofs.Query.TagRegistry
import FilterQuery.Proofs.Query.Trace

/-!
What the checks of a configuration are worth. Once a configuration has been accepted, every field
it names resolves, so that a query compares and searches existing fields only, every tag of a
registered type yields its comparison, and nothing can fail but the query itself.
-/
namespace FilterQuery

namespace Query

open Build FilterTree

/-- The search fields of a setting and the fields of its tags resolve. -/
structure Setting.Resolves (st : Setting) : Prop where
  search : ∀ f ∈ st.searchFields, (st.schema.resolve? st.root f.field).isSome
  tag : ∀ type field, st.tags.lookup type = some field →
    (st.schema.resolve? st.root field).isSome

/-- The comparisons of a tree are of fields that resolve, with null or a value converted for the
field, and its searches are in search fields, which resolve too. -/
structure OnFields (st : Setting) (t : FilterTree) : Prop where
  compare : ∀ field op value, FilterTree.compare field op value ∈ t.postOrder →
    ∃ r, st.schema.resolve? st.root field = some r ∧
      (value = .null ∨ ∃ raw, value = converted r raw)
  search : ∀ field mode word, FilterTree.search field mode word ∈ t.postOrder →
    field ∈ st.searchFields.map (·.field) ∧ (st.schema.resolve? st.root field).isSome

variable {C : Type} {F : Factory C} {st : Setting}

theorem operandValue_eq (r : Resolved) (t : Term) :
    operandValue r t = .null ∨ ∃ raw, operandValue r t = converted r raw := by
  rw [operandValue]
  split
  · exact .inl rfl
  · exact .inr ⟨t.text, rfl⟩

/-- A junction is on fields if its parts are. -/
theorem onFields_junction (join : List FilterTree → FilterTree) {ts : List FilterTree}
    (hj : (join ts).postOrder = postOrderList ts ++ [join ts]) (hl : (join ts).isLeaf = false)
    (h : ∀ t ∈ ts, OnFields st t) : OnFields st (join ts) where
  compare := by
    intro field op value hm
    obtain ⟨t, ht, hm⟩ := exists_of_mem_junction hj hl rfl hm
    exact (h t ht).compare field op value hm
  search := by
    intro field mode word hm
    obtain ⟨t, ht, hm⟩ := exists_of_mem_junction hj hl rfl hm
    exact (h t ht).search field mode word hm

theorem onFields_all {ts : List FilterTree} (h : ∀ t ∈ ts, OnFields st t) :
    OnFields st (.all ts) :=
  onFields_junction .all rfl rfl h

theorem onFields_any {ts : List FilterTree} (h : ∀ t ∈ ts, OnFields st t) :
    OnFields st (.any ts) :=
  onFields_junction .any rfl rfl h

theorem onFields_negate {t : FilterTree} (h : OnFields st t) : OnFields st (.negate t) where
  compare := fun field op value hm => h.compare field op value (by simpa [postOrder] using hm)
  search := fun field mode word hm => h.search field mode word (by simpa [postOrder] using hm)

theorem onFields_wordGroup (hst : st.Resolves) (mode : Option SearchMode) (word : String) :
    OnFields st (wordGroup factory st mode word) := by
  refine onFields_any ?_
  intro t ht
  obtain ⟨f, hf, rfl⟩ := List.mem_map.mp ht
  refine ⟨?_, ?_⟩
  · intro field op value hm
    cases List.mem_singleton.mp hm
  · intro field m w hm
    cases List.mem_singleton.mp hm
    exact ⟨List.mem_map.mpr ⟨f, hf, rfl⟩, hst.search f hf⟩

theorem onFields_of_leafConstraint (hst : st.Resolves) {t : FilterTree}
    (h : LeafConstraint factory st t) : OnFields st t := by
  cases h with
  | comparison hr op t =>
    rw [factory_compare]
    refine ⟨?_, ?_⟩
    · intro field op' value hm
      cases List.mem_singleton.mp hm
      exact ⟨_, hr, operandValue_eq _ t⟩
    · intro field mode word hm
      cases List.mem_singleton.mp hm
  | phrase hf text =>
    refine onFields_all ?_
    simpa using onFields_wordGroup hst _ text
  | words hf ws hne hw =>
    refine onFields_all ?_
    intro t ht
    obtain ⟨w, -, rfl⟩ := List.mem_map.mp ht
    exact onFields_wordGroup hst none w

theorem preserves_onFields (hst : st.Resolves) : Preserves factory st (OnFields st) where
  leaf := fun _ h => onFields_of_leafConstraint hst h
  tag := fun _ _ h => onFields_of_leafConstraint hst (leafConstraint_of_tagged h)
  negate := fun _ h => onFields_negate h
  all := fun _ _ h => onFields_all h
  any := fun _ _ h => onFields_any h

/-- No event but a warning that the field of a tag does not resolve. -/
def NoTagWarning (e : Event C) : Prop := ∀ field, e ≠ .noted (.unresolvedTagField field)

theorem admitsOwn_noTagWarning : AdmitsOwn F NoTagWarning where
  note := by
    rintro n hn field ⟨⟩
    exact hn
  search := by
    rintro field mode word f ⟨⟩
  compare := by
    rintro field op value f ⟨⟩
  negate := by
    rintro c f ⟨⟩
  all := by
    rintro cs h f ⟨⟩
  any := by
    rintro cs h f ⟨⟩

theorem admits_noTagWarning (hst : st.Resolves) : Admits F st NoTagWarning := by
  refine admitsOwn_noTagWarning.admits fun type field hl hr => ?_
  have hs := hst.tag type field hl
  rw [hr] at hs
  cases hs

theorem mem_notes {c : Compilation C} {n : Note} : n ∈ c.notes ↔ .noted n ∈ c.events := by
  rw [Compilation.notes, List.mem_filterMap]
  constructor
  · rintro ⟨e, he, hn⟩
    cases e with
    | built c => cases hn
    | noted m =>
      cases hn
      exact he
  · intro h
    exact ⟨.noted n, h, rfl⟩

theorem compile_noTagWarning (hst : st.Resolves) (query field : String) :
    .unresolvedTagField field ∉ (compile F st query).notes := by
  intro hn
  have hall := (compile_ensures (admits_noTagWarning (F := F) hst) preserves_true query).1
  exact hall _ (mem_notes.mp hn) field rfl

theorem convert_built (r : Resolved) (raw : String) :
    (convert r raw : Build C Value).built = [] := by
  rw [convert]
  cases r.property.type.read raw <;> rfl

theorem tagConstraint_built (field : FieldPath) (value : String) :
    (tagConstraint F st field value).built =
      ((st.schema.resolve? st.root field).map fun r => F.eq field (converted r value)).toList := by
  rw [tagConstraint]
  cases st.schema.resolve? st.root field with
  | none => rfl
  | some r =>
    have hv : (convert r value : Build C Value).result = .ok (converted r value) :=
      (convert_yields (admitsOwn_true F).text r value).result
    simp only
    rw [built_bind hv, convert_built]
    rfl

/-- A tag builds the comparison it stands for and nothing else. -/
theorem compileTag_built (payload : List Char) :
    (compileTag F st payload).built =
      (tagEquality F st (Tag.read (String.ofList payload))).toList := by
  rw [compileTag]
  generalize Tag.read (String.ofList payload) = tag
  obtain ⟨_ | type, _ | value⟩ := tag
  · rfl
  · rfl
  · rfl
  · simp only [tagEquality]
    cases st.tags.lookup type with
    | none => rfl
    | some field =>
      rw [Option.bind_some]
      exact tagConstraint_built field value

variable (F st) in
theorem compileUnit_tag_built {cs rest : List Char}
    (hs : Text.skipBlanks cs = '|' :: '|' :: rest) :
    (compileUnit F st cs).result =
        .ok (tagEquality F st (Tag.read (String.ofList (takePayload rest).1)),
          (takePayload rest).2) ∧
      (compileUnit F st cs).built =
        (tagEquality F st (Tag.read (String.ofList (takePayload rest).1))).toList := by
  have hunit := (compileUnit_tag_yields (admits_true F st) hs).result
  have hy := compileTag_yields st (admits_true F st) (takePayload rest).1
  refine ⟨by rwa [tagged_eq_tagEquality] at hunit, ?_⟩
  rw [compileUnit_tag hs, built_bind hy.result, compileTag_built]
  exact List.append_nil _

end Query

namespace Config

open Query

/-- The setting of a configuration with its root entity. -/
def setting (c : Config) (root : Entity) : Setting :=
  ⟨c.schema, root, c.searchFields, c.tagRegistry⟩

theorem validate_of_read {source : String} {c : Config} (h : read source = .ok c) :
    c.validate = .ok () := by
  rw [read] at h
  cases hj : (Json.read? source).bind ofJson? with
  | none =>
    rw [hj] at h
    cases h
  | some c' =>
    rw [hj] at h
    cases hv : c'.validate with
    | error e => simp [hv, Except.map] at h
    | ok u =>
      have hc : c' = c := by simpa [hv, Except.map] using h
      rw [← hc]
      exact hv

/-- What the checks find out about the root and the configured fields. -/
theorem root_of_validate {c : Config} (h : c.validate = .ok ()) :
    ∃ root, c.rootEntity = .ok root ∧ c.unresolvedField? root = none := by
  rw [validate] at h
  cases hs : c.schema.validate with
  | error e => simp [hs, Except.mapError, bind, Except.bind] at h
  | ok u =>
    cases hr : c.rootEntity with
    | error e => simp [hs, hr, Except.mapError, bind, Except.bind] at h
    | ok root =>
      refine ⟨root, rfl, ?_⟩
      cases hu : c.unresolvedField? root with
      | none => rfl
      | some e => simp [hs, hr, hu, Except.mapError, bind, Except.bind, throw, throwThe,
          MonadExceptOf.throw] at h

theorem resolve_of_configured {c : Config} {root : Entity} (h : c.unresolvedField? root = none)
    {field : FieldPath} {use : FieldUse} (hf : (field, use) ∈ c.configuredFields) :
    (c.schema.resolve? root field).isSome := by
  rw [unresolvedField?, Option.map_eq_none_iff, List.find?_eq_none] at h
  simpa [Option.isSome_iff_ne_none] using h _ hf

theorem resolves_setting {c : Config} {root : Entity} (h : c.unresolvedField? root = none) :
    Setting.Resolves (c.setting root) where
  search := by
    intro f hf
    have hc : (f.field, .defaultSearch) ∈ c.configuredFields :=
      List.mem_append_left _ (List.mem_map_of_mem hf)
    exact resolve_of_configured h hc
  tag := by
    intro type field hl
    obtain ⟨name, hm, -⟩ := TagRegistry.mem_of_lookup hl
    have hc : (field, .tag) ∈ c.configuredFields :=
      List.mem_append_right _ (List.mem_map_of_mem (List.mem_map_of_mem hm))
    exact resolve_of_configured h hc

end Config

open Query

variable {config : Config} {root : Entity}

theorem Command.compileWith_eq {C : Type} (h : config.rootEntity = .ok root) (F : Factory C)
    (query : String) : Command.compileWith F config query =
      ((Query.compile F (config.setting root) query).notes.map .query,
        (Query.compile F (config.setting root) query).result.mapError .compile) := by
  rw [Command.compileWith, h]
  rfl

/-- Where the root exists, a command fails with the error of a compilation. -/
theorem Command.compile_error {query : String} {b : Backend} {d : Sql.Dialect} {json : Bool}
    {e : CommandError} (h : config.rootEntity = .ok root)
    (he : (Command.compile config query b d json).output = .error e) :
    ∃ error, e = .compile error := by
  have hmap {α : Type} {x : Except CompileError α} {f : α → String}
      (hx : (x.mapError CommandError.compile).map f = .error e) :
      ∃ error, e = .compile error := by
    cases x with
    | error error =>
      cases hx
      exact ⟨error, rfl⟩
    | ok a => cases hx
  cases b with
  | tree =>
    simp only [Command.compile, Command.compileWith_eq h] at he
    exact hmap he
  | sql =>
    simp only [Command.compile, Command.compileWith_eq h] at he
    exact hmap he
  | mongo =>
    simp only [Command.compile, Command.compileWith_eq h] at he
    exact hmap he

/-- The compiled trees are on fields that resolve where all configured fields do. -/
theorem Command.onFields_of_outcome (hroot : config.rootEntity = .ok root)
    (hst : Setting.Resolves (config.setting root)) {query : String} {t : FilterTree}
    (h : Command.outcome config query = .ok (some t)) : OnFields (config.setting root) t := by
  have hall := compile_ensures (admits_true FilterTree.factory _) (preserves_onFields hst) query
  refine hall.2 t ?_
  rw [Command.outcome, Command.compileWith_eq hroot] at h
  cases hr : (Query.compile FilterTree.factory (config.setting root) query).result with
  | error e => simp [hr, Except.mapError] at h
  | ok c => simpa [hr, Except.mapError] using h

/-- An accepted configuration yields constraints on existing fields only: comparisons and
searches are on fields that resolve, every tag of a registered type compares its field, and a
command can only fail with the error of its query. -/
theorem accepted_queries {source : String} (h : Config.read source = .ok config) :
    ∃ root, config.rootEntity = .ok root ∧
      (∀ query t, Command.outcome config query = .ok (some t) →
        OnFields (config.setting root) t) ∧
      (∀ {C : Type} (F : Factory C) (query field : String),
        .query (.unresolvedTagField field) ∉ (Command.compileWith F config query).1) ∧
      (∀ {C : Type} (F : Factory C) (cs rest : List Char) (type value : String)
        (field : FieldPath), Text.skipBlanks cs = '|' :: '|' :: rest →
        Tag.read (String.ofList (takePayload rest).1) = ⟨some type, some value⟩ →
        config.tagRegistry.lookup type = some field →
        ∃ name r, (name, field) ∈ config.tags.entries ∧ Text.lower name = Text.lower type ∧
          config.schema.resolve? root field = some r ∧
          (compileUnit F (config.setting root) cs).result =
            .ok (some (F.eq field (converted r value)), (takePayload rest).2) ∧
          (compileUnit F (config.setting root) cs).built = [F.eq field (converted r value)]) ∧
      (∀ query b d json e, (Command.compile config query b d json).output = .error e →
        ∃ error, e = .compile error) ∧
      (∀ depth json, ∃ text, (Command.fields config depth json).output = .ok text) ∧
      ∀ json, ∃ text, (Command.tags config json).output = .ok text := by
  obtain ⟨root, hroot, hfields⟩ := Config.root_of_validate (Config.validate_of_read h)
  have hst := Config.resolves_setting hfields
  refine ⟨root, hroot, fun _ _ ht => Command.onFields_of_outcome hroot hst ht, ?_, ?_,
    fun _ _ _ _ _ he => Command.compile_error hroot he, ?_, ?_⟩
  · intro C F query field hm
    rw [Command.compileWith_eq hroot] at hm
    obtain ⟨n, hn, he⟩ := List.mem_map.mp hm
    cases he
    exact compile_noTagWarning hst query field hn
  · intro C F cs rest type value field hs ht hl
    obtain ⟨name, hm, hname⟩ := TagRegistry.mem_of_lookup hl
    obtain ⟨r, hr⟩ := Option.isSome_iff_exists.mp (hst.tag type field hl)
    have htag : tagEquality F (config.setting root) ⟨some type, some value⟩ =
        some (F.eq field (converted r value)) := by
      have hr' : config.schema.resolve? root field = some r := hr
      simp [tagEquality, Config.setting, hl, hr']
    obtain ⟨hresult, hbuilt⟩ := compileUnit_tag_built F (config.setting root) hs
    rw [ht, htag] at hresult hbuilt
    exact ⟨name, r, hm, hname, hr, hresult, hbuilt⟩
  · intro depth json
    rw [Command.fields, hroot]
    exact ⟨_, rfl⟩
  · intro json
    exact ⟨_, rfl⟩

/-- The text of a configuration, with arrays in place of records. -/
def sampleSource : String :=
  "[[[[\"user\", [[\"name\"], [\"age\", \"int\"]]]]], \"user\", [[\"name\"]], " ++
    "\x7b\"Y\": [\"age\"]\x7d]"

theorem read_sampleSource : Config.read sampleSource = .ok sampleConfig := by cbv

theorem accepted_sampleSource :
    ∃ root, sampleConfig.rootEntity = .ok root ∧
      OnFields (sampleConfig.setting root) (.all [.compare ⟨"age"⟩ .lessThan (.int 9),
        .compare ⟨"age"⟩ .equal (.int 7)]) ∧
      .query (.unresolvedTagField "age") ∉
        (Command.compileWith FilterTree.factory sampleConfig "age<9 ||y:7||").1 ∧
      (∃ r, (compileUnit FilterTree.factory (sampleConfig.setting root)
        " ||y:7|| bo".toList).built = [.compare ⟨"age"⟩ .equal (converted r "7")]) ∧
      ∃ error, (Command.compile sampleConfig "age!" .tree .postgres true).output =
        .error (.compile error) := by
  obtain ⟨root, hroot, hon, hquiet, htag, herror, -, -⟩ := accepted_queries read_sampleSource
  have ht : Command.outcome sampleConfig "age<9 ||y:7||" =
      .ok (some (.all [.compare ⟨"age"⟩ .lessThan (.int 9),
        .compare ⟨"age"⟩ .equal (.int 7)])) := by cbv
  have he : (Command.compile sampleConfig "age!" .tree .postgres true).output =
      .error (.compile ⟨"age", some '!', 3⟩) := by cbv
  obtain ⟨-, r, -, -, -, -, hbuilt⟩ := htag FilterTree.factory " ||y:7|| bo".toList
    "y:7|| bo".toList "y" "7" ⟨"age"⟩ (by cbv) (by cbv) (by cbv)
  obtain ⟨error, herror⟩ := herror _ _ _ _ _ he
  exact ⟨root, hroot, hon _ _ ht, hquiet _ _ _, ⟨r, hbuilt⟩, error, he.trans (by rw [herror])⟩

end FilterQuery
