import FilterQuery.Proofs.Config.Accepted
import FilterQuery.Proofs.Query.Reading
import FilterQuery.Proofs.Text.Bytes

/-!
The tags of a configuration in queries. A registry is a map from types to handlers in which letter
case does not count and the last registration does. A configuration registers its tags by
ascending key, so of the keys that differ in letter case only the greatest counts: a query with a
tag of any of them compares the field of that one.
-/
namespace FilterQuery

open Query

namespace Config

theorem sorted_of_tagsOfJson? {j : Json} {tags : SortedMap FieldPath}
    (h : tagsOfJson? j = some tags) : tags.Sorted := by
  obtain ⟨fields, -, h⟩ := Option.bind_eq_some_iff.mp h
  obtain ⟨entries, -, h⟩ := Option.bind_eq_some_iff.mp h
  cases h
  exact SortedMap.sorted_ofList entries

theorem sorted_tags_of_ofJson? {j : Json} {config : Config} (h : ofJson? j = some config) :
    config.tags.Sorted := by
  rw [ofJson?] at h
  split at h
  · next schemaJson rootJson searchFieldsJson tagsJson _ =>
    obtain ⟨schema, -, h⟩ := Option.bind_eq_some_iff.mp h
    obtain ⟨root, -, h⟩ := Option.bind_eq_some_iff.mp h
    obtain ⟨searchFields, -, h⟩ := Option.bind_eq_some_iff.mp h
    obtain ⟨tags, htags, h⟩ := Option.bind_eq_some_iff.mp h
    have hc : config.tags = tags := by
      rw [← Option.some.inj h]
    rw [hc]
    cases tagsJson with
    | none =>
      cases htags
      exact SortedMap.sorted_empty
    | some j => exact sorted_of_tagsOfJson? htags
  · cases h

/-- The keys of the configured tags are in order, each once. -/
theorem sorted_tags_of_read {source : String} {config : Config}
    (h : read source = .ok config) : config.tags.Sorted := by
  rw [read] at h
  split at h
  · cases h
  · next c hc =>
    obtain ⟨j, -, hj⟩ := Option.bind_eq_some_iff.mp hc
    cases hv : c.validate with
    | error e => simp [hv, Except.map] at h
    | ok u =>
      have he : c = config := by simpa [hv, Except.map] using h
      exact he ▸ sorted_tags_of_ofJson? hj

/-- A configured key is registered for the field of the greatest key that is the same up to
letter case. -/
theorem lookup_tagRegistry {config : Config} (hs : config.tags.Sorted) {key : String}
    (hk : key ∈ config.tags.names) :
    ∃ name field, config.tagRegistry.lookup key = some field ∧
      (name, field) ∈ config.tags.entries ∧ Text.lower name = Text.lower key ∧
      ∀ other ∈ config.tags.names, Text.lower other = Text.lower key →
        other = name ∨ Text.bytes other < Text.bytes name := by
  obtain ⟨entry, hentry, rfl⟩ := List.mem_map.mp hk
  have hmem : entry ∈ config.tags.entries.filter (TagRegistry.isUnder entry.1) :=
    List.mem_filter.mpr ⟨hentry, decide_eq_true rfl⟩
  obtain ⟨⟨name, field⟩, hlast⟩ := Option.isSome_iff_exists.mp
    (List.getLast?_isSome.mpr (List.ne_nil_of_mem hmem))
  obtain ⟨hname, hunder⟩ := List.mem_filter.mp (List.mem_of_getLast? hlast)
  refine ⟨name, field, ?_, hname, of_decide_eq_true hunder, ?_⟩
  · rw [tagRegistry, TagRegistry.lookup_ofList, hlast]
    rfl
  · intro other hother hlower
    obtain ⟨e, he, rfl⟩ := List.mem_map.mp hother
    exact (hs.eq_or_lt_getLast? hlast e he (decide_eq_true hlower)).imp id Text.bytes_lt_of_lt

end Config

def tagQuery (key value : String) : String := "||" ++ key ++ ":" ++ value ++ "||"

theorem tagPart_of_trim_eq {s : String} (hne : s ≠ "") (ht : Text.trim s = s)
    (hb : '|' ∉ s.toList) : TagPart s := by
  refine ⟨hb, ?_⟩
  have htrim : Text.trimChars s.toList = s.toList := by rw [← Text.toList_trim, ht]
  cases hs : s.toList with
  | nil => exact absurd (String.toList_eq_nil_iff.mp hs) hne
  | cons c cs =>
    refine ⟨c, List.mem_cons_self, Text.head?_trimChars s.toList c ?_⟩
    rw [htrim, hs]
    rfl

variable {C : Type} {F : Factory C} {st : Setting}

theorem compile_tagQuery {key value : String} (hk : TagPart key) (hc : ':' ∉ key.toList)
    (hv : TagPart value) :
    (compile F st (tagQuery key value)).result =
      .ok (tagEquality F st ⟨some (Text.trim key), some (Text.trim value)⟩) := by
  have ht : tagQuery key value =
      String.ofList ('|' :: '|' :: (key.toList ++ ':' :: (value.toList ++ ['|', '|']))) := by
    rw [← String.toList_inj]
    simp [tagQuery]
  have hs := Text.skipBlanks_cons (show Text.isBlank '|' = false from rfl)
    ('|' :: (key.toList ++ ':' :: (value.toList ++ ['|', '|'])))
  have hitem := compileAny_item F st (by simp [atClose]) (reads_tag F st hk hc hv hs) rfl
  rw [ht, ← tagged_eq_tagEquality]
  exact compile_ofList hitem.result

/-- Registrations make a map in which the last one of a type counts, whatever the letter case,
and whose types are listed in the order of their bytes. A query with a tag of a configured key
compares the field of the last key that is the same up to letter case. -/
theorem registered_tags :
    (∀ {Handler : Type} (l : List (String × Handler)) (type : String),
      (TagRegistry.ofList l).lookup type =
          ((l.filter fun e => Text.lower e.1 = Text.lower type).getLast?).map (·.2) ∧
        ((TagRegistry.ofList l).hasTag type = true ↔
          ∃ handler, (TagRegistry.ofList l).lookup type = some handler) ∧
        ((TagRegistry.ofList l).types.Pairwise fun s t => Text.bytes s < Text.bytes t) ∧
        (type ∈ (TagRegistry.ofList l).types ↔ ∃ e ∈ l, Text.lower e.1 = type) ∧
        (TagRegistry.ofList l).size = (TagRegistry.ofList l).types.length ∧
        ((TagRegistry.ofList l).isEmpty = true ↔ l = []) ∧
        (type ∈ (TagRegistry.ofList l).types →
          ∃ handler, (TagRegistry.ofList l).lookup type = some handler)) ∧
    ∀ (source : String) (config : Config), Config.read source = .ok config →
      ∀ key ∈ config.tags.names, key ≠ "" → Text.trim key = key → ':' ∉ key.toList →
        '|' ∉ key.toList → ∀ value, TagPart value →
        ∃ root name field r, config.rootEntity = .ok root ∧
          (name, field) ∈ config.tags.entries ∧ Text.lower name = Text.lower key ∧
          (∀ other ∈ config.tags.names, Text.lower other = Text.lower key →
            other = name ∨ Text.bytes other < Text.bytes name) ∧
          config.schema.resolve? root field = some r ∧
          ∀ {C : Type} (F : Factory C),
            (Command.compileWith F config (tagQuery key value)).2 =
              .ok (some (F.eq field (converted r (Text.trim value)))) := by
  refine ⟨?_, ?_⟩
  · intro Handler l type
    refine ⟨TagRegistry.lookup_ofList l type, TagRegistry.hasTag_iff_lookup, ?_,
      TagRegistry.mem_types_ofList, TagRegistry.size_eq _, TagRegistry.isEmpty_ofList, ?_⟩
    · exact (TagRegistry.sorted_ofList l).imp Text.bytes_lt_of_lt
    · intro h
      exact Option.isSome_iff_exists.mp (TagRegistry.lookup_of_mem_types h)
  · intro source config h key hk hne htrim hcolon hbar value hv
    obtain ⟨root, hroot, hfields⟩ := Config.root_of_validate (Config.validate_of_read h)
    obtain ⟨name, field, hlookup, hmem, hlower, hlast⟩ :=
      Config.lookup_tagRegistry (Config.sorted_tags_of_read h) hk
    obtain ⟨r, hr⟩ := Option.isSome_iff_exists.mp
      ((Config.resolves_setting hfields).tag key field hlookup)
    refine ⟨root, name, field, r, hroot, hmem, hlower, hlast, hr, ?_⟩
    intro C F
    have hcompile : (compile F (config.setting root) (tagQuery key value)).result = _ :=
      compile_tagQuery (tagPart_of_trim_eq hne htrim hbar) hcolon hv
    have htag : tagEquality F (config.setting root) ⟨some key, some (Text.trim value)⟩ =
        some (F.eq field (converted r (Text.trim value))) := by
      have hr' : config.schema.resolve? root field = some r := hr
      simp [tagEquality, Config.setting, hlookup, hr']
    rw [Command.compileWith_eq hroot, hcompile, htrim, htag]
    rfl

/-- Two keys that differ in letter case only. -/
def sampleTagConfig : Config :=
  ⟨sampleSetting.schema, "user", [], ⟨[("Owner", ⟨"age"⟩), ("owner", ⟨"name"⟩)]⟩⟩

def sampleTagSource : String :=
  "[[[[\"user\", [[\"name\"], [\"age\", \"int\"]]]]], \"user\", [], " ++
    "\x7b\"owner\": [\"name\"], \"Owner\": [\"age\"]\x7d]"

theorem read_sampleTagSource : Config.read sampleTagSource = .ok sampleTagConfig := by cbv

theorem registered_sampleTags :
    "owner" ∈ (TagRegistry.ofList sampleTagConfig.tags.entries).types ∧
      (∃ field, (TagRegistry.ofList sampleTagConfig.tags.entries).lookup "owner" = some field) ∧
      ∃ r, (Command.compileWith FilterTree.factory sampleTagConfig "||Owner: bo ||").2 =
        .ok (some (.compare ⟨"name"⟩ .equal (converted r "bo"))) := by
  have hlisted : "owner" ∈ (TagRegistry.ofList sampleTagConfig.tags.entries).types := by
    decide +kernel
  obtain ⟨-, -, -, -, -, -, hfound⟩ := registered_tags.1 sampleTagConfig.tags.entries "owner"
  obtain ⟨root, name, field, r, -, hmem, -, hlast, -, hquery⟩ :=
    registered_tags.2 sampleTagSource sampleTagConfig read_sampleTagSource "Owner"
      (by simp [sampleTagConfig, SortedMap.names]) (by decide) (by cbv) (by decide) (by decide)
      " bo " (by simp [TagPart, Text.isBlank])
  refine ⟨hlisted, hfound hlisted, r, ?_⟩
  have hfield : field = ⟨"name"⟩ := by
    simp only [sampleTagConfig, List.mem_cons, Prod.mk.injEq, List.not_mem_nil, or_false] at hmem
    rcases hmem with ⟨rfl, -⟩ | ⟨-, rfl⟩
    · have hless : ¬("owner" = "Owner" ∨ Text.bytes "owner" < Text.bytes "Owner") := by
        decide +kernel
      have hl := hlast "owner" (by simp [sampleTagConfig, SortedMap.names]) (by cbv)
      exact absurd hl hless
    · rfl
  have h := hquery FilterTree.factory
  rw [hfield] at h
  exact h

end FilterQuery
