import FilterQuery.Proofs.Config.Accepted
import FilterQuery.Proofs.Query.Reading
import FilterQuery.Proofs.Schema.Composition
import FilterQuery.Proofs.Schema.FieldPaths

/-!
What the listing of field paths is worth. A listed path can be written between quotes and compared
with any text, and the comparison is of the property it is listed for, as long as no name on the
path has a point. Nothing keeps points out of names: a property with one is listed, but no path
leads to it, and a path over a reference with one leads where its names lead once they are cut at
their points.
-/
namespace FilterQuery

open Query

variable {config : Config} {root : Entity}

theorem mapError_eq_ok {ε ε' α : Type} {x : Except ε α} {f : ε → ε'} {a : α} :
    x.mapError f = .ok a ↔ x = .ok a := by
  cases x <;> simp [Except.mapError]

namespace Config

theorem schema_of_validate {c : Config} (h : c.validate = .ok ()) : c.schema.validate = .ok () := by
  rw [validate] at h
  cases hs : c.schema.validate with
  | error e => simp [hs, Except.mapError, bind, Except.bind] at h
  | ok u => rfl

theorem root_mem (h : config.rootEntity = .ok root) : root ∈ config.schema.entities := by
  rw [rootEntity, mapError_eq_ok, Schema.requireEntity] at h
  split at h
  · next he =>
    cases h
    exact Schema.entity?_mem he
  · cases h

end Config

/-- Every factory compiles the comparison of a quoted path with a quoted text to an equality with
the value the text has for the property. -/
def Compares (config : Config) (path : String) (r : Resolved) : Prop :=
  ∀ (C : Type) (F : Factory C) (value : String),
    (Command.compileWith F config (String.ofList (quotedComparison path value))).2 =
      .ok (some (F.eq ⟨path⟩ (converted r value)))

theorem compares_of_resolve {path : String} {r : Resolved} (hroot : config.rootEntity = .ok root)
    (h : config.schema.resolve? root ⟨path⟩ = some r) : Compares config path r := by
  intro C F value
  have hc := compile_quotedComparison F (config.setting root) h value
  rw [Command.compileWith_eq hroot, hc]
  rfl

/-- A quoted path is compared as a property exactly if it resolves to one that reads every text
alike. -/
theorem compares_iff {path : String} {r : Resolved} (hroot : config.rootEntity = .ok root)
    (hst : Setting.Resolves (config.setting root)) :
    Compares config path r ↔
      ∃ r', config.schema.resolve? root ⟨path⟩ = some r' ∧
        ∀ value, converted r' value = converted r value := by
  constructor
  · intro h
    have hfields := Command.onFields_of_outcome hroot hst (h FilterTree FilterTree.factory "")
    obtain ⟨r', hr, -⟩ := hfields.compare ⟨path⟩ .equal (converted r "")
      (List.mem_singleton_self _)
    refine ⟨r', hr, fun value => ?_⟩
    have he := (compares_of_resolve hroot hr FilterTree FilterTree.factory value).symm.trans
      (h FilterTree FilterTree.factory value)
    simpa [FilterTree.factory] using he
  · rintro ⟨r', hr, hsame⟩ C F value
    rw [compares_of_resolve hroot hr C F value, hsame]

/-- The listing has the paths of all chains of properties over references. A path whose names have
no points can be compared as the property at its end; a property with a point in its name is not
the one its path leads to. Any path leads where its names lead once they are cut at their points,
and it is compared as the property at its end exactly if the one it leads to reads every text
alike. -/
theorem listed_paths {source : String} (h : Config.read source = .ok config) :
    ∃ root, config.rootEntity = .ok root ∧ ∀ depth,
      (Command.fields config depth true).output =
          .ok (Json.array ((config.schema.fieldPaths depth root).map .string)).pretty ∧
        (∀ path, path ∈ config.schema.fieldPaths depth root ↔
          ∃ names r, Schema.Lists config.schema depth root names r ∧
            path = ".".intercalate names) ∧
        ∀ names r, Schema.Lists config.schema depth root names r →
          ((∀ name ∈ names, '.' ∉ name.toList) → Compares config (".".intercalate names) r) ∧
          ('.' ∈ r.property.name.toList →
            config.schema.resolve? root ⟨".".intercalate names⟩ ≠ some r) ∧
          (∀ r', config.schema.resolve? root ⟨".".intercalate names⟩ = some r' ↔
            ∃ depth, Schema.Lists config.schema depth root
              (names.flatMap fun name => (FieldPath.mk name).segments) r') ∧
          (Compares config (".".intercalate names) r ↔
            ∃ r', config.schema.resolve? root ⟨".".intercalate names⟩ = some r' ∧
              ∀ value, converted r' value = converted r value) := by
  have hv := Config.validate_of_read h
  obtain ⟨root, hroot, hfields⟩ := Config.root_of_validate hv
  have hschema := Config.schema_of_validate hv
  have hmem := Config.root_mem hroot
  refine ⟨root, hroot, fun depth => ⟨?_, fun path => Schema.mem_fieldPaths_iff, ?_⟩⟩
  · rw [Command.fields, hroot]
    rfl
  · intro names r hl
    refine ⟨?_, ?_, ?_, compares_iff hroot (Config.resolves_setting hfields)⟩
    · intro hd
      exact compares_of_resolve hroot (Schema.resolve?_of_lists hschema hl hmem hd)
    · intro hp hr
      exact Schema.not_mem_name_of_resolve hr hp
    · intro r'
      rw [Schema.resolve?, FieldPath.segments_intercalate_flatMap hl.ne_nil]
      exact Schema.resolveSegments?_eq_some_iff hschema hmem

/-- A configuration, with arrays in place of records, in which a path leads over a reference and
another property has a point in its name. -/
def samplePointed : String :=
  "[[[[\"u\", [[\"a\", \"string\", \"v\"], [\"c.d\"]]], [\"v\", [[\"b\", \"int\"]]]]], \"u\"]"

def samplePointedRoot : Entity := ⟨"u", [⟨"a", .string, some "v"⟩, ⟨"c.d", .string, none⟩]⟩

/-- The property that `a.b` leads to. -/
def samplePointedLast : Resolved := ⟨⟨"v", [⟨"b", .int, none⟩]⟩, ⟨"b", .int, none⟩⟩

def samplePointedConfig : Config :=
  ⟨⟨[samplePointedRoot, samplePointedLast.entity]⟩, "u", [], .empty⟩

theorem read_samplePointed : Config.read samplePointed = .ok samplePointedConfig := by cbv

theorem lists_samplePointed :
    Schema.Lists samplePointedConfig.schema 1 samplePointedRoot ["a", "b"] samplePointedLast ∧
      Schema.Lists samplePointedConfig.schema 1 samplePointedRoot ["c.d"]
        ⟨samplePointedRoot, ⟨"c.d", .string, none⟩⟩ := by
  have ha : samplePointedConfig.schema.target? ⟨"a", .string, some "v"⟩ =
      some samplePointedLast.entity := by decide
  exact ⟨.through (p := ⟨"a", .string, some "v"⟩) (by decide) ha
      (.here (p := samplePointedLast.property) (by decide)),
    .here (p := ⟨"c.d", .string, none⟩) (by decide)⟩

/-- A path that is listed need not be one that can be compared. -/
theorem not_compares_listed :
    Config.read samplePointed = .ok samplePointedConfig ∧
      (Command.fields samplePointedConfig 0 true).output =
        .ok "[\n  \"a\",\n  \"c.d\"\n]" ∧
      ¬Compares samplePointedConfig "c.d" ⟨samplePointedRoot, ⟨"c.d", .string, none⟩⟩ := by
  refine ⟨read_samplePointed, by cbv, ?_⟩
  intro h
  have hnone : (Command.compileWith FilterTree.factory samplePointedConfig
      (String.ofList (quotedComparison "c.d" "7"))).2 = .ok none := by cbv
  cases hnone.symm.trans (h _ FilterTree.factory "7")

/-- A configuration in which the names of one path, with a point in the first, are cut to those of
another. -/
def sampleShortcut : String :=
  "[[[[\"u\", [[\"a\", \"string\", \"v\"], [\"a.b\", \"string\", \"w\"]]], " ++
    "[\"v\", [[\"b\", \"string\", \"w\"]]], [\"w\", [[\"x\", \"int\"]]]]], \"u\"]"

def sampleShortcutRoot : Entity := ⟨"u", [⟨"a", .string, some "v"⟩, ⟨"a.b", .string, some "w"⟩]⟩

def sampleShortcutVia : Entity := ⟨"v", [⟨"b", .string, some "w"⟩]⟩

/-- The property that `a.b.x` leads to, along either path. -/
def sampleShortcutLast : Resolved := ⟨⟨"w", [⟨"x", .int, none⟩]⟩, ⟨"x", .int, none⟩⟩

def sampleShortcutConfig : Config :=
  ⟨⟨[sampleShortcutRoot, sampleShortcutVia, sampleShortcutLast.entity]⟩, "u", [], .empty⟩

theorem read_sampleShortcut : Config.read sampleShortcut = .ok sampleShortcutConfig := by cbv

/-- The property is listed both with the point in a name and with it between two names. -/
theorem lists_sampleShortcut :
    Schema.Lists sampleShortcutConfig.schema 1 sampleShortcutRoot ["a.b", "x"]
        sampleShortcutLast ∧
      Schema.Lists sampleShortcutConfig.schema 2 sampleShortcutRoot ["a", "b", "x"]
        sampleShortcutLast := by
  have ha : sampleShortcutConfig.schema.target? ⟨"a", .string, some "v"⟩ =
      some sampleShortcutVia := by decide
  have hb : sampleShortcutConfig.schema.target? ⟨"b", .string, some "w"⟩ =
      some sampleShortcutLast.entity := by decide
  have hab : sampleShortcutConfig.schema.target? ⟨"a.b", .string, some "w"⟩ =
      some sampleShortcutLast.entity := by decide
  have hx (depth : Nat) : Schema.Lists sampleShortcutConfig.schema depth
      sampleShortcutLast.entity ["x"] sampleShortcutLast :=
    .here (p := sampleShortcutLast.property) (by decide)
  exact ⟨.through (p := ⟨"a.b", .string, some "w"⟩) (by decide) hab (hx 0),
    .through (p := ⟨"a", .string, some "v"⟩) (by decide) ha
      (.through (p := ⟨"b", .string, some "w"⟩) (by decide) hb (hx 0))⟩

theorem listed_samplePointed :
    (Config.read samplePointed = .ok samplePointedConfig ∧
      samplePointedConfig.rootEntity = .ok samplePointedRoot ∧
      ".".intercalate ["a", "b"] ∈ samplePointedConfig.schema.fieldPaths 1 samplePointedRoot ∧
      Compares samplePointedConfig (".".intercalate ["a", "b"]) samplePointedLast ∧
      (Command.compileWith FilterTree.factory samplePointedConfig "\"a.b\":\" 7\"").2 =
        .ok (some (.compare ⟨"a.b"⟩ .equal (.int 7))) ∧
      samplePointedConfig.schema.resolve? samplePointedRoot ⟨"c.d"⟩ ≠
        some ⟨samplePointedRoot, ⟨"c.d", .string, none⟩⟩) ∧
    Config.read sampleShortcut = .ok sampleShortcutConfig ∧
      Schema.Lists sampleShortcutConfig.schema 1 sampleShortcutRoot ["a.b", "x"]
        sampleShortcutLast ∧
      sampleShortcutConfig.schema.resolve? sampleShortcutRoot ⟨".".intercalate ["a.b", "x"]⟩ =
        some sampleShortcutLast ∧
      Compares sampleShortcutConfig (".".intercalate ["a.b", "x"]) sampleShortcutLast := by
  refine ⟨?_, read_sampleShortcut, ?_⟩
  · obtain ⟨root, hroot, hlist⟩ := listed_paths read_samplePointed
    obtain rfl : root = samplePointedRoot := by
      cases hroot
      rfl
    obtain ⟨-, hmem, hpaths⟩ := hlist 1
    obtain ⟨hb, hd⟩ := lists_samplePointed
    have hcompares := (hpaths _ _ hb).1 (by decide)
    have htree := hcompares _ FilterTree.factory " 7"
    have hvalue : converted samplePointedLast " 7" = .int 7 := by decide
    rw [hvalue] at htree
    exact ⟨read_samplePointed, hroot, (hmem _).mpr ⟨_, _, hb, rfl⟩, hcompares, htree,
      (hpaths _ _ hd).2.1 (by decide)⟩
  · obtain ⟨root, hroot, hlist⟩ := listed_paths read_sampleShortcut
    obtain rfl : root = sampleShortcutRoot := by
      cases hroot
      rfl
    obtain ⟨hx, hcut⟩ := lists_sampleShortcut
    obtain ⟨-, -, hleads, hcompares⟩ := (hlist 1).2.2 _ _ hx
    have hnames : ["a.b", "x"].flatMap (fun name => (FieldPath.mk name).segments) =
        ["a", "b", "x"] := by decide
    have hresolve := (hleads sampleShortcutLast).mpr ⟨2, hnames ▸ hcut⟩
    exact ⟨hx, hresolve, hcompares.mpr ⟨_, hresolve, fun _ => rfl⟩⟩

end FilterQuery
