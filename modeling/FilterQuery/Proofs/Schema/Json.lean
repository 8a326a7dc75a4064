import FilterQuery.Proofs.Value.Json
import FilterQuery.Schema.Json

/-!
Schemas are read back from their text. The writer has one form for each schema and the reader
takes it, so a schema that was read in any form is read again as the same schema.
-/
namespace FilterQuery

namespace Property

theorem toJson_isPlain (p : Property) : p.toJson.IsPlain := by
  obtain ⟨name, type, references⟩ := p
  cases references with
  | none => exact ⟨⟨by decide, trivial⟩, ⟨by decide, type.toJson_isPlain⟩, trivial⟩
  | some target =>
    exact ⟨⟨by decide, trivial⟩, ⟨by decide, type.toJson_isPlain⟩, ⟨by decide, trivial⟩, trivial⟩

theorem record?_toJson (p : Property) : p.toJson.record? ["name", "type", "references"] =
    some [some (.string p.name), some p.type.toJson, p.references.map .string] := by
  obtain ⟨name, type, references⟩ := p
  cases references <;> rfl

theorem ofJson?_toJson (p : Property) : ofJson? p.toJson = some p := by
  have hreferences :
      Json.orDefault none referenceOfJson? (p.references.map .string) = some p.references := by
    cases p.references <;> rfl
  have htype : Json.orDefault .string DataType.ofJson? (some p.type.toJson) = some p.type :=
    p.type.ofJson?_toJson
  rw [ofJson?, record?_toJson]
  simp only [Json.string?, htype, hreferences, Option.bind_eq_bind, Option.bind_some]
  rfl

end Property

namespace Entity

theorem toJson_isPlain (e : Entity) : e.toJson.IsPlain :=
  ⟨⟨by decide, trivial⟩, ⟨by decide, Json.plainItems_map fun p _ => p.toJson_isPlain⟩, trivial⟩

theorem record?_toJson (e : Entity) : e.toJson.record? ["name", "properties"] =
    some [some (.string e.name), some (.array (e.properties.map Property.toJson))] := rfl

theorem ofJson?_toJson (e : Entity) : ofJson? e.toJson = some e := by
  have hproperties : Json.list? Property.ofJson? (.array (e.properties.map Property.toJson)) =
      some e.properties := Json.list?_map fun p _ => p.ofJson?_toJson
  rw [ofJson?, record?_toJson]
  simp [Json.string?, Json.orDefault, hproperties]

end Entity

namespace Schema

theorem toJson_isPlain (s : Schema) : s.toJson.IsPlain :=
  ⟨⟨by decide, Json.plainItems_map fun e _ => e.toJson_isPlain⟩, trivial⟩

theorem ofJson?_toJson (s : Schema) : ofJson? s.toJson = some s := by
  have hentities : Json.list? Entity.ofJson? (.array (s.entities.map Entity.toJson)) =
      some s.entities := Json.list?_map fun e _ => e.ofJson?_toJson
  have hrecord : s.toJson.record? ["entities"] =
      some [some (.array (s.entities.map Entity.toJson))] := rfl
  rw [ofJson?, hrecord]
  simp only [hentities, Option.map_some]

variable {s : Schema} {text : String}

theorem readUnchecked?_of_read? (h : Json.read? text = some s.toJson) :
    readUnchecked? text = some s := by
  rw [readUnchecked?, h, Option.bind_some, ofJson?_toJson]

/-- A text of a schema is accepted if the schema is. -/
theorem read_eq_ok_iff (h : readUnchecked? text = some s) :
    read text = .ok s ↔ s.validate = .ok () := by
  simp only [read, h]
  cases s.validate <;> simp [Except.map]

/-- What is accepted is well formed. -/
theorem validate_of_read (h : read text = .ok s) : s.validate = .ok () := by
  cases hread : readUnchecked? text with
  | none =>
    rw [read, hread] at h
    cases h
  | some s' =>
    have hs : s' = s := by
      rw [read, hread] at h
      cases hvalidate : s'.validate with
      | error e =>
        simp only [hvalidate] at h
        cases h
      | ok u =>
        simp only [hvalidate] at h
        exact Except.ok.inj h
    subst hs
    exact (read_eq_ok_iff hread).mp h

theorem readUnchecked?_write (s : Schema) : readUnchecked? s.write = some s :=
  readUnchecked?_of_read? (Json.read?_compact s.toJson_isPlain)

theorem readUnchecked?_pretty (s : Schema) : readUnchecked? s.toJson.pretty = some s :=
  readUnchecked?_of_read? (Json.read?_pretty s.toJson_isPlain)

/-- A schema is accepted from both of its texts if it is well formed. What was accepted from a
source of any form is accepted from its own text as the same schema, and that text is kept. -/
theorem read_write :
    (∀ s : Schema, (read s.write = .ok s ↔ s.validate = .ok ()) ∧
      (read s.toJson.pretty = .ok s ↔ s.validate = .ok ())) ∧
    ∀ source s, read source = .ok s →
      read s.write = .ok s ∧ (read s.write).map write = .ok s.write := by
  have hwrite (s : Schema) : read s.write = .ok s ↔ s.validate = .ok () :=
    read_eq_ok_iff s.readUnchecked?_write
  refine ⟨fun s => ⟨hwrite s, read_eq_ok_iff s.readUnchecked?_pretty⟩, ?_⟩
  intro source s h
  have hread : read s.write = .ok s := (hwrite s).mpr (validate_of_read h)
  rw [hread]
  exact ⟨rfl, rfl⟩

/-- A source in which fields are left out, unknown or in another order, records are arrays, and
a type carries `null`. -/
def sampleLoose : String :=
  "\x7b\"x\":7,\"entities\":[[\"u\",[[\"a\"],[\"c\",\x7b\"enum\":[\"\\n\"]\x7d]," ++
    "\x7b\"references\":\"v\",\"type\":\x7b\"int\":null\x7d,\"name\":\"b\"\x7d]],\x7b\"name\":\"v\"\x7d]\x7d"

def sampleTeams : Schema :=
  ⟨[⟨"u", [⟨"a", .string, none⟩, ⟨"c", .enumeration ["\n"], none⟩, ⟨"b", .int, some "v"⟩]⟩,
    ⟨"v", []⟩]⟩

set_option maxRecDepth 10000 in
theorem read_write_sampleTeams :
    read sampleLoose = .ok sampleTeams ∧ sampleTeams.validate = .ok () ∧
      read sampleTeams.write = .ok sampleTeams ∧
      read sampleTeams.toJson.pretty = .ok sampleTeams ∧
      (read sampleTeams.write).map write = .ok sampleTeams.write := by
  have hread : read sampleLoose = .ok sampleTeams := by cbv
  have hvalid : sampleTeams.validate = .ok () := by cbv
  have hagain := read_write.2 _ _ hread
  exact ⟨hread, hvalid, hagain.1, (read_write.1 _).2.mpr hvalid, hagain.2⟩

end Schema

end FilterQuery
