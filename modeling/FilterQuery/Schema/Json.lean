import FilterQuery.Json.Printer
import FilterQuery.Json.Reader
import FilterQuery.Schema.Validation
import FilterQuery.Value.Json

/-!
The JSON form of schemas. Types default to text and property lists to none when read; types
are always written, and references only where there is one.
-/
namespace FilterQuery

namespace Property

def toJson (p : Property) : Json :=
  let references : List (FieldName × Json) :=
    match p.references with
    | none => []
    | some target => [("references", .string target)]
  .object (("name", .string p.name) :: ("type", p.type.toJson) :: references)

/-- A reference, or `null` for none. -/
def referenceOfJson? : Json → Option (Option String)
  | .null => some none
  | j => j.string?.map some

def ofJson? (j : Json) : Option Property :=
  match j.record? ["name", "type", "references"] with
  | some [some name, type, references] => do
    let name ← name.string?
    let type ← Json.orDefault .string DataType.ofJson? type
    let references ← Json.orDefault none referenceOfJson? references
    return ⟨name, type, references⟩
  | _ => none

end Property

namespace Entity

def toJson (e : Entity) : Json :=
  .object [("name", .string e.name), ("properties", .array (e.properties.map Property.toJson))]

def ofJson? (j : Json) : Option Entity :=
  match j.record? ["name", "properties"] with
  | some [some name, properties] => do
    let name ← name.string?
    let properties ← Json.orDefault [] (·.list? Property.ofJson?) properties
    return ⟨name, properties⟩
  | _ => none

end Entity

namespace Schema

def toJson (s : Schema) : Json :=
  .object [("entities", .array (s.entities.map Entity.toJson))]

def ofJson? (j : Json) : Option Schema :=
  match j.record? ["entities"] with
  | some [some entities] => (entities.list? Entity.ofJson?).map Schema.mk
  | _ => none

/-- Reads a schema from its text without checking that it is well formed. -/
def readUnchecked? (source : String) : Option Schema := (Json.read? source).bind ofJson?

/-- Reads a schema from its text and checks it. -/
def read (source : String) : Except SchemaError Schema :=
  match readUnchecked? source with
  | none => .error .malformed
  | some s => s.validate.map fun _ => s

/-- The text of a schema. -/
def write (s : Schema) : String := s.toJson.compact

end Schema
end FilterQuery
