import FilterQuery.Query.Note
import FilterQuery.Query.SearchField
import FilterQuery.Query.TagRegistry
import FilterQuery.Schema.Json
import FilterQuery.Schema.Path

/-!
Filter configurations: a schema, the entity that queries start from, the fields that search
words look into, and a field for each type of tag.
-/
namespace FilterQuery

structure Config where
  schema : Schema
  root : String
  searchFields : List SearchField
  tags : SortedMap FieldPath

/-- What a configured field is for. -/
inductive FieldUse where
  | defaultSearch | tag
  deriving DecidableEq, Repr

def FieldUse.name : FieldUse → String
  | .defaultSearch => "default search"
  | .tag => "a tag"

inductive ConfigError where
  /-- The text is not JSON, or JSON of another form. -/
  | malformed
  | schema (error : SchemaError)
  | unknownField (field : String) (use : FieldUse) (entity : String)
  deriving DecidableEq

namespace ConfigError

def message : ConfigError → String
  | .malformed => "Failed to deserialize the configuration file"
  | .schema e => "Invalid schema: " ++ e.message
  | .unknownField field use entity =>
    "Field '" ++ field ++ "' configured for " ++ use.name ++ " does not resolve on entity '" ++
      entity ++ "'"

def label : ConfigError → String
  | .malformed => "ConfigDeserialize"
  | .schema e => Text.labelled "Schema" [e.label]
  | .unknownField field use entity =>
    Text.labelledParts "UnknownField"
      [("field", Text.quoted field), ("usage", Text.quoted use.name),
       ("entity", Text.quoted entity)]

end ConfigError

namespace Config

def tagFieldOfJson? (j : Json) : Option FieldPath :=
  match j.record? ["field"] with
  | some [some field] => field.string?.map FieldPath.mk
  | _ => none

/-- Of a tag type that repeats, the last field counts. -/
def tagsOfJson? (j : Json) : Option (SortedMap FieldPath) := do
  let fields ← j.fields?
  let entries ← fields.mapM fun f => (tagFieldOfJson? f.2).map fun field => (f.1.text, field)
  return .ofList entries

/-- Search fields and tags may be left out. -/
def ofJson? (j : Json) : Option Config :=
  match j.record? ["schema", "root", "search_fields", "tags"] with
  | some [some schema, some root, searchFields, tags] => do
    let schema ← Schema.ofJson? schema
    let root ← root.string?
    let searchFields ← Json.orDefault [] (·.list? SearchField.ofJson?) searchFields
    let tags ← Json.orDefault .empty tagsOfJson? tags
    return ⟨schema, root, searchFields, tags⟩
  | _ => none

/-- Every configured field with its use: search fields in their order, then tags by type. -/
def configuredFields (c : Config) : List (FieldPath × FieldUse) :=
  c.searchFields.map (fun f => (f.field, .defaultSearch)) ++
    c.tags.values.map (fun field => (field, .tag))

def rootEntity (c : Config) : Except ConfigError Entity :=
  (c.schema.requireEntity c.root).mapError .schema

/-- The first configured field that does not resolve. -/
def unresolvedField? (c : Config) (root : Entity) : Option ConfigError :=
  (c.configuredFields.find? fun f => (c.schema.resolve? root f.1).isNone).map fun f =>
    .unknownField f.1.text f.2 c.root

/-- Checks the schema, then the root, then the configured fields. -/
def validate (c : Config) : Except ConfigError Unit := do
  c.schema.validate.mapError .schema
  let root ← c.rootEntity
  match c.unresolvedField? root with
  | none => return
  | some e => throw e

/-- Reads a configuration from its text and checks it. -/
def read (source : String) : Except ConfigError Config :=
  match (Json.read? source).bind ofJson? with
  | none => .error .malformed
  | some c => c.validate.map fun _ => c

/-- The registry of the configured tags. -/
def tagRegistry (c : Config) : TagRegistry := .ofList c.tags.entries

end Config
end FilterQuery
