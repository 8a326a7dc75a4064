import FilterQuery.Schema.Basic
import FilterQuery.Text.Quoted

/-!
Well-formed schemas. Entity names differ, property names differ within an entity, every
enumeration has a constant, and every reference names an entity. The check reports the first
defect: of a repeated entity name first, then property by property.
-/
namespace FilterQuery

inductive SchemaError where
  /-- The text is not JSON, or JSON of another form. -/
  | malformed
  | duplicateEntity (name : String)
  | duplicateProperty (entity property : String)
  | unknownReference (entity property target : String)
  | unknownEntity (name : String)
  | emptyEnumeration (entity property : String)
  deriving DecidableEq

namespace SchemaError

def message : SchemaError → String
  | .malformed => "Failed to parse schema definition"
  | .duplicateEntity name => "Duplicate entity '" ++ name ++ "'"
  | .duplicateProperty entity property =>
    "Duplicate property '" ++ property ++ "' in entity '" ++ entity ++ "'"
  | .unknownReference entity property target =>
    "Property '" ++ entity ++ "." ++ property ++ "' references unknown entity '" ++ target ++ "'"
  | .unknownEntity name => "Unknown entity: " ++ name
  | .emptyEnumeration entity property =>
    "Enum property '" ++ entity ++ "." ++ property ++ "' declares no constants"

def label : SchemaError → String
  | .malformed => "Parse"
  | .duplicateEntity name => Text.labelled "DuplicateEntity" [Text.quoted name]
  | .duplicateProperty entity property =>
    Text.labelledParts "DuplicateProperty"
      [("entity", Text.quoted entity), ("property", Text.quoted property)]
  | .unknownReference entity property target =>
    Text.labelledParts "UnknownReference"
      [("entity", Text.quoted entity), ("property", Text.quoted property),
       ("target", Text.quoted target)]
  | .unknownEntity name => Text.labelled "UnknownEntity" [Text.quoted name]
  | .emptyEnumeration entity property =>
    Text.labelledParts "EmptyEnum"
      [("entity", Text.quoted entity), ("property", Text.quoted property)]

end SchemaError

namespace Schema

/-- The first name that is in `seen` or stands earlier in the list. -/
def firstRepeated? (seen : List String) : List String → Option String
  | [] => none
  | name :: names => if name ∈ seen then some name else firstRepeated? (name :: seen) names

/-- The defect of one property, where `seen` holds the names before it in its entity. -/
def propertyDefect? (s : Schema) (entity : String) (seen : List String) (p : Property) :
    Option SchemaError :=
  if p.name ∈ seen then some (.duplicateProperty entity p.name)
  else if p.type = .enumeration [] then some (.emptyEnumeration entity p.name)
  else
    match p.references with
    | none => none
    | some target =>
      if target ∈ s.entities.map (·.name) then none
      else some (.unknownReference entity p.name target)

def firstDefect? (s : Schema) (entity : String) (seen : List String) :
    List Property → Option SchemaError
  | [] => none
  | p :: ps => (s.propertyDefect? entity seen p).or (s.firstDefect? entity (p.name :: seen) ps)

def defect? (s : Schema) : Option SchemaError :=
  ((firstRepeated? [] (s.entities.map (·.name))).map SchemaError.duplicateEntity).or
    (s.entities.findSome? fun e => s.firstDefect? e.name [] e.properties)

def validate (s : Schema) : Except SchemaError Unit :=
  match s.defect? with
  | none => .ok ()
  | some e => .error e

/-- Looks up an entity that has to exist. -/
def requireEntity (s : Schema) (name : String) : Except SchemaError Entity :=
  match s.entity? name with
  | some e => .ok e
  | none => .error (.unknownEntity name)

end Schema
end FilterQuery
