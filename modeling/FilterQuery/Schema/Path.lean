import FilterQuery.Schema.Basic
import FilterQuery.Text.Blank

/-!
Paths of fields: names joined by points, of which all but the last lead from one entity to
another. Over a schema a path resolves to a property, and the paths that lead from an entity can be
listed.
-/
namespace FilterQuery

structure FieldPath where
  text : String
  deriving DecidableEq

namespace FieldPath

/-- The names between the points. There is always at least one, and any may be empty. -/
def segments (p : FieldPath) : List String := (p.text.toList.splitOn '.').map String.ofList

/-- The last name. -/
def leaf (p : FieldPath) : String := p.segments.getLastD ""

/-- The names before the last one. -/
def parents (p : FieldPath) : List String := p.segments.dropLast

def isNested (p : FieldPath) : Bool := p.text.toList.contains '.'

end FieldPath

/-- A property together with the entity that declares it. -/
structure Resolved where
  entity : Entity
  property : Property
  deriving DecidableEq

namespace Schema

/-- Follows names from an entity. All but the last have to be references to entities that
exist. -/
def resolveSegments? (s : Schema) : Entity → List String → Option Resolved
  | _, [] => none
  | e, [name] => (e.property? name).map (Resolved.mk e)
  | e, name :: names =>
    (e.property? name).bind fun p => (s.target? p).bind fun next => s.resolveSegments? next names

def resolve? (s : Schema) (e : Entity) (path : FieldPath) : Option Resolved :=
  s.resolveSegments? e path.segments

/-- The paths of an entity's properties, each followed by the paths below it as far as
`depth` references reach. -/
def fieldPaths (s : Schema) : Nat → Entity → List String
  | 0, e => e.properties.map (·.name)
  | depth + 1, e =>
    e.properties.flatMap fun p =>
      p.name ::
        match s.target? p with
        | none => []
        | some next => (s.fieldPaths depth next).map fun path => p.name ++ "." ++ path

end Schema
end FilterQuery
