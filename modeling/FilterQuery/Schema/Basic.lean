import FilterQuery.Value.DataType

/-!
Schemas: entities with typed properties, some of which refer to other entities. Look-ups
by name take the first match.
-/
namespace FilterQuery

structure Property where
  name : String
  /-- The type of the property's values; for a reference, of the key it stores. -/
  type : DataType
  /-- The entity the property refers to. -/
  references : Option String
  deriving DecidableEq

structure Entity where
  name : String
  properties : List Property
  deriving DecidableEq

structure Schema where
  entities : List Entity
  deriving DecidableEq

def Entity.property? (e : Entity) (name : String) : Option Property :=
  e.properties.find? (·.name = name)

namespace Schema

def entity? (s : Schema) (name : String) : Option Entity := s.entities.find? (·.name = name)

/-- The entity a property refers to, if it refers to one that exists. -/
def target? (s : Schema) (p : Property) : Option Entity := p.references.bind s.entity?

end Schema
end FilterQuery
