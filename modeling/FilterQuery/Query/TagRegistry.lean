import FilterQuery.Schema.Path
import FilterQuery.SortedMap
import FilterQuery.Text.Lower

/-!
The tag types of a query language and what handles each: in a configuration, the field that a tag
compares. Letter case does not count in types, and a later registration replaces an earlier one.
-/
namespace FilterQuery

structure TagRegistry (Handler : Type := FieldPath) where
  /-- The handler of each type, by the lower-case form of the type. -/
  handlers : SortedMap Handler

namespace TagRegistry

variable {Handler : Type}

def empty : TagRegistry Handler := ⟨.empty⟩

def register (r : TagRegistry Handler) (type : String) (handler : Handler) : TagRegistry Handler :=
  ⟨r.handlers.insert (Text.lower type) handler⟩

/-- Registers in the order of the list. -/
def ofList (l : List (String × Handler)) : TagRegistry Handler :=
  l.foldl (fun r (type, handler) => r.register type handler) empty

def lookup (r : TagRegistry Handler) (type : String) : Option Handler :=
  r.handlers.get? (Text.lower type)

def hasTag (r : TagRegistry Handler) (type : String) : Bool :=
  r.handlers.contains (Text.lower type)

/-- The registered types, lower-cased and in order. -/
def types (r : TagRegistry Handler) : List String := r.handlers.names

def size (r : TagRegistry Handler) : Nat := r.handlers.size

def isEmpty (r : TagRegistry Handler) : Bool := r.size == 0

end TagRegistry
end FilterQuery
