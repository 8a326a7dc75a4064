import FilterQuery.Json.Shape
import FilterQuery.Schema.Path

/-!
Fields that are searched by the words of a query which compare no field.
-/
namespace FilterQuery

/-- How a field is compared with a word. -/
inductive SearchMode where
  | equal
  /-- The field starts with the word. -/
  | beginning
  /-- The word is a pattern in which an asterisk stands for any run of characters. -/
  | like
  /-- The word occurs in the field. -/
  | contains
  deriving DecidableEq, Repr

namespace SearchMode

def name : SearchMode → String
  | .equal => "equal"
  | .beginning => "prefix"
  | .like => "like"
  | .contains => "contains"

def ofName? : String → Option SearchMode
  | "equal" => some .equal
  | "prefix" => some .beginning
  | "like" => some .like
  | "contains" => some .contains
  | _ => none

theorem ofName?_name (m : SearchMode) : ofName? m.name = some m := by
  cases m <;> rfl

end SearchMode

structure SearchField where
  field : FieldPath
  mode : SearchMode
  deriving DecidableEq

namespace SearchField

/-- The mode defaults to `like`. -/
def ofJson? (j : Json) : Option SearchField :=
  match j.record? ["field", "mode"] with
  | some [some field, mode] => do
    let field ← field.string?
    let mode ← Json.orDefault .like (·.plainVariant?.bind SearchMode.ofName?) mode
    return ⟨⟨field⟩, mode⟩
  | _ => none

end SearchField
end FilterQuery
