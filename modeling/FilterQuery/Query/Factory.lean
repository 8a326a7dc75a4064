import FilterQuery.Query.Operator
import FilterQuery.Query.SearchField
import FilterQuery.Value.Basic

/-!
Factories: what a backend provides to have queries compiled into its constraints. The
compiler puts constraints together and never looks inside one.
-/
namespace FilterQuery

structure Factory (C : Type) where
  /-- All of several constraints. -/
  all : List C → C
  /-- At least one of several constraints. -/
  any : List C → C
  negate : C → C
  /-- Equality. With null, the field has no value. -/
  eq : FieldPath → Value → C
  ne : FieldPath → Value → C
  gt : FieldPath → Value → C
  ge : FieldPath → Value → C
  lt : FieldPath → Value → C
  le : FieldPath → Value → C
  /-- Comparison of a field with a search word. -/
  search : FieldPath → SearchMode → String → C

/-- The comparison an operator asks for. -/
def Factory.compare (F : Factory C) (field : FieldPath) (op : Operator) (value : Value) : C :=
  match op with
  | .equal => F.eq field value
  | .notEqual => F.ne field value
  | .greaterThan => F.gt field value
  | .greaterOrEqual => F.ge field value
  | .lessThan => F.lt field value
  | .lessOrEqual => F.le field value

end FilterQuery
