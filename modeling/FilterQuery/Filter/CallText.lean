import FilterQuery.Filter.Tree
import FilterQuery.Text.Quoted

/-!
Constraints as lines of text in which junctions and negations are written like calls: the calls
that build a constraint, for listings of what a compilation does, and filter trees, which show
their comparisons with the sign of the operator.
-/
namespace FilterQuery

namespace CallText

def comparison (name : String) (field : FieldPath) (value : Value) : String :=
  Text.labelled name [field.text, value.display]

/-- The factory whose constraints are the calls that build them. -/
def factory : Factory String where
  all := Text.labelled "and"
  any := Text.labelled "or"
  negate := fun c => Text.labelled "not" [c]
  eq := comparison "eq"
  ne := comparison "ne"
  gt := comparison "gt"
  ge := comparison "gte"
  lt := comparison "lt"
  le := comparison "lte"
  search := fun field mode word => Text.labelled "search" [field.text, mode.name, word]

end CallText

namespace FilterTree

mutual

/-- The tree as one line of text. -/
def display : FilterTree → String
  | .all children => Text.labelled "AND" (displayList children)
  | .any children => Text.labelled "OR" (displayList children)
  | .negate child => Text.labelled "NOT" [display child]
  | .compare field op value => field.text ++ " " ++ op.symbol ++ " " ++ value.display
  | .search field mode word => field.text ++ " " ++ mode.name ++ " " ++ apostrophed word

def displayList : List FilterTree → List String
  | [] => []
  | t :: ts => display t :: displayList ts

end

end FilterTree
end FilterQuery
