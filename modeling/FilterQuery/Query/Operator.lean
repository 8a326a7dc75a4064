/-!
Comparison operators and their spellings in a query.
-/
namespace FilterQuery

inductive Operator where
  | equal | notEqual | greaterThan | greaterOrEqual | lessThan | lessOrEqual
  deriving DecidableEq, Repr

namespace Operator

/-- The operator that starts with `c`, given the character after it, and how many characters
it takes. -/
def matchAt (c : Char) (next : Option Char) : Option (Operator × Nat) :=
  match c, next with
  | '!', some '=' => some (.notEqual, 2)
  | '<', some '>' => some (.notEqual, 2)
  | '<', some '=' => some (.lessOrEqual, 2)
  | '>', some '=' => some (.greaterOrEqual, 2)
  | '=', _ => some (.equal, 1)
  | ':', _ => some (.equal, 1)
  | '>', _ => some (.greaterThan, 1)
  | '<', _ => some (.lessThan, 1)
  | _, _ => none

/-- The operator at the front of a text. -/
def at? : List Char → Option (Operator × Nat)
  | [] => none
  | c :: cs => matchAt c cs.head?

def symbol : Operator → String
  | .equal => "="
  | .notEqual => "<>"
  | .greaterThan => ">"
  | .greaterOrEqual => ">="
  | .lessThan => "<"
  | .lessOrEqual => "<="

def name : Operator → String
  | .equal => "equal"
  | .notEqual => "not_equal"
  | .greaterThan => "greater_than"
  | .greaterOrEqual => "greater_or_equal"
  | .lessThan => "less_than"
  | .lessOrEqual => "less_or_equal"

def ofName? : String → Option Operator
  | "equal" => some .equal
  | "not_equal" => some .notEqual
  | "greater_than" => some .greaterThan
  | "greater_or_equal" => some .greaterOrEqual
  | "less_than" => some .lessThan
  | "less_or_equal" => some .lessOrEqual
  | _ => none

theorem ofName?_name (op : Operator) : ofName? op.name = some op := by
  cases op <;> rfl

end Operator
end FilterQuery
