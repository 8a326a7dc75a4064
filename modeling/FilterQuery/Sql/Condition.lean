import FilterQuery.Query.Factory

/-!
SQL conditions, the body of a WHERE clause, and the factory that builds them.
-/
namespace FilterQuery.Sql

/-- A column, with the alias of the table it belongs to unless that is the main one. -/
structure Column where
  qualifier : Option String
  name : String
  deriving DecidableEq

/-- The column of a field. The references on a nested path, joined by underscores, name the
table. -/
def Column.ofField (field : FieldPath) : Column :=
  if field.isNested then ⟨some ("_".intercalate field.parents), field.leaf⟩
  else ⟨none, field.text⟩

inductive Condition where
  | column (c : Column)
  /-- A value, which is always bound as a parameter. -/
  | value (v : Value)
  | comparison (left : Condition) (op : Operator) (right : Condition)
  /-- A pattern match without regard to letter case. -/
  | like (child pattern : Condition)
  | isNull (child : Condition) (negated : Bool)
  | all (children : List Condition)
  | any (children : List Condition)
  | negate (child : Condition)

namespace Condition

def ofField (field : FieldPath) : Condition := .column (.ofField field)

def compare (field : FieldPath) (op : Operator) (value : Value) : Condition :=
  .comparison (ofField field) op (.value value)

def matching (field : FieldPath) (pattern : List Char) : Condition :=
  .like (ofField field) (.value (.string (String.ofList pattern)))

/-- A comparison for equality. A null is not compared but tested for. -/
def equality (field : FieldPath) (negated : Bool) (value : Value) : Condition :=
  if value.isNull then .isNull (ofField field) negated
  else compare field (if negated then .notEqual else .equal) value

/-- A word as a pattern that only the word itself matches. -/
def literalPattern (word : List Char) : List Char :=
  word.flatMap fun c => if c = '%' ∨ c = '_' ∨ c = '\\' then ['\\', c] else [c]

/-- A word as a pattern in which asterisks stand for any run of characters. -/
def globPattern (word : List Char) : List Char :=
  (literalPattern word).map fun c => if c = '*' then '%' else c

def searching (field : FieldPath) (mode : SearchMode) (word : String) : Condition :=
  match mode with
  | .equal => compare field .equal (.string word)
  | .beginning => matching field (literalPattern word.toList ++ ['%'])
  | .like => matching field (globPattern word.toList)
  | .contains => matching field ('%' :: literalPattern word.toList ++ ['%'])

def factory : Factory Condition where
  all := .all
  any := .any
  negate := .negate
  eq := fun field => equality field false
  ne := fun field => equality field true
  gt := fun field => compare field .greaterThan
  ge := fun field => compare field .greaterOrEqual
  lt := fun field => compare field .lessThan
  le := fun field => compare field .lessOrEqual
  search := searching

end Condition
end FilterQuery.Sql
