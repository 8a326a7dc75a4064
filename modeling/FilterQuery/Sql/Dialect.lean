import FilterQuery.Number.Digits

/-!
What differs between database systems in the text of a condition.
-/
namespace FilterQuery.Sql

inductive Dialect where
  | postgres | mysql
  deriving DecidableEq, Repr

namespace Dialect

def name : Dialect → String
  | .postgres => "PostgreSQL"
  | .mysql => "MySQL"

/-- The mark around identifiers: a double quote or a grave accent. -/
def quoteMark : Dialect → Char
  | .postgres => '"'
  | .mysql => Char.ofNat 0x60

/-- An identifier between marks. A mark inside it is doubled. -/
def quote (d : Dialect) (ident : String) : List Char :=
  d.quoteMark :: ident.toList.flatMap (fun c => if c = d.quoteMark then [c, c] else [c]) ++
    [d.quoteMark]

/-- The text in place of the parameter with this index, counted from 0. -/
def placeholder : Dialect → Nat → List Char
  | .postgres, index => '$' :: Digits.write (index + 1)
  | .mysql, _ => ['?']

/-- The operator that matches patterns without regard to letter case. -/
def likeOperator : Dialect → String
  | .postgres => "ILIKE"
  | .mysql => "LIKE"

end Dialect
end FilterQuery.Sql
