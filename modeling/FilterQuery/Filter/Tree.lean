import FilterQuery.Query.Factory

/-!
Filter trees: constraints that belong to no backend. Every other factory's constraint can be
built from one by `fold`.
-/
namespace FilterQuery

inductive FilterTree where
  | all (children : List FilterTree)
  | any (children : List FilterTree)
  | negate (child : FilterTree)
  | compare (field : FieldPath) (op : Operator) (value : Value)
  | search (field : FieldPath) (mode : SearchMode) (word : String)

namespace FilterTree

/-- The factory whose constraints are the trees themselves. -/
def factory : Factory FilterTree where
  all := .all
  any := .any
  negate := .negate
  eq := fun field => .compare field .equal
  ne := fun field => .compare field .notEqual
  gt := fun field => .compare field .greaterThan
  ge := fun field => .compare field .greaterOrEqual
  lt := fun field => .compare field .lessThan
  le := fun field => .compare field .lessOrEqual
  search := .search

@[simp] theorem factory_compare (field : FieldPath) (op : Operator) (value : Value) :
    factory.compare field op value = .compare field op value := by
  cases op <;> rfl

mutual

/-- The constraint another factory builds for the same tree. -/
def fold (F : Factory C) : FilterTree → C
  | .all children => F.all (foldList F children)
  | .any children => F.any (foldList F children)
  | .negate child => F.negate (fold F child)
  | .compare field op value => F.compare field op value
  | .search field mode word => F.search field mode word

def foldList (F : Factory C) : List FilterTree → List C
  | [] => []
  | t :: ts => fold F t :: foldList F ts

end

theorem foldList_eq_map (F : Factory C) (ts : List FilterTree) :
    foldList F ts = ts.map (fold F) := by
  induction ts with
  | nil => rfl
  | cons t ts ih => simp [foldList, ih]

mutual

/-- The number of comparisons and search words. -/
def leafCount : FilterTree → Nat
  | .all children => leafCountList children
  | .any children => leafCountList children
  | .negate child => leafCount child
  | .compare _ _ _ => 1
  | .search _ _ _ => 1

def leafCountList : List FilterTree → Nat
  | [] => 0
  | t :: ts => leafCount t + leafCountList ts

end

end FilterTree
end FilterQuery
