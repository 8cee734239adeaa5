import DocQuery.Predicate.Basic

/-!
# Query operators

The operators are a closed set. A key is an operator only if it is exactly the name of one; any
other key, also one that starts with `$`, names a field.
-/

namespace DocQuery

inductive Operator where
  | all
  | eq
  | present
  | ordered (comparison : Comparison)
  | oneOf
  | ne
  | noneOf
  | any
deriving DecidableEq

namespace Operator

/-- The key that writes the operator in a query. -/
def name : Operator → String
  | .all => "$and"
  | .eq => "$eq"
  | .present => "$exists"
  | .ordered comparison => comparison.operator
  | .oneOf => "$in"
  | .ne => "$ne"
  | .noneOf => "$nin"
  | .any => "$or"

def list : List Operator :=
  [.all, .eq, .present, .ordered .gt, .ordered .gte, .oneOf, .ordered .lt, .ordered .lte, .ne,
    .noneOf, .any]

def ofName? (key : String) : Option Operator := list.find? (·.name == key)

def names : List String := list.map name

end Operator

end DocQuery
