import DocQuery.Json.Basic

/-!
# Predicates

A predicate is a compiled query. It is tested against a value that may be absent; `field` is the only
node that moves to another value. A node `malformed` stands where a query has the wrong shape, and
faults when it is tested.
-/

namespace DocQuery

inductive Comparison where
  | gt
  | gte
  | lt
  | lte
deriving DecidableEq

namespace Comparison

/-- The operator that writes the test in a query. -/
def operator : Comparison → String
  | .gt => "$gt"
  | .gte => "$gte"
  | .lt => "$lt"
  | .lte => "$lte"

/-- Whether a value that stands in that order to the bound passes. -/
def accepts : Comparison → Ordering → Bool
  | .gt, order => order == .gt
  | .gte, order => order != .lt
  | .lt, order => order == .lt
  | .lte, order => order != .gt

end Comparison

/-- A query shape that cannot be evaluated, with the operator whose argument is wrong. -/
inductive Malformed where
  | notAnObject
  | expectedArray (operator : String)
  | expectedDocument (operator : String)
  | expectedBool (operator : String)
deriving DecidableEq

inductive Predicate where
  /-- The field of that name passes `inner`. -/
  | field (name : String) (inner : Predicate)
  | eq (expected : Json)
  | ne (expected : Json)
  | ordered (comparison : Comparison) (bound : Json)
  | oneOf (set : List Json)
  | noneOf (set : List Json)
  /-- The value is there, or is not there. -/
  | present (expected : Bool)
  | all (clauses : List Predicate)
  | any (clauses : List Predicate)
  | malformed (reason : Malformed)

instance : Inhabited Predicate := ⟨.all []⟩

end DocQuery
