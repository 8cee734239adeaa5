import DocQuery.Predicate.Basic
import DocQuery.Json.Writer

/-!
# Faults

A fault is the reason why a predicate has no answer for a value.
-/

namespace DocQuery

inductive Fault where
  | malformed (reason : Malformed)
  | incomparable (operator : String) (left right : Json)

def Malformed.message : Malformed → String
  | .notAnObject => "query must be an object"
  | .expectedArray operator => operator ++ " expects an array"
  | .expectedDocument operator => operator ++ " expects an array of query objects"
  | .expectedBool operator => operator ++ " expects a boolean"

def Fault.message : Fault → String
  | .malformed reason => reason.message
  | .incomparable operator left right =>
    operator ++ " cannot order " ++ left.text ++ " against " ++ right.text

end DocQuery
