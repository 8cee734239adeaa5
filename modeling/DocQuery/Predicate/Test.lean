import DocQuery.Predicate.Fault
import DocQuery.Json.Equality
import DocQuery.Json.Order

/-!
# Testing values

`Predicate.test` answers for a value that may be absent. Clauses are tried from the left, and the
first that decides or faults is the answer. `Predicate.holds` takes a fault for "no".
-/

namespace DocQuery

abbrev Verdict := Except Fault Bool

namespace Predicate

/-- Tests the order of a value against a bound. An absent value does not pass. -/
def testOrder (comparison : Comparison) (bound : Json) : Option Json → Verdict
  | none => .ok false
  | some value =>
    match value.order? bound with
    | some order => .ok (comparison.accepts order)
    | none => .error (.incomparable comparison.operator value bound)

mutual
/-- Tests a value that may be absent. -/
def test : Predicate → Option Json → Verdict
  | .field name inner, value => test inner (Json.field? name value)
  | .eq expected, value => .ok (value.any (Json.equal · expected))
  | .ne expected, value => .ok (!value.any (Json.equal · expected))
  | .ordered comparison bound, value => testOrder comparison bound value
  | .oneOf set, value => .ok (value.any (Json.containsAny set))
  | .noneOf set, value => .ok (!value.any (Json.containsAny set))
  | .present expected, value => .ok (value.isSome == expected)
  | .all clauses, value => testAll clauses value
  | .any clauses, value => testAny clauses value
  | .malformed reason, _ => .error (.malformed reason)

/-- The first verdict that is not "yes", and "yes" when there is none. -/
def testAll : List Predicate → Option Json → Verdict
  | [], _ => .ok true
  | clause :: rest, value =>
    match test clause value with
    | .ok true => testAll rest value
    | decided => decided

/-- The first verdict that is not "no", and "no" when there is none. -/
def testAny : List Predicate → Option Json → Verdict
  | [], _ => .ok false
  | clause :: rest, value =>
    match test clause value with
    | .ok false => testAny rest value
    | decided => decided
end

def evaluate (p : Predicate) (document : Json) : Verdict := p.test (some document)

/-- Tests a document, a fault being no match. -/
def holds (p : Predicate) (document : Json) : Bool :=
  match p.evaluate document with
  | .ok answer => answer
  | .error _ => false

def filter (p : Predicate) (documents : List Json) : List Json := documents.filter p.holds

end Predicate

end DocQuery
