import DocQuery.Predicate.Basic
import DocQuery.Json.Equality

/-!
# Sameness of predicates

Two predicates are the same when they have the same shape, clauses in the same order, and literals
that are the same values.
-/

namespace DocQuery.Predicate

mutual
def same : Predicate → Predicate → Bool
  | .field m p, .field n q => m == n && same p q
  | .eq a, .eq b => a.same b
  | .ne a, .ne b => a.same b
  | .ordered c a, .ordered d b => c == d && a.same b
  | .oneOf s, .oneOf t => Json.sameItems s t
  | .noneOf s, .noneOf t => Json.sameItems s t
  | .present a, .present b => a == b
  | .all ps, .all qs => sameClauses ps qs
  | .any ps, .any qs => sameClauses ps qs
  | .malformed a, .malformed b => a == b
  | _, _ => false

def sameClauses : List Predicate → List Predicate → Bool
  | [], [] => true
  | p :: ps, q :: qs => same p q && sameClauses ps qs
  | _, _ => false
end

end DocQuery.Predicate
