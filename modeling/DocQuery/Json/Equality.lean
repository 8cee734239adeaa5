import DocQuery.Json.Basic

/-!
# Two equalities of values

`Json.same` tells the kinds of numbers apart, so `1` and `1.0` differ. `Json.equal` is the equality
of queries, which compares numbers by value. Neither minds the order of an object's entries, and
neither converts between other kinds.
-/

namespace DocQuery.Json

mutual
/-- Sameness of structure, number kinds included and key order aside. -/
def same : Json → Json → Bool
  | .null, .null => true
  | .bool a, .bool b => a == b
  | .number a, .number b => a.same b
  | .string a, .string b => a == b
  | .array xs, .array ys => sameItems xs ys
  | .object es, .object fs => es.length == fs.length && sameEntries es fs
  | _, _ => false

def sameItems : List Json → List Json → Bool
  | [], [] => true
  | x :: xs, y :: ys => same x y && sameItems xs ys
  | _, _ => false

def sameEntries : List (String × Json) → List (String × Json) → Bool
  | [], _ => true
  | (k, v) :: rest, others =>
    (match others.lookup k with
      | some w => same v w
      | none => false) && sameEntries rest others
end

mutual
/-- Equality of queries: numbers by value, arrays by place, objects by key. -/
def equal : Json → Json → Bool
  | .null, .null => true
  | .bool a, .bool b => a == b
  | .number a, .number b => a.order b == .eq
  | .string a, .string b => a == b
  | .array xs, .array ys => equalItems xs ys
  | .object es, .object fs => es.length == fs.length && equalEntries es fs
  | _, _ => false

def equalItems : List Json → List Json → Bool
  | [], [] => true
  | x :: xs, y :: ys => equal x y && equalItems xs ys
  | _, _ => false

def equalEntries : List (String × Json) → List (String × Json) → Bool
  | [], _ => true
  | (k, v) :: rest, others =>
    (match others.lookup k with
      | some w => equal v w
      | none => false) && equalEntries rest others
end

/-- Membership as queries see it: some element of an array, or else the value itself, is in the
set. -/
def containsAny (set : List Json) (value : Json) : Bool :=
  match value with
  | .array items => items.any fun item => set.any (equal item)
  | other => set.any (equal other)

end DocQuery.Json
