import DocQuery.Number.Basic

/-!
# Documents

A document is a tree of JSON values. An object is the list of its entries in order. A text may
repeat a key; `Json.settle` gives the object that such a text means, and `Json.Settled` says that no
key is repeated anywhere.
-/

namespace DocQuery

inductive Json where
  | null
  | bool (value : Bool)
  | number (value : Number)
  | string (value : String)
  | array (items : List Json)
  | object (entries : List (String × Json))

namespace Json

instance : Inhabited Json := ⟨.null⟩

def isObject : Json → Bool
  | .object _ => true
  | _ => false

def isArray : Json → Bool
  | .array _ => true
  | _ => false

/-- The value of a field. It is absent from an absent value, from a value that is no object, and
from an object without that key; a field that holds `null` is present. -/
def field? (name : String) : Option Json → Option Json
  | some (.object entries) => entries.lookup name
  | _ => none

/-- Sets a key: in place if an entry has it, at the end otherwise. -/
def put (entries : List (String × Json)) (key : String) (value : Json) : List (String × Json) :=
  match entries with
  | [] => [(key, value)]
  | (k, v) :: rest => if k = key then (k, value) :: rest else (k, v) :: put rest key value

mutual
/-- The value that a tree as written means: a repeated key keeps its first place and takes its last
value. -/
def settle : Json → Json
  | .array items => .array (settleItems items)
  | .object entries => .object ((settleEntries entries).foldl (fun es e => put es e.1 e.2) [])
  | other => other

def settleItems : List Json → List Json
  | [] => []
  | v :: rest => settle v :: settleItems rest

def settleEntries : List (String × Json) → List (String × Json)
  | [] => []
  | (k, v) :: rest => (k, settle v) :: settleEntries rest
end

mutual
/-- No object of the tree repeats a key. -/
def Settled : Json → Prop
  | .array items => SettledItems items
  | .object entries => (entries.map Prod.fst).Nodup ∧ SettledEntries entries
  | _ => True

def SettledItems : List Json → Prop
  | [] => True
  | v :: rest => Settled v ∧ SettledItems rest

def SettledEntries : List (String × Json) → Prop
  | [] => True
  | (_, v) :: rest => Settled v ∧ SettledEntries rest
end

mutual
/-- How deep arrays and objects nest; `0` for a value that is neither. -/
def depth : Json → Nat
  | .array items => depthItems items + 1
  | .object entries => depthEntries entries + 1
  | _ => 0

def depthItems : List Json → Nat
  | [] => 0
  | v :: rest => max (depth v) (depthItems rest)

def depthEntries : List (String × Json) → Nat
  | [] => 0
  | (_, v) :: rest => max (depth v) (depthEntries rest)
end

end Json

end DocQuery
