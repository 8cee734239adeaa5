import DocQuery.Predicate.Basic
import DocQuery.Json.Reader
import DocQuery.Json.Writer

/-!
# Predicates as documents

Every predicate has a form: an object with one key, which names the kind of node. `ofJson?` reads
forms back, and is a little wider: fields may come in any order or as an array without names, and
unknown fields do not count. A key that is repeated where it counts is refused. In the text of a
form the values of unknown fields are passed over, and need not mean anything.
-/

namespace DocQuery

def Comparison.kind : Comparison → String
  | .gt => "Gt"
  | .gte => "Gte"
  | .lt => "Lt"
  | .lte => "Lte"

namespace Malformed

def withOperator (kind operator : String) : Json :=
  .object [(kind, .object [("operator", .string operator)])]

def toJson : Malformed → Json
  | .notAnObject => .string "NotAnObject"
  | .expectedArray operator => withOperator "ExpectedArray" operator
  | .expectedDocument operator => withOperator "ExpectedDocument" operator
  | .expectedBool operator => withOperator "ExpectedBool" operator

/-- The operator among the fields, given what came before them. -/
def operatorOf? : List (String × Json) → Option String → Option String
  | [], found => found
  | (key, value) :: rest, found =>
    if key = "operator" then
      match found, value with
      | none, .string operator => operatorOf? rest (some operator)
      | _, _ => none
    else operatorOf? rest found

/-- The operator of a reason, from its named or unnamed fields. -/
def operator? : Json → Option String
  | .array [.string operator] => some operator
  | .object entries => operatorOf? entries none
  | _ => none

def ofJson? : Json → Option Malformed
  | .string "NotAnObject" => some .notAnObject
  | .object [("NotAnObject", .null)] => some .notAnObject
  | .object [("ExpectedArray", body)] => (operator? body).map .expectedArray
  | .object [("ExpectedDocument", body)] => (operator? body).map .expectedDocument
  | .object [("ExpectedBool", body)] => (operator? body).map .expectedBool
  | _ => none

end Malformed

namespace Predicate

mutual
def toJson : Predicate → Json
  | .field name inner => .object [("Field", .object [("name", .string name), ("inner", toJson inner)])]
  | .eq expected => .object [("Eq", expected)]
  | .ne expected => .object [("Ne", expected)]
  | .ordered comparison bound => .object [(comparison.kind, bound)]
  | .oneOf set => .object [("In", .array set)]
  | .noneOf set => .object [("Nin", .array set)]
  | .present expected => .object [("Exists", .bool expected)]
  | .all clauses => .object [("And", .array (toJsonClauses clauses))]
  | .any clauses => .object [("Or", .array (toJsonClauses clauses))]
  | .malformed reason => .object [("Malformed", reason.toJson)]

def toJsonClauses : List Predicate → List Json
  | [] => []
  | p :: rest => toJson p :: toJsonClauses rest
end

mutual
def ofJson? : Json → Option Predicate
  | .object [("Field", .array [.string name, inner])] => (ofJson? inner).map (.field name)
  | .object [("Field", .object entries)] => ofFields? entries none none
  | .object [("Eq", expected)] => some (.eq expected)
  | .object [("Ne", expected)] => some (.ne expected)
  | .object [("Gt", bound)] => some (.ordered .gt bound)
  | .object [("Gte", bound)] => some (.ordered .gte bound)
  | .object [("Lt", bound)] => some (.ordered .lt bound)
  | .object [("Lte", bound)] => some (.ordered .lte bound)
  | .object [("In", .array set)] => some (.oneOf set)
  | .object [("Nin", .array set)] => some (.noneOf set)
  | .object [("Exists", .bool expected)] => some (.present expected)
  | .object [("And", .array forms)] => (ofClauses? forms).map .all
  | .object [("Or", .array forms)] => (ofClauses? forms).map .any
  | .object [("Malformed", reason)] => (Malformed.ofJson? reason).map .malformed
  | _ => none

def ofClauses? : List Json → Option (List Predicate)
  | [] => some []
  | form :: rest =>
    match ofJson? form, ofClauses? rest with
    | some p, some ps => some (p :: ps)
    | _, _ => none

/-- The predicate of named fields, given the name and the inner predicate that came before them. -/
def ofFields? : List (String × Json) → Option String → Option Predicate → Option Predicate
  | [], some name, some inner => some (.field name inner)
  | [], _, _ => none
  | (key, value) :: rest, name, inner =>
    if key = "name" then
      match name, value with
      | none, .string s => ofFields? rest (some s) inner
      | _, _ => none
    else if key = "inner" then
      match inner, ofJson? value with
      | none, some p => ofFields? rest name (some p)
      | _, _ => none
    else ofFields? rest name inner
end

mutual
def settle : Predicate → Predicate
  | .field name inner => .field name (settle inner)
  | .eq expected => .eq expected.settle
  | .ne expected => .ne expected.settle
  | .ordered comparison bound => .ordered comparison bound.settle
  | .oneOf set => .oneOf (Json.settleItems set)
  | .noneOf set => .noneOf (Json.settleItems set)
  | .all clauses => .all (settleClauses clauses)
  | .any clauses => .any (settleClauses clauses)
  | other => other

def settleClauses : List Predicate → List Predicate
  | [] => []
  | p :: rest => settle p :: settleClauses rest
end

def text (p : Predicate) : String := p.toJson.text

/-! ### Texts of forms -/

/-- What a value in a form is for. -/
inductive Place where
  | predicate
  /-- The fields of a `field` node. -/
  | fields
  /-- The reason of a `malformed` node. -/
  | reason
  /-- The fields of a reason that names an operator. -/
  | operator
  | literal

namespace Place

/-- The place of an entry's value. Unknown fields have none. -/
def entry : Place → String → Option Place
  | .predicate, "Field" => some .fields
  | .predicate, "And" => some .predicate
  | .predicate, "Or" => some .predicate
  | .predicate, "Malformed" => some .reason
  | .predicate, _ => some .literal
  | .fields, "name" => some .literal
  | .fields, "inner" => some .predicate
  | .fields, _ => none
  | .reason, _ => some .operator
  | .operator, "operator" => some .literal
  | .operator, _ => none
  | .literal, _ => some .literal

/-- The place of an array's elements. Clauses are predicates, and fields without names are a name and
a predicate. -/
def item : Place → Place
  | .predicate => .predicate
  | .fields => .predicate
  | _ => .literal

def selection : Json.Selection Place := ⟨entry, item⟩

end Place

def parse? (text : String) : Option Predicate :=
  match Json.readSelected Place.selection .predicate text with
  | .error _ => none
  | .ok form => (ofJson? form).map settle

end Predicate

end DocQuery
