import DocQuery.Proofs.Json.Tree
import DocQuery.Proofs.Query.Compilation

/-!
# What queries mean

`meaning` reads a query directly, by recursion on the query itself. `test_compile` shows that a
compiled query tests every value, present or absent, to exactly that verdict, faults included.
-/

namespace DocQuery.Query

/-- An ordering operator. An absent value does not pass, and a value without an order against the
bound is a fault. -/
def orderMeaning (operator : String) (passes : Ordering → Bool) (bound : Json) :
    Option Json → Verdict
  | none => .ok false
  | some value =>
    match value.order? bound with
    | some order => .ok (passes order)
    | none => .error (.incomparable operator value bound)

mutual
/-- What a query says of a value that may be absent: the first of its entries' verdicts that is not
"yes". -/
def meaning : Json → Option Json → Verdict
  | .object entries, value => firstOther true (entryMeanings entries value)
  | _, _ => .error (.malformed .notAnObject)

def entryMeaning (key : String) (argument : Json) (value : Option Json) : Verdict :=
  match key with
  | "$eq" => .ok (value.any (·.equal argument))
  | "$ne" => .ok (!value.any (·.equal argument))
  | "$gt" => orderMeaning "$gt" Ordering.isGT argument value
  | "$gte" => orderMeaning "$gte" Ordering.isGE argument value
  | "$lt" => orderMeaning "$lt" Ordering.isLT argument value
  | "$lte" => orderMeaning "$lte" Ordering.isLE argument value
  | "$in" =>
    match argument with
    | .array set => .ok (value.any (Json.containsAny set))
    | _ => .error (.malformed (.expectedArray "$in"))
  | "$nin" =>
    match argument with
    | .array set => .ok (!value.any (Json.containsAny set))
    | _ => .error (.malformed (.expectedArray "$nin"))
  | "$exists" =>
    match argument with
    | .bool expected => .ok (value.isSome == expected)
    | _ => .error (.malformed (.expectedBool "$exists"))
  | "$and" =>
    match argument with
    | .array queries =>
      if queries.all Json.isObject then firstOther true (queryMeanings queries value)
      else .error (.malformed (.expectedDocument "$and"))
    | _ => .error (.malformed (.expectedArray "$and"))
  | "$or" =>
    match argument with
    | .array queries =>
      if queries.all Json.isObject then firstOther false (queryMeanings queries value)
      else .error (.malformed (.expectedDocument "$or"))
    | _ => .error (.malformed (.expectedArray "$or"))
  | name =>
    match argument with
    | .object entries => firstOther true (entryMeanings entries (Json.field? name value))
    | _ => .ok ((Json.field? name value).any (·.equal argument))

def entryMeanings : List (String × Json) → Option Json → List Verdict
  | [], _ => []
  | (key, argument) :: rest, value => entryMeaning key argument value :: entryMeanings rest value

def queryMeanings : List Json → Option Json → List Verdict
  | [], _ => []
  | query :: rest, value => meaning query value :: queryMeanings rest value
end

theorem entryMeanings_eq (entries : List (String × Json)) (value : Option Json) :
    entryMeanings entries value = entries.map fun e => entryMeaning e.1 e.2 value := by
  induction entries with
  | nil => rfl
  | cons e rest ih => rw [entryMeanings, ih, List.map_cons]

theorem queryMeanings_eq (queries : List Json) (value : Option Json) :
    queryMeanings queries value = queries.map fun q => meaning q value := by
  induction queries with
  | nil => rfl
  | cons q rest ih => rw [queryMeanings, ih, List.map_cons]

/-! ### Entries that name fields -/

theorem entryMeaning_field {key : String} (field : Operator.ofName? key = none)
    (entries : List (String × Json)) (value : Option Json) :
    entryMeaning key (.object entries) value = meaning (.object entries) (Json.field? key value) := by
  rw [entryMeaning, meaning]
  all_goals
    rintro rfl
    revert field
    decide

theorem entryMeaning_literal {key : String} {argument : Json} (field : Operator.ofName? key = none)
    (literal : argument.isObject = false) (value : Option Json) :
    entryMeaning key argument value = .ok ((Json.field? key value).any (·.equal argument)) := by
  have plain : ∀ entries, argument = .object entries → False := by
    rintro entries rfl
    cases literal
  rw [entryMeaning]
  all_goals first
    | exact plain
    | rintro rfl
      revert field
      decide

/-! ### Entries that name operators -/

theorem accepts_eq (comparison : Comparison) :
    comparison.accepts = match comparison with
      | .gt => Ordering.isGT
      | .gte => Ordering.isGE
      | .lt => Ordering.isLT
      | .lte => Ordering.isLE := by
  funext order
  cases comparison <;> cases order <;> rfl

theorem testOrder_eq (comparison : Comparison) (bound : Json) (value : Option Json) :
    Predicate.testOrder comparison bound value =
      orderMeaning comparison.operator comparison.accepts bound value := by
  cases value <;> rfl

/-- The operators that take no queries, and those that do when they are given something else. -/
theorem test_operatorClause (op : Operator) {argument : Json}
    (plain : argument.isArray = true → op ≠ .all ∧ op ≠ .any) (value : Option Json) :
    (operatorClause op argument).test value = entryMeaning op.name argument value := by
  rw [entryMeaning.eq_def]
  cases op with
  | eq => rfl
  | ne => rfl
  | ordered comparison =>
    rw [operatorClause, Predicate.test, testOrder_eq, accepts_eq]
    cases comparison <;> rfl
  | oneOf => cases argument <;> rfl
  | noneOf => cases argument <;> rfl
  | present => cases argument <;> rfl
  | all =>
    cases argument with
    | array => exact absurd rfl (plain rfl).1
    | _ => rfl
  | any =>
    cases argument with
    | array => exact absurd rfl (plain rfl).2
    | _ => rfl

/-- A connective whose queries are objects gives the first of their verdicts that is not its own
answer. Otherwise it faults as a whole, whatever stands before the element that is no object. -/
theorem test_connective {queries : List Json} {value : Option Json}
    (verdicts : ∀ q ∈ queries, (compile q).test value = meaning q value) :
    (compileEntry "$and" (.array queries)).test value =
        entryMeaning "$and" (.array queries) value ∧
      (compileEntry "$or" (.array queries)).test value =
        entryMeaning "$or" (.array queries) value := by
  rw [entryMeaning, entryMeaning, queryMeanings_eq, ← List.map_congr_left verdicts]
  by_cases objects : ∀ q ∈ queries, q.isObject = true
  · rw [if_pos (List.all_eq_true.mpr objects), if_pos (List.all_eq_true.mpr objects)]
    exact ⟨test_compileEntry_all objects value, test_compileEntry_any objects value⟩
  · rw [if_neg (mt List.all_eq_true.mp objects), if_neg (mt List.all_eq_true.mp objects)]
    rw [compileEntry_all, compileEntry_any, compileQueries_of_other objects]
    exact ⟨rfl, rfl⟩

/-! ### Queries -/

/-- An entry says what it means if its argument does as a query, and each element of its argument. -/
theorem test_compileEntry {argument : Json}
    (asQuery : ∀ value, (compile argument).test value = meaning argument value)
    (elements : ∀ queries, argument = .array queries →
      ∀ q ∈ queries, ∀ value, (compile q).test value = meaning q value)
    (key : String) (value : Option Json) :
    (compileEntry key argument).test value = entryMeaning key argument value := by
  refine compileEntry_cases (motive := fun p => p.test value = entryMeaning key argument value)
    key argument ?literal ?query ?operator ?all ?any
  case literal =>
    intro named literal
    rw [entryMeaning_literal named literal]
    rfl
  case query =>
    intro named object
    cases argument with
    | object entries => rw [entryMeaning_field named, ← asQuery]; rfl
    | _ => cases object
  case operator =>
    rintro op rfl plain
    exact test_operatorClause op plain value
  case all =>
    rintro queries rfl rfl
    rw [← compileEntry_all]
    exact (test_connective fun q member => elements queries rfl q member value).1
  case any =>
    rintro queries rfl rfl
    rw [← compileEntry_any]
    exact (test_connective fun q member => elements queries rfl q member value).2

theorem test_query_and_entry (q : Json) :
    (∀ value, (compile q).test value = meaning q value) ∧
      ∀ key value, (compileEntry key q).test value = entryMeaning key q value := by
  induction q with
  | array queries ih =>
    refine ⟨fun _ => rfl, test_compileEntry (fun _ => rfl) ?_⟩
    rintro _ ⟨⟩ q member
    exact (ih q member).1
  | object entries ih =>
    have whole : ∀ value, (compile (.object entries)).test value = meaning (.object entries) value := by
      intro value
      rw [test_compile_object, meaning, entryMeanings_eq]
      rw [List.map_congr_left fun e member => (ih e member).2 e.1 value]
    exact ⟨whole, test_compileEntry whole nofun⟩
  | _ => exact ⟨fun _ => rfl, test_compileEntry (fun _ => rfl) nofun⟩

/-- A compiled query says of a value, present or absent, what the query means. -/
theorem test_compile (q : Json) (value : Option Json) : (compile q).test value = meaning q value :=
  (test_query_and_entry q).1 value

/-- An element that is no query spoils the whole disjunction, also behind one that matches. -/
example : meaning (.object [("$or", .array [.object [], .null])]) none =
    .error (.malformed (.expectedDocument "$or")) := rfl

end DocQuery.Query
