import DocQuery.Proofs.Query.KeyOrder

/-!
# Rewriting queries

Queries are alike if they give the same verdict on every value, present or absent, down to the fault.
Entries may be regrouped into the queries of a conjunction, and a field may be moved into a
connective or out of it (`rewriting_laws`).
-/

namespace DocQuery

/-! ### Verdicts in groups -/

theorem firstOther_cons_congr {answer : Bool} {v : Verdict} {rest others : List Verdict}
    (same : firstOther answer rest = firstOther answer others) :
    firstOther answer (v :: rest) = firstOther answer (v :: others) := by
  by_cases passed : v = .ok answer
  · subst passed
    rw [firstOther_cons_same, firstOther_cons_same, same]
  · rw [firstOther_cons_other passed, firstOther_cons_other passed]

/-- Verdicts in front may be replaced by the one that they come to. -/
theorem firstOther_append (answer : Bool) (before after : List Verdict) :
    firstOther answer (before ++ after) = firstOther answer (firstOther answer before :: after) := by
  induction before with
  | nil => rw [firstOther_nil, firstOther_cons_same, List.nil_append]
  | cons v before ih =>
    by_cases passed : v = .ok answer
    · subst passed
      rw [List.cons_append, firstOther_cons_same, firstOther_cons_same, ih]
    · rw [List.cons_append, firstOther_cons_other passed, firstOther_cons_other passed,
        firstOther_cons_other passed]

theorem firstOther_flatten (answer : Bool) (groups : List (List Verdict)) :
    firstOther answer groups.flatten = firstOther answer (groups.map (firstOther answer)) := by
  induction groups with
  | nil => rfl
  | cons group rest ih =>
    rw [List.flatten_cons, firstOther_append, List.map_cons]
    exact firstOther_cons_congr ih

namespace Query

/-- The same verdict on every value, present or absent. -/
def Alike (q r : Json) : Prop := ∀ value, (compile q).test value = (compile r).test value

variable {q r : Json} {key : String} {queries : List Json}

theorem Alike.trans {s : Json} (first : Alike q r) (second : Alike r s) : Alike q s :=
  fun value => (first value).trans (second value)

/-! ### Fields -/

theorem compile_field (field : Operator.ofName? key = none) (object : q.isObject = true) :
    compile (single key q) = .field key (compile q) := by
  cases q with
  | object entries => exact compileEntry_field field
  | _ => cases object

theorem test_field (field : Operator.ofName? key = none) (object : q.isObject = true)
    (value : Option Json) :
    (compile (single key q)).test value = (compile q).test (Json.field? key value) := by
  rw [compile_field field object, Predicate.test]

theorem Alike.inField (alike : Alike q r) (field : Operator.ofName? key = none)
    (object : q.isObject = true) (object' : r.isObject = true) :
    Alike (single key q) (single key r) := by
  intro value
  rw [test_field field object, test_field field object']
  exact alike (Json.field? key value)

theorem map_test_field (field : Operator.ofName? key = none)
    (objects : ∀ q ∈ queries, q.isObject = true) (value : Option Json) :
    (queries.map (single key)).map (fun q => (compile q).test value) =
      queries.map fun q => (compile q).test (Json.field? key value) := by
  rw [List.map_map]
  apply List.map_congr_left
  intro q member
  exact test_field field (objects q member) value

/-! ### Laws -/

theorem alike_groups (groups : List (List (String × Json))) :
    Alike (.object groups.flatten) (allOf (groups.map .object)) := by
  intro value
  have objects : ∀ q ∈ groups.map Json.object, q.isObject = true :=
    List.forall_mem_map.mpr fun _ _ => rfl
  have conjunction : (compile (allOf (groups.map .object))).test value =
      firstOther true ((groups.map .object).map fun q => (compile q).test value) :=
    test_compileEntry_all objects value
  rw [test_compile_object, List.map_flatten, firstOther_flatten, conjunction, List.map_map, List.map_map]
  congr 1
  apply List.map_congr_left
  intro entries _
  exact (test_compile_object entries value).symm

theorem alike_field_allOf (field : Operator.ofName? key = none)
    (objects : ∀ q ∈ queries, q.isObject = true) :
    Alike (single key (allOf queries)) (allOf (queries.map (single key))) := by
  intro value
  rw [test_field field rfl]
  show (compileEntry "$and" (.array queries)).test _ = (compileEntry "$and" (.array _)).test value
  rw [test_compileEntry_all objects, test_compileEntry_all (List.forall_mem_map.mpr fun _ _ => rfl),
    map_test_field field objects]

theorem alike_field_anyOf (field : Operator.ofName? key = none)
    (objects : ∀ q ∈ queries, q.isObject = true) :
    Alike (single key (anyOf queries)) (anyOf (queries.map (single key))) := by
  intro value
  rw [test_field field rfl]
  show (compileEntry "$or" (.array queries)).test _ = (compileEntry "$or" (.array _)).test value
  rw [test_compileEntry_any objects, test_compileEntry_any (List.forall_mem_map.mpr fun _ _ => rfl),
    map_test_field field objects]

/-- A query of a field splits into one for each of its entries: they are groups of one, and the field
moves into their conjunction. -/
theorem alike_field_entries (field : Operator.ofName? key = none) (entries : List (String × Json)) :
    Alike (single key (.object entries))
      (allOf (entries.map fun e => single key (.object [e]))) := by
  have ungrouped : (entries.map fun e => [e]).flatten = entries := by
    rw [← List.flatMap_def, List.flatMap_singleton']
  have grouped := alike_groups (entries.map fun e => [e])
  rw [ungrouped, List.map_map] at grouped
  have objects : ∀ q ∈ entries.map fun e => Json.object [e], q.isObject = true :=
    List.forall_mem_map.mpr fun _ _ => rfl
  have moved := alike_field_allOf field objects
  rw [List.map_map] at moved
  exact (grouped.inField field rfl rfl).trans moved

/-- The entries of a query may be cut into groups, each a query of a conjunction. The query of a field
is the conjunction of its entries, each under the field, and a connective under a field is the
connective of its queries, each under the field. No value tells the two sides apart, and neither does
a fault. -/
theorem rewriting_laws :
    (∀ groups : List (List (String × Json)),
        Alike (.object groups.flatten) (allOf (groups.map .object))) ∧
      ∀ key, Operator.ofName? key = none →
        (∀ entries : List (String × Json),
            Alike (single key (.object entries))
              (allOf (entries.map fun e => single key (.object [e])))) ∧
          ∀ queries : List Json, (∀ q ∈ queries, q.isObject = true) →
            Alike (single key (allOf queries)) (allOf (queries.map (single key))) ∧
              Alike (single key (anyOf queries)) (anyOf (queries.map (single key))) :=
  ⟨alike_groups, fun _ field => ⟨alike_field_entries field, fun _ objects =>
    ⟨alike_field_allOf field objects, alike_field_anyOf field objects⟩⟩⟩

/-- The first of two faults comes out on both sides. -/
theorem rewriting_laws_faults :
    let one : Json := .number (.natural 1 (by decide))
    let document : Json := .object [("a", .string "x")]
    let greater : String × Json := ("$gt", one)
    let wrong : String × Json := ("$in", .null)
    let unordered : Verdict := .error (.incomparable "$gt" (.string "x") one)
    let queries : List Json := [.object [], .object [greater], .object [wrong]]
    (compile (single "a" (.object [greater, wrong]))).evaluate document = unordered ∧
      (compile (single "a" (allOf [.object [], .object [greater], .object [wrong]]))).evaluate
        document = unordered ∧
      (compile (allOf [single "a" (.object [greater]), single "a" (.object [wrong])])).evaluate
        document = unordered ∧
      (compile (anyOf (queries.tail.map (single "a")))).evaluate document = unordered ∧
      (compile (allOf (queries.map (single "a")))).evaluate document = unordered := by
  intro one document greater wrong unordered queries
  have objects : ∀ q ∈ queries, q.isObject = true := by simp [queries, Json.isObject]
  have objects' : ∀ q ∈ queries.tail, q.isObject = true := by simp [queries, Json.isObject]
  have field : Operator.ofName? "a" = none := by decide
  obtain ⟨regroup, under⟩ := rewriting_laws
  obtain ⟨split, move⟩ := under "a" field
  have whole : (compile (single "a" (.object [greater, wrong]))).evaluate document = unordered := rfl
  have grouped := (regroup [[], [greater], [wrong]]).inField field rfl rfl (some document)
  have entries := split [greater, wrong] (some document)
  have conjunction := (move queries objects).1 (some document)
  have disjunction := (move queries.tail objects').2 (some document)
  exact ⟨whole, grouped.symm.trans whole, entries.symm.trans whole, disjunction.symm.trans rfl,
    conjunction.symm.trans (grouped.symm.trans whole)⟩

end Query

end DocQuery
