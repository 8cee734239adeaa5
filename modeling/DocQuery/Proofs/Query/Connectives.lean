import DocQuery.Proofs.Query.Compilation

/-!
# Connectives

A conjunction of queries matches exactly if each of them does, whichever of them fault. A disjunction
needs a query that matches, and no fault in front of the first that does (`holds_anyOf`): the fault
would be its verdict, and hide the match.
-/

namespace DocQuery

/-! ### Hidden matches -/

/-- A fault with no "yes" before it, and a "yes" after it. -/
def HidesMatch (verdicts : List Verdict) : Prop :=
  ∃ before cause after, verdicts = before ++ .error cause :: after ∧
    .ok true ∉ before ∧ .ok true ∈ after

theorem hidesMatch_cons {v : Verdict} {rest : List Verdict} :
    HidesMatch (v :: rest) ↔
      (∃ cause, v = .error cause) ∧ .ok true ∈ rest ∨ v ≠ .ok true ∧ HidesMatch rest := by
  constructor
  · rintro ⟨before, cause, after, split, unmatched, later⟩
    cases before with
    | nil =>
      obtain ⟨rfl, rfl⟩ := List.cons.inj split
      exact .inl ⟨⟨cause, rfl⟩, later⟩
    | cons first before =>
      obtain ⟨rfl, rfl⟩ := List.cons.inj split
      have other := (List.ne_of_not_mem_cons unmatched).symm
      exact .inr ⟨other, before, cause, after, rfl, List.not_mem_of_not_mem_cons unmatched, later⟩
  · rintro (⟨⟨cause, rfl⟩, later⟩ | ⟨other, before, cause, after, rfl, unmatched, later⟩)
    · exact ⟨[], cause, rest, rfl, List.not_mem_nil, later⟩
    · have unmatched := List.not_mem_cons_of_ne_of_not_mem other.symm unmatched
      exact ⟨v :: before, cause, after, rfl, unmatched, later⟩

theorem yes_mem_of_hidesMatch {verdicts : List Verdict} (hidden : HidesMatch verdicts) :
    .ok true ∈ verdicts := by
  obtain ⟨before, cause, after, rfl, _, later⟩ := hidden
  exact List.mem_append_right before (List.mem_cons_of_mem _ later)

theorem firstOther_no_eq_yes_iff {verdicts : List Verdict} :
    firstOther false verdicts = .ok true ↔ .ok true ∈ verdicts ∧ ¬HidesMatch verdicts := by
  induction verdicts with
  | nil => simp [firstOther_nil]
  | cons v rest ih =>
    rw [hidesMatch_cons]
    cases v with
    | error cause =>
      rw [firstOther_cons_other (by simp)]
      constructor
      · intro faulted
        cases faulted
      · rintro ⟨present, shown⟩
        have later : .ok true ∈ rest := by simpa using present
        exact absurd (.inl ⟨⟨cause, rfl⟩, later⟩) shown
    | ok answer =>
      cases answer with
      | false => simp [firstOther_cons_same, ih]
      | true => simp [firstOther_cons_other]

namespace Query

def allOf (queries : List Json) : Json := .object [("$and", .array queries)]

def anyOf (queries : List Json) : Json := .object [("$or", .array queries)]

variable {queries : List Json}

theorem evaluate_allOf (objects : ∀ q ∈ queries, q.isObject = true) (document : Json) :
    (compile (allOf queries)).evaluate document =
      firstOther true (queries.map fun q => (compile q).evaluate document) :=
  test_compileEntry_all objects (some document)

theorem evaluate_anyOf (objects : ∀ q ∈ queries, q.isObject = true) (document : Json) :
    (compile (anyOf queries)).evaluate document =
      firstOther false (queries.map fun q => (compile q).evaluate document) :=
  test_compileEntry_any objects (some document)

theorem holds_allOf (objects : ∀ q ∈ queries, q.isObject = true) (document : Json) :
    (compile (allOf queries)).holds document = true ↔
      ∀ q ∈ queries, (compile q).holds document = true := by
  rw [Predicate.holds_iff, evaluate_allOf objects, firstOther_eq_self_iff, List.forall_mem_map]
  simp only [Predicate.holds_iff]

theorem isObject_of_holds {q document : Json} (matched : (compile q).holds document = true) :
    q.isObject = true := by
  cases q with
  | object => rfl
  | _ => cases matched

/-- A query that is no object matches nothing, by itself or in a conjunction. -/
theorem holds_allOf_iff (queries : List Json) (document : Json) :
    (compile (allOf queries)).holds document = true ↔
      ∀ q ∈ queries, (compile q).holds document = true := by
  by_cases objects : ∀ q ∈ queries, q.isObject = true
  · exact holds_allOf objects document
  · have spoilt : compile (allOf queries) = .malformed (.expectedDocument "$and") := by
      have clause := compileEntry_all queries
      rw [compileQueries_of_other objects] at clause
      exact clause
    constructor
    · intro matched
      rw [spoilt] at matched
      cases matched
    · intro each
      exact absurd (fun q member => isObject_of_holds (each q member)) objects

theorem exists_holds_iff (queries : List Json) (document : Json) :
    (∃ q ∈ queries, (compile q).holds document = true) ↔
      .ok true ∈ queries.map fun q => (compile q).evaluate document := by
  simp only [Predicate.holds_iff, List.mem_map]

/-- A disjunction matches exactly if one of its queries does and no fault hides it, and is "one of
its queries matches" exactly when no fault hides a match. -/
theorem holds_anyOf (objects : ∀ q ∈ queries, q.isObject = true) (document : Json) :
    ((compile (anyOf queries)).holds document = true ↔
        (∃ q ∈ queries, (compile q).holds document = true) ∧
          ¬HidesMatch (queries.map fun q => (compile q).evaluate document)) ∧
      (((compile (anyOf queries)).holds document = true ↔
          ∃ q ∈ queries, (compile q).holds document = true) ↔
        ¬HidesMatch (queries.map fun q => (compile q).evaluate document)) := by
  have yes := exists_holds_iff queries document
  have exact : (compile (anyOf queries)).holds document = true ↔
      (∃ q ∈ queries, (compile q).holds document = true) ∧
        ¬HidesMatch (queries.map fun q => (compile q).evaluate document) := by
    rw [Predicate.holds_iff, evaluate_anyOf objects, firstOther_no_eq_yes_iff, yes]
  refine ⟨exact, ?_⟩
  constructor
  · intro documented hidden
    have present := yes.mpr (yes_mem_of_hidesMatch hidden)
    obtain ⟨_, shown⟩ := exact.mp (documented.mpr present)
    exact shown hidden
  · intro shown
    rw [exact]
    exact and_iff_left shown

/-- A match before the fault counts. -/
theorem holds_anyOf_match_first :
    let one : Json := .number (.natural 1 (by decide))
    let document : Json := .object [("a", .string "x"), ("b", one)]
    let queries : List Json := [.object [("b", one)], .object [("a", .object [("$gt", one)])]]
    (∀ q ∈ queries, q.isObject = true) ∧
      ((compile (anyOf queries)).holds document = true ↔
          (∃ q ∈ queries, (compile q).holds document = true) ∧
            ¬HidesMatch (queries.map fun q => (compile q).evaluate document)) ∧
        (((compile (anyOf queries)).holds document = true ↔
            ∃ q ∈ queries, (compile q).holds document = true) ↔
          ¬HidesMatch (queries.map fun q => (compile q).evaluate document)) :=
  ⟨by simp [Json.isObject], holds_anyOf (by simp [Json.isObject]) _⟩

/-- The same queries the other way about: the fault hides the match. -/
theorem fault_hides_match :
    ¬∀ queries : List Json, (∀ q ∈ queries, q.isObject = true) → ∀ document,
      (compile (anyOf queries)).holds document = true ↔
        ∃ q ∈ queries, (compile q).holds document = true := by
  intro documented
  let one : Json := .number (.natural 1 (by decide))
  let document : Json := .object [("a", .string "x"), ("b", one)]
  let faulty : Json := .object [("a", .object [("$gt", one)])]
  let matching : Json := .object [("b", one)]
  have matched : (compile matching).holds document = true := by decide
  have hidden : (compile (anyOf [faulty, matching])).holds document = false := by decide
  have claimed := (documented [faulty, matching] (by simp [faulty, matching, Json.isObject]) document).mpr
    ⟨matching, by simp, matched⟩
  rw [hidden] at claimed
  cases claimed

end Query

end DocQuery
