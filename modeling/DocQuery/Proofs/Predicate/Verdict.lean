import DocQuery.Predicate.Test

/-!
# Verdicts

A conjunction gives the first verdict of its clauses that is not "yes", and a disjunction the first
that is not "no" (`test_all`, `test_any`). A document matches exactly if the verdict is "yes".
-/

namespace DocQuery

/-- Whether a verdict is that answer. -/
def gives (answer : Bool) : Verdict → Bool
  | .ok given => given == answer
  | .error _ => false

theorem gives_iff {answer : Bool} {v : Verdict} : gives answer v = true ↔ v = .ok answer := by
  cases v <;> simp [gives]

/-- The first verdict that is not that answer, and that answer when there is none. -/
def firstOther (answer : Bool) (verdicts : List Verdict) : Verdict :=
  (verdicts.find? fun v => !gives answer v).getD (.ok answer)

theorem firstOther_nil (answer : Bool) : firstOther answer [] = .ok answer := rfl

theorem firstOther_cons_same (answer : Bool) (rest : List Verdict) :
    firstOther answer (.ok answer :: rest) = firstOther answer rest := by
  simp [firstOther, gives]

theorem firstOther_cons_other {answer : Bool} {v : Verdict} (other : v ≠ .ok answer)
    (rest : List Verdict) : firstOther answer (v :: rest) = v := by
  have passed : gives answer v = false := Bool.eq_false_iff.mpr (mt gives_iff.mp other)
  simp [firstOther, passed]

theorem firstOther_eq_self_iff {answer : Bool} {verdicts : List Verdict} :
    firstOther answer verdicts = .ok answer ↔ ∀ v ∈ verdicts, v = .ok answer := by
  induction verdicts with
  | nil => simp [firstOther_nil]
  | cons v rest ih =>
    by_cases same : v = .ok answer
    · subst same
      simp [firstOther_cons_same, ih]
    · simp [firstOther_cons_other same, same]

/-- A fault of a list of clauses is that of one of them. -/
theorem error_mem_of_firstOther {answer : Bool} {verdicts : List Verdict} {cause : Fault}
    (faulted : firstOther answer verdicts = .error cause) : .error cause ∈ verdicts := by
  induction verdicts with
  | nil => cases faulted
  | cons v rest ih =>
    by_cases same : v = .ok answer
    · rw [same, firstOther_cons_same] at faulted
      exact List.mem_cons_of_mem _ (ih faulted)
    · rw [firstOther_cons_other same] at faulted
      exact faulted ▸ List.mem_cons_self

namespace Predicate

theorem testAll_eq (clauses : List Predicate) (value : Option Json) :
    testAll clauses value = firstOther true (clauses.map (·.test value)) := by
  induction clauses with
  | nil => rfl
  | cons clause rest ih =>
    rw [testAll, List.map_cons]
    split
    · rename_i yes
      rw [yes, firstOther_cons_same, ih]
    · rename_i other
      exact (firstOther_cons_other other _).symm

theorem testAny_eq (clauses : List Predicate) (value : Option Json) :
    testAny clauses value = firstOther false (clauses.map (·.test value)) := by
  induction clauses with
  | nil => rfl
  | cons clause rest ih =>
    rw [testAny, List.map_cons]
    split
    · rename_i no
      rw [no, firstOther_cons_same, ih]
    · rename_i other
      exact (firstOther_cons_other other _).symm

theorem test_all (clauses : List Predicate) (value : Option Json) :
    (all clauses).test value = firstOther true (clauses.map (·.test value)) := by
  rw [test, testAll_eq]

theorem test_any (clauses : List Predicate) (value : Option Json) :
    (any clauses).test value = firstOther false (clauses.map (·.test value)) := by
  rw [test, testAny_eq]

theorem holds_iff {p : Predicate} {document : Json} :
    p.holds document = true ↔ p.evaluate document = .ok true := by
  unfold holds
  split <;> simp_all

end Predicate

end DocQuery
