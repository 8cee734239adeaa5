import DocQuery.Proofs.Predicate.Tree
import DocQuery.Proofs.Predicate.Verdict

/-!
# Where faults come from

A test faults for one of two reasons only: it has come to a malformed node, or to an ordering node
whose bound has no order with the value that the node's path reaches (`fault_source`). So an absent
value never faults on a predicate without malformed nodes.
-/

namespace DocQuery

namespace Predicate

/-- A node of the predicate explains the fault of a test against the value. -/
inductive Explains (p : Predicate) (value : Option Json) : Fault → Prop
  | malformed {path : List String} {reason : Malformed} :
      Occurs (.malformed reason) path p → Explains p value (.malformed reason)
  | incomparable {path : List String} {comparison : Comparison} {bound left : Json} :
      Occurs (.ordered comparison bound) path p → Json.reach? path value = some left →
        ¬Json.Comparable left bound → Explains p value (.incomparable comparison.operator left bound)

theorem Explains.field {name : String} {inner : Predicate} {value : Option Json} {cause : Fault}
    (found : Explains inner (Json.field? name value) cause) :
    Explains (.field name inner) value cause := by
  cases found with
  | malformed node => exact .malformed (.field node)
  | incomparable node reached unordered => exact .incomparable (.field node) reached unordered

/-- What a clause explains, so does a predicate that has all nodes of the clause. -/
theorem Explains.mono {clause p : Predicate} {value : Option Json} {cause : Fault}
    (nodes : ∀ {node path}, Occurs node path clause → Occurs node path p)
    (found : Explains clause value cause) : Explains p value cause := by
  cases found with
  | malformed node => exact .malformed (nodes node)
  | incomparable node reached unordered => exact .incomparable (nodes node) reached unordered

theorem explains_of_testOrder {comparison : Comparison} {bound : Json} {value : Option Json}
    {cause : Fault} (faulted : testOrder comparison bound value = .error cause) :
    Explains (.ordered comparison bound) value cause := by
  cases value with
  | none => cases faulted
  | some left =>
    cases compared : left.order? bound with
    | some order =>
      rw [testOrder, compared] at faulted
      cases faulted
    | none =>
      rw [testOrder, compared] at faulted
      obtain rfl := Except.error.inj faulted
      refine .incomparable .here rfl fun comparable => ?_
      obtain ⟨order, ordered⟩ := Json.comparable_iff.mp comparable
      rw [compared] at ordered
      cases ordered

/-- The clause that a fault of a list of clauses comes from. -/
theorem clause_of_firstOther {answer : Bool} {clauses : List Predicate} {value : Option Json}
    {cause : Fault} (faulted : firstOther answer (clauses.map (·.test value)) = .error cause) :
    ∃ clause ∈ clauses, clause.test value = .error cause :=
  List.mem_map.mp (error_mem_of_firstOther faulted)

theorem explains_of_test {p : Predicate} {value : Option Json} {cause : Fault}
    (faulted : p.test value = .error cause) : Explains p value cause := by
  induction p generalizing value with
  | field name inner ih =>
    rw [test] at faulted
    exact (ih faulted).field
  | ordered comparison bound => exact explains_of_testOrder faulted
  | all clauses ih =>
    rw [test_all] at faulted
    obtain ⟨clause, member, faulted⟩ := clause_of_firstOther faulted
    exact (ih clause member faulted).mono (.all member)
  | any clauses ih =>
    rw [test_any] at faulted
    obtain ⟨clause, member, faulted⟩ := clause_of_firstOther faulted
    exact (ih clause member faulted).mono (.any member)
  | malformed reason =>
    obtain rfl := Except.error.inj faulted
    exact .malformed .here
  | _ => cases faulted

/-- A predicate without malformed nodes answers if every ordering node gets nothing, or a value with
an order against its bound. -/
theorem answers_of_comparable {p : Predicate} {value : Option Json}
    (sound : ∀ path reason, ¬Occurs (.malformed reason) path p)
    (comparable : ∀ path comparison bound left, Occurs (.ordered comparison bound) path p →
      Json.reach? path value = some left → Json.Comparable left bound) :
    ∃ answer, p.test value = .ok answer := by
  cases verdict : p.test value with
  | ok answer => exact ⟨answer, rfl⟩
  | error cause =>
    cases explains_of_test verdict with
    | malformed node => exact absurd node (sound _ _)
    | incomparable node reached unordered =>
      exact absurd (comparable _ _ _ _ node reached) unordered

/-- Every fault is that of a malformed node, or names an ordering node's operator and bound and the
value that the node's path reaches, which has no order with the bound. Without malformed nodes there
is an answer for an absent value, and for each value in which the paths of the ordering nodes reach
nothing or a value of their bound's kind. -/
theorem fault_source :
    (∀ (p : Predicate) (value : Option Json) (cause : Fault),
        p.test value = .error cause → Explains p value cause) ∧
      ∀ p : Predicate, (∀ path reason, ¬Occurs (.malformed reason) path p) →
        (∃ answer, p.test none = .ok answer) ∧
          ∀ value : Option Json,
            (∀ path comparison bound left, Occurs (.ordered comparison bound) path p →
              Json.reach? path value = some left → Json.Comparable left bound) →
            ∃ answer, p.test value = .ok answer := by
  refine ⟨fun _ _ _ => explains_of_test, fun p sound => ⟨?_, fun value => answers_of_comparable sound⟩⟩
  refine answers_of_comparable sound fun path _ _ left _ reached => ?_
  rw [Json.reach?_none] at reached
  cases reached

/-- Two fields down, a text has no order with the bound, and a number that passes lets the test come
to the malformed node. Without that node the number gets an answer. -/
theorem fault_source_nested :
    let one : Json := .number (.natural 1 (by decide))
    let text : Json := .string "x"
    let wrong : Fault := .malformed (.expectedArray "$in")
    let unordered : Fault := .incomparable "$gte" text one
    let bounded : Predicate := .field "b" (.ordered .gte one)
    let p : Predicate := .field "a" (.all [bounded, .malformed (.expectedArray "$in")])
    let document (v : Json) : Option Json := some (.object [("a", .object [("b", v)])])
    (p.test (document text) = .error unordered ∧ Explains p (document text) unordered) ∧
      (p.test (document one) = .error wrong ∧ Explains p (document one) wrong) ∧
        (∀ path reason, ¬Occurs (.malformed reason) path (.field "a" bounded)) ∧
          (∃ answer, (Predicate.field "a" bounded).test none = .ok answer) ∧
            ∃ answer, (Predicate.field "a" bounded).test (document one) = .ok answer := by
  intro one text wrong unordered bounded p document
  have sound : ∀ path reason,
      ¬Occurs (.malformed reason) path (.field "a" (.field "b" (.ordered .gte one))) := by
    rintro _ _ (_ | ⟨_ | ⟨_ | _⟩⟩)
  have answers := fault_source.2 (.field "a" bounded) sound
  have comparable : ∀ path comparison bound left,
      Occurs (.ordered comparison bound) path (.field "a" (.field "b" (.ordered .gte one))) →
        Json.reach? path (document one) = some left → Json.Comparable left bound := by
    rintro _ _ _ left (_ | ⟨_ | ⟨_ | _⟩⟩) reached
    obtain rfl := Option.some.inj reached
    exact .numbers _ _
  exact ⟨⟨rfl, fault_source.1 p _ _ rfl⟩, ⟨rfl, fault_source.1 p _ _ rfl⟩, sound, answers.1,
    answers.2 _ comparable⟩

end Predicate

end DocQuery
