import DocQuery.Predicate.Equality
import DocQuery.Proofs.Json.Congruence
import DocQuery.Proofs.Predicate.Settled
import DocQuery.Proofs.Predicate.Verdict

/-!
# What a test depends on

A predicate sees a document only through its leaves: what the path of each leaf reaches. Documents in
which every leaf finds the same, or nothing in either, get the same verdict (`test_congr`), which may
name the same values with their keys in another order.
-/

namespace DocQuery

/-- Sameness of faults: of the same kind, about the same operator, and naming values that are the
same. -/
def Fault.same : Fault → Fault → Bool
  | .malformed a, .malformed b => a == b
  | .incomparable operator left right, .incomparable operator' left' right' =>
    operator == operator' && left.same left' && right.same right'
  | _, _ => false

def sameVerdict : Verdict → Verdict → Bool
  | .ok a, .ok b => a == b
  | .error e, .error f => e.same f
  | _, _ => false

theorem sameVerdict_ok {a b : Bool} (same : a = b) : sameVerdict (.ok a) (.ok b) = true :=
  beq_iff_eq.mpr same

theorem eq_ok_iff_of_sameVerdict {v w : Verdict} (same : sameVerdict v w = true) (answer : Bool) :
    v = .ok answer ↔ w = .ok answer := by
  cases v <;> cases w <;> simp_all [sameVerdict]

theorem sameVerdict_firstOther {answer : Bool} {vs ws : List Verdict}
    (pairs : List.Forall₂ (fun v w => sameVerdict v w = true) vs ws) :
    sameVerdict (firstOther answer vs) (firstOther answer ws) = true := by
  induction pairs with
  | nil => exact sameVerdict_ok rfl
  | @cons v w vs ws head _ ih =>
    by_cases passed : v = .ok answer
    · rw [passed, (eq_ok_iff_of_sameVerdict head answer).mp passed, firstOther_cons_same,
        firstOther_cons_same]
      exact ih
    · rw [firstOther_cons_other passed,
        firstOther_cons_other (mt (eq_ok_iff_of_sameVerdict head answer).mpr passed)]
      exact head

namespace Predicate

theorem sameClauses_iff {ps qs : List Predicate} :
    sameClauses ps qs = true ↔ List.Forall₂ (fun p q => p.same q = true) ps qs := by
  induction ps generalizing qs with
  | nil => cases qs <;> simp [sameClauses]
  | cons p ps ih => cases qs <;> simp [sameClauses, ih]

/-- The paths of the leaves reach related values, or nothing in either. -/
def Agree (R : Json → Json → Prop) (p : Predicate) (v w : Option Json) : Prop :=
  ∀ leaf path, Occurs leaf path p → leaf.isLeaf = true →
    Option.Rel R (Json.reach? path v) (Json.reach? path w)

section

variable {R : Json → Json → Prop} {p p' : Predicate} {v w : Option Json}

theorem Agree.inner {name : String} {inner : Predicate} (agree : Agree R (.field name inner) v w) :
    Agree R inner (Json.field? name v) (Json.field? name w) :=
  fun leaf path node looks => agree leaf (name :: path) (.field node) looks

theorem Agree.mono {clause : Predicate}
    (nodes : ∀ {node path}, Occurs node path clause → Occurs node path p) (agree : Agree R p v w) :
    Agree R clause v w :=
  fun leaf path there looks => agree leaf path (nodes there) looks

theorem Agree.here (agree : Agree R p v w) (looks : p.isLeaf = true) : Option.Rel R v w :=
  agree p [] .here looks

/-! ### Leaves -/

theorem any_congr {f g : Json → Bool} (pair : Option.Rel (fun a b => a.same b = true) v w)
    (alike : ∀ a b, v = some a → a.same b = true → f a = g b) : v.any f = w.any g := by
  cases pair with
  | none => rfl
  | some same => exact alike _ _ rfl same

theorem sameVerdict_testOrder {comparison : Comparison} {bound bound' : Json}
    (same : bound.same bound' = true) (pair : Option.Rel (fun a b => a.same b = true) v w) :
    sameVerdict (testOrder comparison bound v) (testOrder comparison bound' w) = true := by
  cases pair with
  | none => exact sameVerdict_ok rfl
  | @some a b left =>
    have order : a.order? bound = b.order? bound' :=
      (Json.order?_congr_left left bound).trans (Json.order?_congr_right same b)
    rw [testOrder, testOrder, order]
    cases b.order? bound' with
    | some order => exact sameVerdict_ok rfl
    | none => simp [sameVerdict, Fault.same, left, same]

/-- Leaves that are the same give the same verdict on values that are. -/
theorem sameVerdict_leaf (looks : p.isLeaf = true) (same : p.same p' = true)
    (literals : ∀ literal ∈ p.literals, literal.Settled) (value : ∀ a, v = some a → a.Settled)
    (pair : Option.Rel (fun a b => a.same b = true) v w) :
    sameVerdict (p.test v) (p'.test w) = true := by
  cases p <;> cases p' <;>
    simp only [Predicate.same, isLeaf, Bool.false_eq_true, beq_iff_eq, Bool.and_eq_true] at same looks
  case eq.eq expected expected' | ne.ne expected expected' =>
    have alike := any_congr (f := (·.equal expected)) (g := (·.equal expected')) pair
      fun a b found left => (Json.equal_congr_left (value a found) left expected).trans
        (Json.equal_congr_right (literals _ List.mem_cons_self) same b)
    simp only [test, alike, sameVerdict_ok]
  case ordered.ordered comparison bound comparison' bound' =>
    obtain ⟨rfl, same⟩ := same
    exact sameVerdict_testOrder same pair
  case oneOf.oneOf set set' | noneOf.noneOf set set' =>
    have alike := any_congr (f := Json.containsAny set) (g := Json.containsAny set') pair
      fun a b found left => (Json.containsAny_congr_left (value a found) left set).trans
        (Json.containsAny_congr_right literals (Json.sameItems_iff.mp same) b)
    simp only [test, alike, sameVerdict_ok]
  case present.present expected expected' =>
    subst same
    cases pair <;> exact sameVerdict_ok rfl

/-! ### Whole predicates -/

theorem sameVerdict_clauses {answer : Bool} {clauses clauses' : List Predicate}
    (same : sameClauses clauses clauses' = true)
    (alike : ∀ p ∈ clauses, ∀ p', p.same p' = true → sameVerdict (p.test v) (p'.test w) = true) :
    sameVerdict (firstOther answer (clauses.map (·.test v)))
      (firstOther answer (clauses'.map (·.test w))) = true := by
  refine sameVerdict_firstOther ?_
  rw [List.forall₂_map_left_iff, List.forall₂_map_right_iff]
  exact Json.forall₂_of_mem (sameClauses_iff.mp same) alike

theorem sameVerdict_test (literals : p.Settled) (value : ∀ a, v = some a → a.Settled)
    (same : p.same p' = true) (agree : Agree (fun a b => a.same b = true) p v w) :
    sameVerdict (p.test v) (p'.test w) = true := by
  induction p generalizing p' v w with
  | field name inner ih =>
    cases p' with
    | field name' inner' =>
      simp only [Predicate.same, Bool.and_eq_true, beq_iff_eq] at same
      obtain ⟨rfl, same⟩ := same
      have below := (settled_iff.mp literals).2 inner (List.mem_singleton_self _)
      rw [test, test]
      exact ih below (Json.settled_field? value) same agree.inner
    | _ => simp [Predicate.same] at same
  | all clauses ih =>
    cases p' with
    | all clauses' =>
      rw [test_all, test_all]
      refine sameVerdict_clauses same fun p member p' same => ?_
      exact ih p member ((settled_iff.mp literals).2 p member) value same (agree.mono (.all member))
    | _ => simp [Predicate.same] at same
  | any clauses ih =>
    cases p' with
    | any clauses' =>
      rw [test_any, test_any]
      refine sameVerdict_clauses same fun p member p' same => ?_
      exact ih p member ((settled_iff.mp literals).2 p member) value same (agree.mono (.any member))
    | _ => simp [Predicate.same] at same
  | malformed reason =>
    cases p' with
    | malformed reason' => exact same
    | _ => simp [Predicate.same] at same
  | _ => exact sameVerdict_leaf rfl same (settled_iff.mp literals).1 value (agree.here rfl)

/-- Leaves that find exactly the same leave no room for another verdict. -/
theorem test_eq_of_agree (agree : Agree Eq p v w) : p.test v = p.test w := by
  induction p generalizing v w with
  | field name inner ih => exact ih agree.inner
  | all clauses ih =>
    rw [test_all, test_all, List.map_congr_left fun p member => ih p member (agree.mono (.all member))]
  | any clauses ih =>
    rw [test_any, test_any, List.map_congr_left fun p member => ih p member (agree.mono (.any member))]
  | malformed reason => rfl
  | _ =>
    cases agree.here rfl with
    | none => rfl
    | some same => rw [same]

theorem rel_reach? (value : ∀ a, v = some a → a.Settled)
    (pair : Option.Rel (fun a b => a.same b = true) v w) (path : List String) :
    Option.Rel (fun a b => a.same b = true) (Json.reach? path v) (Json.reach? path w) := by
  induction path generalizing v w with
  | nil => exact pair
  | cons name path ih => exact ih (Json.settled_field? value) (Json.rel_field? value pair name)

end

/-- Predicates that are the same give the same verdict on two documents, faults included, if every
leaf finds values that are the same, or nothing in either. So they do on documents that are the
same, whatever the order of their keys, and a predicate gives the very same verdict on documents
that differ only where no leaf looks. -/
theorem test_congr :
    (∀ (p p' : Predicate) (v w : Json), p.Settled → v.Settled → p.same p' = true →
        Agree (fun a b => a.same b = true) p (some v) (some w) →
          sameVerdict (p.test (some v)) (p'.test (some w)) = true) ∧
      (∀ (p p' : Predicate) (v w : Json), p.Settled → v.Settled → p.same p' = true →
        v.same w = true → sameVerdict (p.test (some v)) (p'.test (some w)) = true) ∧
      ∀ (p : Predicate) (v w : Json), Agree Eq p (some v) (some w) →
        p.test (some v) = p.test (some w) := by
  have known : ∀ {v : Json}, v.Settled → ∀ a, some v = some a → a.Settled := by
    rintro v settled _ ⟨⟩
    exact settled
  refine ⟨?_, ?_, fun p v w => test_eq_of_agree⟩
  · intro p p' v w literals settled same agree
    exact sameVerdict_test literals (known settled) same agree
  · intro p p' v w literals settled same alike
    exact sameVerdict_test literals (known settled) same
      fun _ path _ _ => rel_reach? (known settled) (.some alike) path

/-- A fault that names two objects. In the other document their keys are turned round, as they are in
the other predicate, and the entries beside the field differ too. -/
theorem test_congr_turned :
    let one : Json := .number (.natural 1 (by decide))
    let pair : Json := .object [("x", one), ("y", .null)]
    let turned : Json := .object [("y", .null), ("x", one)]
    let p : Predicate := .field "a" (.ordered .gt pair)
    let p' : Predicate := .field "a" (.ordered .gt turned)
    let v : Json := .object [("a", pair), ("b", one)]
    let other : Json := .object [("c", .null), ("a", turned)]
    let reordered : Json := .object [("b", one), ("a", turned)]
    let less : Json := .object [("a", pair)]
    p.test (some v) = .error (.incomparable "$gt" pair pair) ∧
      p.Settled ∧ v.Settled ∧ p.same p' = true ∧
        (Agree (fun a b => a.same b = true) p (some v) (some other) ∧
          sameVerdict (p.test (some v)) (p'.test (some other)) = true) ∧
          (v.same reordered = true ∧
            sameVerdict (p.test (some v)) (p'.test (some reordered)) = true) ∧
            Agree Eq p (some v) (some less) ∧ p.test (some v) = p.test (some less) := by
  intro one pair turned p p' v other reordered less
  have bound : pair.Settled := by simp [pair, one, Json.Settled, Json.SettledEntries]
  have literals : p.Settled :=
    settled_iff.mpr ⟨List.forall_mem_nil _, List.forall_mem_singleton.mpr
      (settled_iff.mpr ⟨List.forall_mem_singleton.mpr bound, List.forall_mem_nil _⟩)⟩
  have settled : v.Settled := by simp [v, pair, one, Json.Settled, Json.SettledEntries]
  have same : p.same p' = true := by decide
  have agree : Agree (fun a b => a.same b = true) (.field "a" (.ordered .gt pair))
      (some v) (some other) := by
    rintro leaf _ (_ | ⟨_ | _⟩) looks
    · cases looks
    · exact .some (by decide)
  have agree' : Agree Eq (.field "a" (.ordered .gt pair)) (some v) (some less) := by
    rintro leaf _ (_ | ⟨_ | _⟩) looks
    · cases looks
    · exact .some rfl
  have alike : v.same reordered = true := by decide
  exact ⟨rfl, literals, settled, same,
    ⟨agree, test_congr.1 p p' v other literals settled same agree⟩,
    ⟨alike, test_congr.2.1 p p' v reordered literals settled same alike⟩,
    agree', test_congr.2.2 p v less agree'⟩

end Predicate

end DocQuery
