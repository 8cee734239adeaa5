import DocQuery.Proofs.Json.Sameness
import DocQuery.Proofs.Query.Connectives

/-!
# The order of keys

The order of a query's keys decides which clause is tried first, and so whether a document that does
not match gets "no" or a fault. It never decides whether the document matches, as long as the query
uses no disjunction (`holds_congr`): all that is asked of a conjunction is that every clause says
"yes".
-/

namespace DocQuery

namespace Predicate

def SameYes (p p' : Predicate) : Prop := ∀ value, p.test value = .ok true ↔ p'.test value = .ok true

theorem SameYes.of_test_eq {p p' : Predicate} (same : ∀ value, p.test value = p'.test value) :
    SameYes p p' := fun value => by rw [same]

theorem SameYes.holds_eq {p p' : Predicate} (same : SameYes p p') (document : Json) :
    p.holds document = p'.holds document :=
  Bool.eq_iff_iff.mpr (holds_iff.trans ((same (some document)).trans holds_iff.symm))

end Predicate

namespace Query

open Predicate (SameYes)

/-- The query uses the operator: it is the key of an entry, of the query itself, of a query in a
connective, or of the query of a field. Keys inside values to compare with do not count. -/
inductive Uses (op : Operator) : Json → Prop
  | key {entries : List (String × Json)} {argument : Json} :
      (op.name, argument) ∈ entries → Uses op (.object entries)
  | connective {entries : List (String × Json)} {other : Operator} {queries : List Json} {q : Json} :
      other = .all ∨ other = .any → (other.name, .array queries) ∈ entries → q ∈ queries →
        Uses op q → Uses op (.object entries)
  | field {entries : List (String × Json)} {key : String} {argument : Json} :
      Operator.ofName? key = none → (key, argument) ∈ entries → Uses op argument →
        Uses op (.object entries)

theorem Uses.isObject {op : Operator} {q : Json} (used : Uses op q) : q.isObject = true := by
  cases used <;> rfl

/-- An entry of a query, as a query of its own. -/
def single (key : String) (argument : Json) : Json := .object [(key, argument)]

theorem Uses.of_single {op : Operator} {entries : List (String × Json)} {key : String}
    {argument : Json} (member : (key, argument) ∈ entries) (used : Uses op (single key argument)) :
    Uses op (.object entries) := by
  cases used with
  | key there =>
    obtain ⟨rfl, rfl⟩ := Prod.mk.inj (List.mem_singleton.mp there)
    exact .key member
  | connective connects there inside used =>
    obtain ⟨rfl, rfl⟩ := Prod.mk.inj (List.mem_singleton.mp there)
    exact .connective connects member inside used
  | field named there used =>
    obtain ⟨rfl, rfl⟩ := Prod.mk.inj (List.mem_singleton.mp there)
    exact .field named member used

/-! ### Clauses with arguments that are the same -/

theorem sameYes_operatorClause (op : Operator) {a b : Json} (settled : a.Settled)
    (same : a.same b = true) : SameYes (operatorClause op a) (operatorClause op b) := by
  cases op with
  | eq | ne =>
    refine .of_test_eq fun value => ?_
    simp only [operatorClause, Predicate.test, Json.equal_congr_right settled same]
  | ordered comparison =>
    -- The verdicts themselves may differ: a fault names the bound as it is written.
    intro value
    cases value with
    | none => exact Iff.rfl
    | some v =>
      simp only [operatorClause, Predicate.test, Predicate.testOrder, Json.order?_congr_right same]
      split <;> simp
  | oneOf | noneOf =>
    cases a with
    | array set =>
      obtain ⟨others, rfl, pairs⟩ := Json.same_array same
      have elements := Json.containsAny_congr_right (Json.settled_array.mp settled) pairs
      refine .of_test_eq fun value => ?_
      simp only [operatorClause, Predicate.test, funext elements]
    | _ => cases b <;> first | exact fun _ => Iff.rfl | simp [Json.same] at same
  | present =>
    cases a <;> cases b <;> simp only [Json.same, Bool.false_eq_true, beq_iff_eq] at same
    case bool.bool => subst same; exact fun _ => Iff.rfl
    all_goals exact fun _ => Iff.rfl
  | all | any => exact fun _ => Iff.rfl

/-! ### Conjunctions -/

theorem forall_iff_of_forall₂ {A : Json → Prop} {xs ys : List Json}
    (pairs : List.Forall₂ (fun x y => A x ↔ A y) xs ys) : (∀ x ∈ xs, A x) ↔ ∀ y ∈ ys, A y := by
  induction pairs with
  | nil => simp
  | cons head _ ih => rw [List.forall_mem_cons, List.forall_mem_cons, head, ih]

theorem sameYes_all {queries others : List Json}
    (same : List.Forall₂ (fun q r => q.same r = true) queries others)
    (clauses : List.Forall₂ (fun q r => SameYes (compile q) (compile r)) queries others) :
    SameYes (compileEntry "$and" (.array queries)) (compileEntry "$and" (.array others)) := by
  intro value
  have shapes : (∀ q ∈ queries, q.isObject = true) ↔ ∀ r ∈ others, r.isObject = true :=
    forall_iff_of_forall₂ (same.imp fun _ _ h => by rw [Json.isObject_of_same h])
  by_cases objects : ∀ q ∈ queries, q.isObject = true
  · rw [test_compileEntry_all objects, test_compileEntry_all (shapes.mp objects),
      firstOther_eq_self_iff, firstOther_eq_self_iff, List.forall_mem_map, List.forall_mem_map]
    exact forall_iff_of_forall₂ (clauses.imp fun _ _ h => h value)
  · rw [compileEntry_all, compileEntry_all, compileQueries_of_other objects,
      compileQueries_of_other (mt shapes.mpr objects)]

/-! ### Queries -/

/-- Entries with the same key agree if their arguments do as queries, and so do the elements of
their arguments. -/
theorem sameYes_compileEntry {key : String} {a b : Json} (settled : a.Settled)
    (same : a.same b = true) (plain : ¬Uses .any (single key a))
    (asQuery : ¬Uses .any a → SameYes (compile a) (compile b))
    (elements : ∀ queries, a = .array queries → ∀ q ∈ queries, ∀ r, q.same r = true →
      ¬Uses .any q → SameYes (compile q) (compile r)) :
    SameYes (compileEntry key a) (compileEntry key b) := by
  cases named : Operator.ofName? key with
  | none =>
    by_cases query : a.isObject = true
    · have inner : ¬Uses .any a := fun used => plain (.field named (List.mem_singleton_self _) used)
      cases a with
      | object entries =>
        cases b with
        | object others =>
          rw [compileEntry_field named, compileEntry_field named]
          exact fun value => asQuery inner (Json.field? key value)
        | _ => simp [Json.same] at same
      | _ => cases query
    · have literal := Bool.eq_false_iff.mpr query
      rw [compileEntry_literal named literal,
        compileEntry_literal named ((Json.isObject_of_same same).symm.trans literal)]
      refine .of_test_eq fun value => ?_
      simp only [Predicate.test, Json.equal_congr_right settled same]
  | some op =>
    obtain rfl := Operator.name_of_ofName? named
    by_cases connective : a.isArray = true ∧ (op = .all ∨ op = .any)
    · obtain ⟨array, rfl | rfl⟩ := connective
      · cases a with
        | array queries =>
          obtain ⟨others, rfl, pairs⟩ := Json.same_array same
          refine sameYes_all pairs (Json.forall₂_of_mem pairs fun q member r alike => ?_)
          refine elements queries rfl q member r alike fun used => plain ?_
          exact .connective (.inl rfl) (List.mem_singleton_self _) member used
        | _ => cases array
      · exact absurd (.key (List.mem_singleton_self _)) plain
    · have clause : ∀ c : Json, c.isArray = a.isArray → c.isArray = true → op ≠ .all ∧ op ≠ .any := by
        intro c shape array
        exact not_or.mp fun connects => connective ⟨shape.symm.trans array, connects⟩
      rw [compileEntry_operator op (clause a rfl),
        compileEntry_operator op (clause b (Json.isArray_of_same same).symm)]
      exact sameYes_operatorClause op settled same

theorem sameYes_query_and_entry (q : Json) :
    (∀ other, q.Settled → q.same other = true → ¬Uses .any q →
        SameYes (compile q) (compile other)) ∧
      ∀ key other, q.Settled → q.same other = true → ¬Uses .any (single key q) →
        SameYes (compileEntry key q) (compileEntry key other) := by
  have faulty : ∀ a b : Json, a.same b = true → a.isObject = false →
      SameYes (compile a) (compile b) := by
    intro a b same shape
    rw [compile_other shape, compile_other ((Json.isObject_of_same same).symm.trans shape)]
    exact fun _ => Iff.rfl
  induction q with
  | array queries ih =>
    refine ⟨fun other _ same _ => faulty _ other same rfl, ?_⟩
    intro key other settled same plain
    refine sameYes_compileEntry settled same plain (fun _ => faulty _ other same rfl) ?_
    rintro _ ⟨⟩ q member r alike unused
    exact (ih q member).1 r (Json.settled_array.mp settled q member) alike unused
  | object entries ih =>
    have whole : ∀ other, (Json.object entries).Settled → (Json.object entries).same other = true →
        ¬Uses .any (.object entries) → SameYes (compile (.object entries)) (compile other) := by
      intro other settled same plain value
      obtain ⟨unique, inner⟩ := Json.settled_object.mp settled
      obtain ⟨others, rfl, _, unique', pairs⟩ := Json.same_object unique same
      rw [test_compile_object, test_compile_object, firstOther_eq_self_iff, firstOther_eq_self_iff,
        List.forall_mem_map, List.forall_mem_map]
      refine Json.forall_entries_iff (A := fun key a => (compileEntry key a).test value = .ok true)
        unique unique' pairs fun key v w member alike => ?_
      exact (ih _ member).2 key w (inner _ member) alike (mt (Uses.of_single member) plain) value
    refine ⟨whole, fun key other settled same plain => ?_⟩
    exact sameYes_compileEntry settled same plain (whole other settled same) nofun
  | _ =>
    refine ⟨fun other _ same _ => faulty _ other same rfl, ?_⟩
    intro key other settled same plain
    exact sameYes_compileEntry settled same plain (fun _ => faulty _ other same rfl) nofun

theorem holds_congr {q other : Json} (settled : q.Settled) (same : q.same other = true)
    (plain : ¬Uses .any q) (document : Json) :
    (compile q).holds document = (compile other).holds document :=
  ((sameYes_query_and_entry q).1 other settled same plain).holds_eq document

/-- A conjunction matches exactly if each of its queries does. The order of keys, at every depth and
also in values to compare with, is nothing to a query without disjunctions. -/
theorem conjunction_and_key_order :
    (∀ queries : List Json, (∀ q ∈ queries, q.isObject = true) → ∀ document,
        ((compile (allOf queries)).holds document = true ↔
          ∀ q ∈ queries, (compile q).holds document = true)) ∧
      ∀ q other : Json, q.Settled → q.same other = true → ¬Uses .any q → ∀ document,
        (compile q).holds document = (compile other).holds document :=
  ⟨fun _ => holds_allOf, fun _ _ => holds_congr⟩

/-- One order of the keys faults and the other is "no"; neither is a match. -/
theorem conjunction_and_key_order_fault :
    let one : Json := .number (.natural 1 (by decide))
    let document : Json := .object [("a", .string "x"), ("b", .null)]
    let greater : Json := .object [("$gt", one)]
    let q : Json := .object [("a", greater), ("b", one)]
    let other : Json := .object [("b", one), ("a", greater)]
    (∃ cause, (compile q).evaluate document = .error cause) ∧
      (compile other).evaluate document = .ok false ∧
        (compile q).holds document = (compile other).holds document ∧
          ((compile (allOf [single "a" greater, single "b" one])).holds document = true ↔
            ∀ q ∈ [single "a" greater, single "b" one], (compile q).holds document = true) := by
  intro one document greater q other
  have settled : q.Settled := by simp [q, greater, one, Json.Settled, Json.SettledEntries]
  have same : q.same other = true := by decide
  have unused : ¬Uses .any (.object [("$gt", one)]) := by
    rintro (member | ⟨rfl | rfl, member, _⟩ | ⟨named, member, inside⟩)
    · simp [Operator.name] at member
    · simp [Operator.name] at member
    · simp [Operator.name] at member
    · obtain ⟨rfl, rfl⟩ := Prod.mk.inj (List.mem_singleton.mp member)
      cases inside.isObject
  have plain : ¬Uses .any (.object [("a", greater), ("b", one)]) := by
    rintro (member | ⟨rfl | rfl, member, _⟩ | ⟨named, member, inside⟩)
    · simp [Operator.name] at member
    · simp [Operator.name] at member
    · simp [Operator.name] at member
    · rcases List.mem_cons.mp member with head | last
      · obtain ⟨rfl, rfl⟩ := Prod.mk.inj head
        exact unused inside
      · obtain ⟨rfl, rfl⟩ := Prod.mk.inj (List.mem_singleton.mp last)
        cases inside.isObject
  exact ⟨⟨_, rfl⟩, rfl, conjunction_and_key_order.2 q other settled same plain document,
    conjunction_and_key_order.1 _ (by simp [single, Json.isObject]) document⟩

end Query

end DocQuery
