import DocQuery.Query.Compile
import DocQuery.Proofs.Json.Tree
import DocQuery.Proofs.Predicate.Tree
import DocQuery.Proofs.Predicate.Verdict

/-!
# What queries compile to

One equation for each shape of entry, and the lists that compiling builds as maps. The test of a
query's entries is the first verdict that is not "yes" (`test_compileEntries`), whether they are
none, one or many.
-/

namespace DocQuery

namespace Operator

theorem ofName?_name (op : Operator) : ofName? op.name = some op := by
  cases op with
  | ordered comparison => cases comparison <;> decide
  | _ => decide

theorem name_of_ofName? {key : String} {op : Operator} (named : ofName? key = some op) :
    key = op.name := by
  unfold ofName? at named
  have same := List.find?_some named
  exact (beq_iff_eq.mp same).symm

end Operator

namespace Query

/-! ### Entries -/

theorem compileEntry_literal {key : String} {argument : Json} (field : Operator.ofName? key = none)
    (literal : argument.isObject = false) :
    compileEntry key argument = .field key (.eq argument) := by
  rw [compileEntry.eq_def, field]
  cases argument with
  | object => cases literal
  | _ => rfl

theorem compileEntry_field {key : String} {entries : List (String × Json)}
    (field : Operator.ofName? key = none) :
    compileEntry key (.object entries) = .field key (compile (.object entries)) := by
  rw [compileEntry.eq_def, field]
  rfl

theorem compileEntry_all (queries : List Json) :
    compileEntry "$and" (.array queries) = connectiveClause .all .all (compileQueries queries) := by
  have named : Operator.ofName? "$and" = some .all := Operator.ofName?_name .all
  rw [compileEntry.eq_def, named]

theorem compileEntry_any (queries : List Json) :
    compileEntry "$or" (.array queries) = connectiveClause .any .any (compileQueries queries) := by
  have named : Operator.ofName? "$or" = some .any := Operator.ofName?_name .any
  rw [compileEntry.eq_def, named]

/-- An operator that takes no queries, or is given something else. -/
theorem compileEntry_operator (op : Operator) {argument : Json}
    (plain : argument.isArray = true → op ≠ .all ∧ op ≠ .any) :
    compileEntry op.name argument = operatorClause op argument := by
  rw [compileEntry.eq_def, Operator.ofName?_name op]
  cases argument with
  | array =>
    obtain ⟨notAll, notAny⟩ := plain rfl
    cases op with
    | all => exact absurd rfl notAll
    | any => exact absurd rfl notAny
    | _ => rfl
  | _ => cases op <;> rfl

/-! ### Lists of clauses and queries -/

theorem compile_other {q : Json} (other : q.isObject = false) :
    compile q = .malformed .notAnObject := by
  cases q with
  | object => cases other
  | _ => rfl

theorem compileClauses_eq (entries : List (String × Json)) :
    compileClauses entries = entries.map fun e => compileEntry e.1 e.2 := by
  induction entries with
  | nil => rfl
  | cons e rest ih => rw [compileClauses, ih, List.map_cons]

theorem compileEntries_conjunction (first second : String × Json) (rest : List (String × Json)) :
    compileEntries (first :: second :: rest) =
      .all ((first :: second :: rest).map fun e => compileEntry e.1 e.2) := by
  rw [compileEntries, compileClauses_eq]
  rfl

theorem compileQueries_of_objects {queries : List Json} (objects : ∀ q ∈ queries, q.isObject = true) :
    compileQueries queries = some (queries.map compile) := by
  induction queries with
  | nil => rfl
  | cons q rest ih =>
    obtain ⟨first, others⟩ := List.forall_mem_cons.mp objects
    cases q with
    | object entries => simp only [compileQueries, ih others, Option.map_some, List.map_cons, compile]
    | _ => cases first

theorem compileQueries_of_other {queries : List Json} (other : ¬∀ q ∈ queries, q.isObject = true) :
    compileQueries queries = none := by
  induction queries with
  | nil => exact absurd nofun other
  | cons head rest ih =>
    cases head with
    | object entries =>
      have later : ¬∀ q ∈ rest, q.isObject = true :=
        fun objects => other (List.forall_mem_cons.mpr ⟨rfl, objects⟩)
      rw [compileQueries, ih later, Option.map_none]
    | _ => rfl

/-- A connective has the predicates of its queries as clauses, unless one of them is no object. -/
theorem connectiveClause_cases {motive : Predicate → Prop} {op : Operator}
    {node : List Predicate → Predicate} {queries : List Json}
    (clauses : (∀ q ∈ queries, q.isObject = true) → motive (node (queries.map compile)))
    (spoilt : motive (.malformed (.expectedDocument op.name))) :
    motive (connectiveClause op node (compileQueries queries)) := by
  by_cases objects : ∀ q ∈ queries, q.isObject = true
  · rw [compileQueries_of_objects objects]
    exact clauses objects
  · rw [compileQueries_of_other objects]
    exact spoilt

/-- All that an entry can compile to, by the kind of its key and its argument. -/
theorem compileEntry_cases {motive : Predicate → Prop} (key : String) (argument : Json)
    (literal : Operator.ofName? key = none → argument.isObject = false →
      motive (.field key (.eq argument)))
    (query : Operator.ofName? key = none → argument.isObject = true →
      motive (.field key (compile argument)))
    (operator : ∀ op : Operator, key = op.name → (argument.isArray = true → op ≠ .all ∧ op ≠ .any) →
      motive (operatorClause op argument))
    (all : ∀ queries, key = "$and" → argument = .array queries →
      motive (connectiveClause .all .all (compileQueries queries)))
    (any : ∀ queries, key = "$or" → argument = .array queries →
      motive (connectiveClause .any .any (compileQueries queries))) :
    motive (compileEntry key argument) := by
  cases named : Operator.ofName? key with
  | none =>
    by_cases object : argument.isObject = true
    · cases argument with
      | object entries =>
        rw [compileEntry_field named]
        exact query named object
      | _ => cases object
    · have plain := Bool.eq_false_iff.mpr object
      rw [compileEntry_literal named plain]
      exact literal named plain
  | some op =>
    obtain rfl := Operator.name_of_ofName? named
    by_cases plain : argument.isArray = true → op ≠ .all ∧ op ≠ .any
    · rw [compileEntry_operator op plain]
      exact operator op rfl plain
    · cases argument with
      | array queries =>
        cases op with
        | all =>
          rw [Operator.name, compileEntry_all]
          exact all queries rfl rfl
        | any =>
          rw [Operator.name, compileEntry_any]
          exact any queries rfl rfl
        | _ => simp at plain
      | _ => simp [Json.isArray] at plain

/-! ### Nodes -/

/-- Induction over queries together with their entries. An argument is a query itself, or has queries
for elements. -/
theorem induct {A : Json → Prop} {B : String → Json → Prop}
    (other : ∀ q, q.isObject = false → A q)
    (object : ∀ entries, (∀ e ∈ entries, B e.1 e.2) → A (.object entries))
    (entry : ∀ key argument, A argument →
      (∀ queries, argument = .array queries → ∀ q ∈ queries, A q) → B key argument) (q : Json) :
    A q ∧ ∀ key, B key q := by
  induction q with
  | array queries ih =>
    have whole := other (.array queries) rfl
    refine ⟨whole, fun key => entry key _ whole ?_⟩
    rintro _ ⟨⟩ q member
    exact (ih q member).1
  | object entries ih =>
    have whole := object entries fun e member => (ih e member).2 e.1
    exact ⟨whole, fun key => entry key _ whole nofun⟩
  | _ => exact ⟨other _ rfl, fun key => entry key _ (other _ rfl) nofun⟩

/-- A conjunction of entries adds no node of its own but itself. -/
theorem everywhere_compileEntries {A : Predicate → Prop} (conjunction : ∀ clauses, A (.all clauses))
    (entries : List (String × Json)) :
    Predicate.Everywhere A (compileEntries entries) ↔
      ∀ e ∈ entries, Predicate.Everywhere A (compileEntry e.1 e.2) := by
  match entries with
  | [] =>
    have empty := Predicate.everywhere_of_childless (conjunction []) rfl
    exact iff_of_true empty (List.forall_mem_nil _)
  | [(key, argument)] => rw [List.forall_mem_singleton, compileEntries]
  | first :: second :: rest =>
    rw [compileEntries_conjunction, Predicate.everywhere_iff, and_iff_right (conjunction _)]
    exact List.forall_mem_map

theorem children_operatorClause (op : Operator) (argument : Json) :
    (operatorClause op argument).children = [] := by
  cases op <;> cases argument <;> rfl

theorem literals_operatorClause {op : Operator} {argument literal : Json}
    (member : literal ∈ (operatorClause op argument).literals) :
    literal = argument ∨ ∃ set, argument = .array set ∧ literal ∈ set := by
  cases op with
  | eq | ne | ordered => exact .inl (List.mem_singleton.mp member)
  | oneOf | noneOf =>
    cases argument with
    | array set => exact .inr ⟨set, rfl, member⟩
    | _ => cases member
  | present => cases argument <;> cases member
  | all | any => cases member

theorem everyLiteral_compileEntry {P : Json → Prop} {argument : Json} (whole : P argument)
    (elements : ∀ items, argument = .array items → ∀ v ∈ items, P v)
    (asQuery : (compile argument).EveryLiteral P)
    (queries : ∀ items, argument = .array items → ∀ q ∈ items, (compile q).EveryLiteral P)
    (key : String) : (compileEntry key argument).EveryLiteral P := by
  have connective : ∀ {op : Operator} {node : List Predicate → Predicate} {items : List Json},
      argument = .array items → (∀ clauses, (node clauses).literals = []) →
        (∀ clauses, (node clauses).children = clauses) →
          (connectiveClause op node (compileQueries items)).EveryLiteral P := by
    intro op node items array bare below
    refine connectiveClause_cases (motive := (·.EveryLiteral P))
      (fun _ => Predicate.everyLiteral_of_bare (bare _) ?_) (Predicate.everyLiteral_of_bare rfl nofun)
    rw [below]
    exact List.forall_mem_map.mpr (queries items array)
  refine compileEntry_cases (motive := (·.EveryLiteral P)) key argument ?literal ?query ?operator
    ?all ?any
  case literal =>
    intro _ _
    have equal : (Predicate.eq argument).EveryLiteral P :=
      Predicate.everywhere_of_childless (List.forall_mem_singleton.mpr whole) rfl
    exact Predicate.everyLiteral_of_bare rfl (List.forall_mem_singleton.mpr equal)
  case query =>
    intro _ _
    exact Predicate.everyLiteral_of_bare rfl (List.forall_mem_singleton.mpr asQuery)
  case operator =>
    intro op _ _
    refine Predicate.everywhere_of_childless ?_ (children_operatorClause op argument)
    intro literal member
    obtain rfl | ⟨set, array, inside⟩ := literals_operatorClause member
    · exact whole
    · exact elements set array literal inside
  case all =>
    intro items _ array
    exact connective array (fun _ => rfl) fun _ => rfl
  case any =>
    intro items _ array
    exact connective array (fun _ => rfl) fun _ => rfl

/-- Literals of a compiled query are parts of the query. -/
theorem everyLiteral_compile {P : Json → Prop}
    (elements : ∀ items, P (.array items) → ∀ v ∈ items, P v)
    (values : ∀ entries, P (.object entries) → ∀ e ∈ entries, P e.2) {q : Json} (whole : P q) :
    (compile q).EveryLiteral P := by
  refine (induct (A := fun q => P q → (compile q).EveryLiteral P)
    (B := fun key argument => P argument → (compileEntry key argument).EveryLiteral P)
    ?other ?object ?entry q).1 whole
  case other =>
    intro q other _
    rw [compile_other other]
    exact Predicate.everyLiteral_of_bare rfl nofun
  case object =>
    intro entries each whole
    exact (everywhere_compileEntries (fun _ => nofun) entries).mpr fun e member =>
      each e member (values entries whole e member)
  case entry =>
    intro key argument asQuery queries whole
    have parts : ∀ items, argument = .array items → ∀ v ∈ items, P v := by
      rintro items rfl
      exact elements items whole
    exact everyLiteral_compileEntry whole parts (asQuery whole)
      (fun items array q member => queries items array q member (parts items array q member)) key

/-! ### Tests -/

theorem test_compileEntries (entries : List (String × Json)) (value : Option Json) :
    (compileEntries entries).test value =
      firstOther true (entries.map fun e => (compileEntry e.1 e.2).test value) := by
  match entries with
  | [] => exact Predicate.test_all [] value
  | [(key, argument)] =>
    rw [compileEntries, List.map_singleton]
    by_cases yes : (compileEntry key argument).test value = .ok true
    · rw [yes, firstOther_cons_same, firstOther_nil]
    · rw [firstOther_cons_other yes]
  | first :: second :: rest =>
    rw [compileEntries_conjunction, Predicate.test_all, List.map_map]
    rfl

theorem test_compile_object (entries : List (String × Json)) (value : Option Json) :
    (compile (.object entries)).test value =
      firstOther true (entries.map fun e => (compileEntry e.1 e.2).test value) :=
  test_compileEntries entries value

theorem test_compileEntry_all {queries : List Json} (objects : ∀ q ∈ queries, q.isObject = true)
    (value : Option Json) :
    (compileEntry "$and" (.array queries)).test value =
      firstOther true (queries.map fun q => (compile q).test value) := by
  rw [compileEntry_all, compileQueries_of_objects objects, connectiveClause, Predicate.test_all,
    List.map_map]
  rfl

theorem test_compileEntry_any {queries : List Json} (objects : ∀ q ∈ queries, q.isObject = true)
    (value : Option Json) :
    (compileEntry "$or" (.array queries)).test value =
      firstOther false (queries.map fun q => (compile q).test value) := by
  rw [compileEntry_any, compileQueries_of_objects objects, connectiveClause, Predicate.test_any,
    List.map_map]
  rfl

end Query

end DocQuery
