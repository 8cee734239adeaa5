import DocQuery.Proofs.Predicate.FaultSource
import DocQuery.Proofs.Query.Compilation

/-!
# The shape of compiled queries

`wellFormed` says which queries have every argument in the shape that its key asks for. They are those
that compile without a malformed node, and the malformed nodes of the others name the operator whose
argument is wrong (`shape_compile`).
-/

namespace DocQuery

open Predicate (Occurs Everywhere everywhere_iff everywhere_of_childless)

namespace Query

mutual
/-- A query is well formed if it is an object whose arguments all fit their keys. -/
def wellFormed : Json → Bool
  | .object entries => wellFormedEntries entries
  | _ => false

/-- An operator asks for anything, for an array, for a flag or for an array of well-formed queries. A
field asks for a well-formed query or a value that is no query. -/
def fits (key : String) (argument : Json) : Bool :=
  match key with
  | "$eq" => true
  | "$ne" => true
  | "$gt" => true
  | "$gte" => true
  | "$lt" => true
  | "$lte" => true
  | "$in" => argument.isArray
  | "$nin" => argument.isArray
  | "$exists" =>
    match argument with
    | .bool _ => true
    | _ => false
  | "$and" =>
    match argument with
    | .array queries => wellFormedQueries queries
    | _ => false
  | "$or" =>
    match argument with
    | .array queries => wellFormedQueries queries
    | _ => false
  | _ =>
    match argument with
    | .object entries => wellFormedEntries entries
    | _ => true

def wellFormedEntries : List (String × Json) → Bool
  | [] => true
  | (key, argument) :: rest => fits key argument && wellFormedEntries rest

def wellFormedQueries : List Json → Bool
  | [] => true
  | query :: rest => wellFormed query && wellFormedQueries rest
end

/-- What is inside a value to compare with is no query. -/
example : wellFormed (.object [("$eq", .object [("$in", .null)]), ("a", .object [])]) = true := rfl

theorem wellFormedEntries_iff {entries : List (String × Json)} :
    wellFormedEntries entries = true ↔ ∀ e ∈ entries, fits e.1 e.2 = true := by
  induction entries with
  | nil => simp [wellFormedEntries]
  | cons e rest ih =>
    obtain ⟨key, argument⟩ := e
    rw [wellFormedEntries, Bool.and_eq_true, ih, List.forall_mem_cons]

theorem wellFormedQueries_iff {queries : List Json} :
    wellFormedQueries queries = true ↔ ∀ q ∈ queries, wellFormed q = true := by
  induction queries with
  | nil => simp [wellFormedQueries]
  | cons q rest ih => rw [wellFormedQueries, Bool.and_eq_true, ih, List.forall_mem_cons]

theorem isObject_of_wellFormed {q : Json} (formed : wellFormed q = true) : q.isObject = true := by
  cases q with
  | object => rfl
  | _ => simp [wellFormed] at formed

theorem fits_field {key : String} (field : Operator.ofName? key = none)
    (entries : List (String × Json)) :
    fits key (.object entries) = wellFormed (.object entries) := by
  rw [fits, wellFormed]
  all_goals
    rintro rfl
    revert field
    decide

theorem fits_literal {key : String} {argument : Json} (field : Operator.ofName? key = none)
    (literal : argument.isObject = false) : fits key argument = true := by
  have plain : ∀ entries, argument = .object entries → False := by
    rintro entries rfl
    cases literal
  rw [fits]
  all_goals first
    | exact plain
    | rintro rfl
      revert field
      decide

/-! ### Nodes without faults of their own -/

/-- Testing the node itself is no fault of the query's shape. -/
def Sound (p : Predicate) : Prop := ∀ reason, p ≠ .malformed reason

theorem not_everywhere_sound (reason : Malformed) : ¬Everywhere Sound (.malformed reason) :=
  fun every => every _ [] .here reason rfl

theorem everywhere_sound_operatorClause (op : Operator) {argument : Json}
    (plain : argument.isArray = true → op ≠ .all ∧ op ≠ .any) :
    Everywhere Sound (operatorClause op argument) ↔ fits op.name argument = true := by
  have childless := children_operatorClause op argument
  have whole : Everywhere Sound (operatorClause op argument) ↔ Sound (operatorClause op argument) :=
    ⟨fun every => every _ [] .here, fun own => everywhere_of_childless own childless⟩
  rw [whole, fits.eq_def]
  cases op with
  | ordered comparison =>
    cases comparison <;> simp [operatorClause, Sound, Operator.name, Comparison.operator]
  | all =>
    cases argument with
    | array => exact absurd rfl (plain rfl).1
    | _ => simp [operatorClause, Sound, Operator.name]
  | any =>
    cases argument with
    | array => exact absurd rfl (plain rfl).2
    | _ => simp [operatorClause, Sound, Operator.name]
  | _ => cases argument <;> simp [operatorClause, Sound, Operator.name, Json.isArray]

theorem everywhere_sound_connective {op : Operator} {node : List Predicate → Predicate}
    {queries : List Json} (own : ∀ clauses, Sound (node clauses))
    (below : ∀ clauses, (node clauses).children = clauses)
    (each : ∀ q ∈ queries, (Everywhere Sound (compile q) ↔ wellFormed q = true)) :
    Everywhere Sound (connectiveClause op node (compileQueries queries)) ↔
      wellFormedQueries queries = true := by
  rw [wellFormedQueries_iff]
  by_cases objects : ∀ q ∈ queries, q.isObject = true
  · rw [compileQueries_of_objects objects, connectiveClause, everywhere_iff,
      and_iff_right (own _), below, List.forall_mem_map]
    exact forall₂_congr each
  · rw [compileQueries_of_other objects]
    have spoilt : ¬∀ q ∈ queries, wellFormed q = true :=
      fun formed => objects fun q member => isObject_of_wellFormed (formed q member)
    exact iff_of_false (not_everywhere_sound _) spoilt

theorem everywhere_sound_field (name : String) (inner : Predicate) :
    Everywhere Sound (.field name inner) ↔ Everywhere Sound inner := by
  have own : Sound (.field name inner) := nofun
  rw [everywhere_iff, and_iff_right own]
  exact List.forall_mem_singleton

theorem sound_query_and_entry (q : Json) :
    (Everywhere Sound (compile q) ↔ wellFormed q = true) ∧
      ∀ key, Everywhere Sound (compileEntry key q) ↔ fits key q = true := by
  refine Query.induct (A := fun q => Everywhere Sound (compile q) ↔ wellFormed q = true)
    (B := fun key q => Everywhere Sound (compileEntry key q) ↔ fits key q = true)
    ?other ?object ?entry q
  case other =>
    intro q other
    rw [compile_other other]
    exact iff_of_false (not_everywhere_sound _)
      fun formed => by simp [isObject_of_wellFormed formed] at other
  case object =>
    intro entries each
    rw [wellFormed, wellFormedEntries_iff, ← forall₂_congr each]
    exact everywhere_compileEntries (fun _ => nofun) entries
  case entry =>
    intro key argument asQuery elements
    refine compileEntry_cases (motive := fun p => Everywhere Sound p ↔ fits key argument = true)
      key argument ?literal ?query ?operator ?all ?any
    case literal =>
      intro named literal
      rw [fits_literal named literal, everywhere_sound_field]
      exact iff_of_true (everywhere_of_childless nofun rfl) rfl
    case query =>
      intro named object
      cases argument with
      | object entries => rw [fits_field named, everywhere_sound_field, asQuery]
      | _ => cases object
    case operator =>
      rintro op rfl plain
      exact everywhere_sound_operatorClause op plain
    case all =>
      rintro queries rfl rfl
      exact everywhere_sound_connective (fun _ => nofun) (fun _ => rfl)
        (elements queries rfl)
    case any =>
      rintro queries rfl rfl
      exact everywhere_sound_connective (fun _ => nofun) (fun _ => rfl)
        (elements queries rfl)

/-! ### Nodes of well-formed and of other queries -/

/-- What a node of a compiled object can be. No field has an operator's name, and a malformed node
names an operator that asks for what it expected. -/
def Regular : Predicate → Prop
  | .field name _ => name ∉ Operator.names
  | .malformed .notAnObject => False
  | .malformed (.expectedArray operator) => operator ∈ ["$in", "$nin", "$and", "$or"]
  | .malformed (.expectedDocument operator) => operator ∈ ["$and", "$or"]
  | .malformed (.expectedBool operator) => operator = "$exists"
  | _ => True

theorem not_mem_names {key : String} (named : Operator.ofName? key = none) :
    key ∉ Operator.names := by
  intro member
  obtain ⟨op, _, rfl⟩ := List.mem_map.mp member
  rw [Operator.ofName?_name] at named
  cases named

theorem regular_operatorClause (op : Operator) (argument : Json) :
    Regular (operatorClause op argument) := by
  cases op with
  | eq | ne | ordered => trivial
  | all | any => simp [operatorClause, Regular, Operator.name]
  | _ => cases argument <;> simp [operatorClause, Regular, Operator.name]

theorem everywhere_regular_connective {op : Operator} {node : List Predicate → Predicate}
    {queries : List Json} (named : op.name ∈ ["$and", "$or"]) (own : ∀ clauses, Regular (node clauses))
    (below : ∀ clauses, (node clauses).children = clauses)
    (each : ∀ q ∈ queries, q.isObject = true → Everywhere Regular (compile q)) :
    Everywhere Regular (connectiveClause op node (compileQueries queries)) := by
  refine connectiveClause_cases (motive := Everywhere Regular) (fun objects => ?_) ?_
  · rw [everywhere_iff, below, List.forall_mem_map]
    exact ⟨own _, fun q member => each q member (objects q member)⟩
  · exact everywhere_of_childless named rfl

theorem regular_query_and_entry (q : Json) :
    (q.isObject = true → Everywhere Regular (compile q)) ∧
      ∀ key, Everywhere Regular (compileEntry key q) := by
  refine Query.induct (A := fun q => q.isObject = true → Everywhere Regular (compile q))
    (B := fun key q => Everywhere Regular (compileEntry key q)) ?other ?object ?entry q
  case other =>
    intro q other object
    rw [other] at object
    cases object
  case object =>
    intro entries each _
    exact (everywhere_compileEntries (fun _ => trivial) entries).mpr each
  case entry =>
    intro key argument asQuery elements
    refine compileEntry_cases (motive := Everywhere Regular) key argument
      ?literal ?query ?operator ?all ?any
    case literal =>
      intro named _
      have equal : Everywhere Regular (.eq argument) := everywhere_of_childless trivial rfl
      exact everywhere_iff.mpr ⟨not_mem_names named, List.forall_mem_singleton.mpr equal⟩
    case query =>
      intro named object
      exact everywhere_iff.mpr
        ⟨not_mem_names named, List.forall_mem_singleton.mpr (asQuery object)⟩
    case operator =>
      intro op _ _
      exact everywhere_of_childless (regular_operatorClause op argument)
        (children_operatorClause op argument)
    case all =>
      intro queries _ array
      exact everywhere_regular_connective (by simp [Operator.name]) (fun _ => trivial)
        (fun _ => rfl) (elements queries array)
    case any =>
      intro queries _ array
      exact everywhere_regular_connective (by simp [Operator.name]) (fun _ => trivial)
        (fun _ => rfl) (elements queries array)

/-! ### Whole queries -/

theorem occurs_malformed {node : Predicate} {path : List String} {reason : Malformed}
    (there : Occurs node path (.malformed reason)) : path = [] ∧ node = .malformed reason := by
  cases there
  exact ⟨rfl, rfl⟩

/-- The node of a query that is no object is the whole predicate, and stands in no other. -/
theorem occurs_notAnObject_iff {q : Json} {path : List String} :
    Occurs (.malformed .notAnObject) path (compile q) ↔ path = [] ∧ q.isObject = false := by
  by_cases object : q.isObject = true
  · have regular := (regular_query_and_entry q).1 object
    refine iff_of_false (fun there => regular _ _ there) fun ⟨_, other⟩ => ?_
    rw [object] at other
    cases other
  · have other := Bool.eq_false_iff.mpr object
    rw [compile_other other]
    constructor
    · intro there
      exact ⟨(occurs_malformed there).1, other⟩
    · rintro ⟨rfl, _⟩
      exact .here

theorem regular_of_occurs {q : Json} {node : Predicate} {path : List String}
    (there : Occurs node path (compile q)) (inner : node ≠ .malformed .notAnObject) :
    Regular node := by
  by_cases object : q.isObject = true
  · exact (regular_query_and_entry q).1 object _ _ there
  · rw [compile_other (Bool.eq_false_iff.mpr object)] at there
    exact absurd (occurs_malformed there).2 inner

theorem evaluate_notAnObject_iff (q document : Json) :
    (compile q).evaluate document = .error (.malformed .notAnObject) ↔ q.isObject = false := by
  constructor
  · intro faulted
    cases Predicate.explains_of_test faulted with
    | malformed there => exact (occurs_notAnObject_iff.mp there).2
  · intro other
    rw [compile_other other]
    rfl

/-- A query compiles without malformed nodes exactly if it is well formed. In every compiled query the
fields have names that are no operators, and each malformed node stands for an operator with such an
argument, but for the one of a query that is no object: it is the whole predicate, and every document
shows it. -/
theorem shape_compile (q : Json) :
    ((∀ path reason, ¬Occurs (.malformed reason) path (compile q)) ↔ wellFormed q = true) ∧
      (∀ path name inner, Occurs (.field name inner) path (compile q) → name ∉ Operator.names) ∧
      (∀ path, Occurs (.malformed .notAnObject) path (compile q) ↔ path = [] ∧ q.isObject = false) ∧
      ((∃ document, (compile q).evaluate document = .error (.malformed .notAnObject)) ↔
        q.isObject = false) ∧
      ((∀ document, (compile q).evaluate document = .error (.malformed .notAnObject)) ↔
        q.isObject = false) ∧
      (∀ path operator, Occurs (.malformed (.expectedArray operator)) path (compile q) →
        operator ∈ ["$in", "$nin", "$and", "$or"]) ∧
      (∀ path operator, Occurs (.malformed (.expectedDocument operator)) path (compile q) →
        operator ∈ ["$and", "$or"]) ∧
      ∀ path operator, Occurs (.malformed (.expectedBool operator)) path (compile q) →
        operator = "$exists" := by
  have shown : ∀ document,
      (compile q).evaluate document = .error (.malformed .notAnObject) ↔ q.isObject = false :=
    evaluate_notAnObject_iff q
  refine ⟨?_, ?_, fun _ => occurs_notAnObject_iff, ?_, ?_, ?_, ?_, ?_⟩
  · rw [← (sound_query_and_entry q).1]
    constructor
    · rintro none _ path there reason rfl
      exact none path reason there
    · intro every path reason there
      exact every _ path there reason rfl
  · intro path name inner there
    exact regular_of_occurs there nofun
  · simp only [shown, exists_const]
  · simp only [shown, forall_const]
  · intro path operator there
    exact regular_of_occurs there nofun
  · intro path operator there
    exact regular_of_occurs there nofun
  · intro path operator there
    exact regular_of_occurs there nofun

/-- Three arguments of the wrong shape, two of them one field down. -/
theorem shape_compile_three :
    let one : Json := .number (.natural 1 (by decide))
    let q : Json := .object [("a", .object [("$in", one)]), ("$and", .array [.object [], one]),
      ("b", .object [("$exists", one)])]
    let array : Predicate := .malformed (.expectedArray "$in")
    (Occurs (.field "a" array) [] (compile q) ∧ "a" ∉ Operator.names) ∧
      (Occurs array ["a"] (compile q) ∧ "$in" ∈ ["$in", "$nin", "$and", "$or"]) ∧
        (Occurs (.malformed (.expectedDocument "$and")) [] (compile q) ∧ "$and" ∈ ["$and", "$or"]) ∧
          (Occurs (.malformed (.expectedBool "$exists")) ["b"] (compile q) ∧ "$exists" = "$exists") ∧
            wellFormed q = false := by
  intro one q array
  have compiled : compile q = .all [.field "a" array, .malformed (.expectedDocument "$and"),
      .field "b" (.malformed (.expectedBool "$exists"))] := rfl
  have field : Occurs (.field "a" array) [] (compile q) :=
    compiled ▸ .all List.mem_cons_self .here
  have inside : Occurs array ["a"] (compile q) := compiled ▸ .all List.mem_cons_self (.field .here)
  have element : Occurs (.malformed (.expectedDocument "$and")) [] (compile q) :=
    compiled ▸ .all (List.mem_cons_of_mem _ List.mem_cons_self) .here
  have flag : Occurs (.malformed (.expectedBool "$exists")) ["b"] (compile q) :=
    compiled ▸ .all (List.mem_cons_of_mem _ (List.mem_cons_of_mem _ List.mem_cons_self)) (.field .here)
  obtain ⟨formed, names, _, _, _, arrays, documents, flags⟩ := shape_compile q
  refine ⟨⟨field, names _ _ _ field⟩, ⟨inside, arrays _ _ inside⟩, ⟨element, documents _ _ element⟩,
    ⟨flag, flags _ _ flag⟩, Bool.eq_false_iff.mpr fun wrong => ?_⟩
  exact formed.mpr wrong _ _ inside

end Query

end DocQuery
