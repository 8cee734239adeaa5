import DocQuery.Proofs.Predicate.Form
import DocQuery.Proofs.Query.Compilation

/-!
# How deep the forms of queries are

Compiling a query and writing the predicate's form adds at most three levels to each level of the
query, and one at the end (`depth_compile`). Queries of every depth reach that bound
(`depth_compile_sharp`), so that the form of a query which the reader accepts can be too deep for it.
Up to a depth of 31, what a query compiles to reads back from its text (`text_round_trip`).
-/

namespace DocQuery.Query

open Predicate

theorem depth_operatorClause (op : Operator) (argument : Json) :
    (operatorClause op argument).toJson.depth ≤ argument.depth + 3 := by
  have malformed : ∀ reason, (Predicate.malformed reason).toJson.depth ≤ argument.depth + 3 :=
    fun reason => Nat.le_trans (depth_malformed reason) (Nat.le_add_left ..)
  have literal : ∀ key, (Json.object [(key, argument)]).depth ≤ argument.depth + 3 := by
    intro key
    rw [depth_single]
    omega
  cases op with
  | eq | ne | ordered => exact literal _
  | oneOf | noneOf =>
    cases argument with
    | array set => exact literal _
    | _ => exact malformed _
  | present =>
    cases argument with
    | bool expected => exact literal _
    | _ => exact malformed _
  | all | any => exact malformed _

theorem depth_connectiveClause {op : Operator} {node : List Predicate → Predicate}
    (levels : ∀ clauses, (node clauses).toJson.depth = Json.depthItems (clauses.map toJson) + 2)
    {queries : List Json} {n : Nat} (each : ∀ q ∈ queries, (compile q).toJson.depth ≤ n) :
    (connectiveClause op node (compileQueries queries)).toJson.depth ≤ n + 3 := by
  refine connectiveClause_cases (motive := (·.toJson.depth ≤ n + 3)) (fun _ => ?_) ?_
  · have below : Json.depthItems ((queries.map compile).map toJson) ≤ n := by
      rw [List.map_map, Json.depthItems_le]
      exact List.forall_mem_map.mpr each
    rw [levels]
    omega
  · have spoilt := depth_malformed (.expectedDocument op.name)
    omega

theorem depth_compileEntry {argument : Json}
    (asQuery : (compile argument).toJson.depth ≤ 4 * argument.depth + 1)
    (queries : ∀ items, argument = .array items →
      ∀ q ∈ items, (compile q).toJson.depth ≤ 4 * q.depth + 1) (key : String) :
    (compileEntry key argument).toJson.depth ≤ 4 * argument.depth + 3 := by
  have each : ∀ items, argument = .array items →
      ∀ q ∈ items, (compile q).toJson.depth ≤ 4 * argument.depth := by
    rintro items rfl q member
    have inner := queries items rfl q member
    have deeper := Json.depth_item member
    omega
  refine compileEntry_cases (motive := (·.toJson.depth ≤ 4 * argument.depth + 3)) key argument
    ?literal ?query ?operator ?all ?any
  case literal =>
    intro _ _
    rw [depth_field, toJson, depth_single]
    omega
  case query =>
    intro _ _
    rw [depth_field]
    omega
  case operator =>
    intro op _ _
    have bound := depth_operatorClause op argument
    omega
  case all =>
    intro items _ array
    exact depth_connectiveClause depth_all (each items array)
  case any =>
    intro items _ array
    exact depth_connectiveClause depth_any (each items array)

theorem depth_compileEntries {entries : List (String × Json)}
    (each : ∀ e ∈ entries, (compileEntry e.1 e.2).toJson.depth ≤ 4 * e.2.depth + 3) :
    (compileEntries entries).toJson.depth ≤ 4 * (Json.object entries).depth + 1 := by
  have bound : ∀ e ∈ entries,
      (compileEntry e.1 e.2).toJson.depth ≤ 4 * Json.depthEntries entries + 3 := by
    intro e member
    have inner := each e member
    have deepest := Json.depthEntries_le.mp (Nat.le_refl _) e member
    omega
  rw [Json.depth]
  rcases entries with _ | ⟨⟨key, argument⟩, _ | ⟨second, rest⟩⟩
  · exact Nat.le_of_ble_eq_true rfl
  · -- without a conjunction, which would take two levels
    have only : (compileEntry key argument).toJson.depth ≤
        4 * Json.depthEntries [(key, argument)] + 3 := bound _ (List.mem_singleton_self _)
    rw [compileEntries]
    omega
  · have clauses := Json.depthItems_le.mpr (List.forall_mem_map.mpr bound)
    rw [compileEntries_conjunction, depth_all, List.map_map]
    exact Nat.add_le_add_right clauses 2

theorem depth_compile (q : Json) : (compile q).toJson.depth ≤ 4 * q.depth + 1 := by
  refine (induct (A := fun q => (compile q).toJson.depth ≤ 4 * q.depth + 1)
    (B := fun key argument => (compileEntry key argument).toJson.depth ≤ 4 * argument.depth + 3)
    ?other ?object ?entry q).1
  case other =>
    intro q other
    rw [compile_other other]
    exact Nat.le_add_left ..
  case object =>
    intro entries each
    exact depth_compileEntries each
  case entry =>
    intro key argument asQuery queries
    exact depth_compileEntry asQuery queries key

/-- A query with two fields at each level, one of them a query itself. -/
def nested : Nat → Json
  | 0 => .null
  | n + 1 => .object [("a", nested n), ("b", .null)]

theorem depth_compileEntry_nested (n : Nat) :
    (compileEntry "a" (nested n)).toJson.depth = 4 * n + 3 := by
  have field : Operator.ofName? "a" = none := by decide
  induction n with
  | zero =>
    rw [nested, compileEntry_literal field rfl, depth_field, toJson, depth_single]
    rfl
  | succ n ih =>
    have other : (compileEntry "b" .null).toJson.depth = 3 := by
      rw [compileEntry_literal (by decide) rfl, depth_field, toJson, depth_single]
      rfl
    rw [nested, compileEntry_field field, depth_field, compile, compileEntries_conjunction, depth_all]
    simp only [List.map_cons, List.map_nil, Json.depthItems, ih, other]
    omega

theorem depth_compile_sharp (n : Nat) :
    ∃ q : Json, q.depth = n ∧ (compile q).toJson.depth = 4 * n + 1 := by
  have depth : (nested n).depth = n := by
    induction n with
    | zero => rfl
    | succ n ih => simp [nested, Json.depth, Json.depthEntries, ih]
  refine ⟨nested n, depth, ?_⟩
  cases n with
  | zero => rfl
  | succ n =>
    have entry := depth_compileEntry_nested (n + 1)
    rw [nested, compileEntry_field (by decide), depth_field] at entry
    exact Nat.add_right_cancel entry

theorem parse?_text_compile {q : Json} (settled : q.Settled) (whole : q.doubleFree = true)
    (shallow : q.depth ≤ 31) : parse? (compile q).text = some (compile q) := by
  have literals : (compile q).DoubleFree :=
    everyLiteral_compile (P := (·.doubleFree = true))
      (fun items whole => Json.doubleFreeItems_iff.mp whole)
      (fun entries whole => Json.doubleFreeEntries_iff.mp whole) whole
  have bound := depth_compile q
  exact parse?_text (settled_compile settled) literals (Nat.le_trans bound (by
    rw [Json.maxDepth]
    omega))

/-- A predicate without doubles reads back from the text of its form, as deep as the reader goes. The
form of a query nests at most four times as deep as the query, and one level more. -/
theorem text_round_trip (p : Predicate) (q : Json) :
    (p.Settled → p.DoubleFree → p.toJson.depth ≤ 127 → parse? p.text = some p) ∧
      (compile q).toJson.depth ≤ 4 * q.depth + 1 ∧
      (q.Settled → q.doubleFree = true → q.depth ≤ 31 → parse? (compile q).text = some (compile q)) :=
  ⟨parse?_text, depth_compile q, parse?_text_compile⟩

/-- Escapes in a field name, a negative number, and a reason that no query compiles to; and a query
with the largest number. -/
theorem text_round_trip_escapes :
    let set : List Json := [.number (.negative 1 (by decide) (by decide)), .string "\\\x01"]
    let p : Predicate := .any [.field "\"\n" (.oneOf set), .malformed (.expectedBool "other")]
    let largest : Json := .number (.natural 18446744073709551615 (by decide))
    let q : Json := .object [("a", .object [("$in", .array [largest])]), ("b", .null)]
    (p.Settled ∧ p.DoubleFree ∧ p.toJson.depth ≤ 127 ∧ parse? p.text = some p) ∧
      (compile q).toJson.depth ≤ 4 * q.depth + 1 ∧
      q.Settled ∧ q.doubleFree = true ∧ q.depth ≤ 31 ∧
        parse? (compile q).text = some (compile q) := by
  intro set p largest q
  have literals : ∀ {P : Json → Prop}, (∀ v ∈ set, P v) → p.EveryLiteral P := by
    intro P each
    have field : (Predicate.field "\"\n" (.oneOf set)).EveryLiteral P :=
      everyLiteral_of_bare rfl (List.forall_mem_singleton.mpr (everywhere_of_childless each rfl))
    have reason : (Predicate.malformed (.expectedBool "other")).EveryLiteral P :=
      everyLiteral_of_bare rfl nofun
    exact everyLiteral_of_bare rfl
      (List.forall_mem_cons.mpr ⟨field, List.forall_mem_singleton.mpr reason⟩)
  have settled : p.Settled := literals (by simp [set, Json.Settled])
  have whole : p.DoubleFree := literals (by simp [set, Json.doubleFree])
  have shallow : p.toJson.depth ≤ 127 := by decide
  have settledQuery : q.Settled := by
    simp [q, largest, Json.Settled, Json.SettledEntries, Json.SettledItems]
  have wholeQuery : q.doubleFree = true := rfl
  have shallowQuery : q.depth ≤ 31 := by decide
  obtain ⟨form, bound, query⟩ := text_round_trip p q
  exact ⟨⟨settled, whole, shallow, form settled whole shallow⟩, bound, settledQuery, wholeQuery,
    shallowQuery, query settledQuery wholeQuery shallowQuery⟩

end DocQuery.Query
