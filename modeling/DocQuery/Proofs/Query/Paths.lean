import DocQuery.Proofs.Json.Order
import DocQuery.Proofs.Predicate.Tree
import DocQuery.Proofs.Query.Rewriting

/-!
# Operators under a path of fields

A query under a path of fields is asked of the value that the path reaches, or of an absent one
(`test_nest`). There the operators stand to each other as their names say, whatever the path and
whatever it reaches (`operator_algebra`).
-/

namespace DocQuery.Query

/-- A query under a path of fields, outermost first. -/
def nest (path : List String) (q : Json) : Json := path.foldr single q

/-- The query that applies an operator to what the path reaches. -/
def asks (path : List String) (op : Operator) (argument : Json) : Json :=
  nest path (single op.name argument)

variable {path : List String} {q bound document : Json}

/-! ### Paths -/

theorem isObject_nest (object : q.isObject = true) (path : List String) :
    (nest path q).isObject = true := by
  cases path with
  | nil => exact object
  | cons name path => rfl

theorem test_nest (fields : ∀ name ∈ path, Operator.ofName? name = none) (object : q.isObject = true)
    (value : Option Json) :
    (compile (nest path q)).test value = (compile q).test (Json.reach? path value) := by
  induction path generalizing value with
  | nil => rfl
  | cons name path ih =>
    obtain ⟨first, rest⟩ := List.forall_mem_cons.mp fields
    show (compile (single name (nest path q))).test value = _
    rw [test_field first (isObject_nest object path), ih rest]
    rfl

theorem evaluate_asks (fields : ∀ name ∈ path, Operator.ofName? name = none) {op : Operator}
    {argument : Json} (plain : argument.isArray = true → op ≠ .all ∧ op ≠ .any) :
    (compile (asks path op argument)).evaluate document =
      (operatorClause op argument).test (Json.reach? path (some document)) := by
  show (compile (nest path (single op.name argument))).test (some document) = _
  rw [test_nest fields rfl]
  show (compileEntry op.name argument).test _ = _
  rw [compileEntry_operator op plain]

/-- A value that is no query is short for the query that asks for equality with it. -/
theorem compile_nest_literal (fields : ∀ name ∈ path, Operator.ofName? name = none)
    (literal : q.isObject = false) (under : path ≠ []) :
    compile (nest path q) = compile (asks path .eq q) := by
  induction path with
  | nil => exact absurd rfl under
  | cons name path ih =>
    obtain ⟨first, rest⟩ := List.forall_mem_cons.mp fields
    cases path with
    | nil =>
      have equality : compile (single "$eq" q) = .eq q := compileEntry_operator .eq (by simp)
      show compileEntry name q = compile (single name (single "$eq" q))
      rw [compileEntry_literal first literal, compile_field first rfl, equality]
    | cons next path =>
      have below := ih rest (by simp)
      show compile (single name (nest (next :: path) q)) =
        compile (single name (asks (next :: path) .eq q))
      rw [compile_field first rfl, compile_field first rfl, below]

/-! ### Ordering operators -/

/-- How what the path reaches stands to the bound, where the two have an order. -/
def orderAt (path : List String) (bound document : Json) : Option Ordering :=
  (Json.reach? path (some document)).bind fun value => value.order? bound

theorem orderAt_isSome_iff :
    (orderAt path bound document).isSome = true ↔
      ∃ value, Json.reach? path (some document) = some value ∧ value.Comparable bound := by
  unfold orderAt
  cases Json.reach? path (some document) with
  | none => simp
  | some value => simp [Json.comparable_iff, Option.isSome_iff_exists]

theorem holds_ordered (fields : ∀ name ∈ path, Operator.ofName? name = none)
    (comparison : Comparison) :
    (compile (asks path (.ordered comparison) bound)).holds document =
      (orderAt path bound document).any comparison.accepts := by
  unfold Predicate.holds orderAt
  rw [evaluate_asks fields (by simp), operatorClause, Predicate.test]
  cases Json.reach? path (some document) with
  | none => rfl
  | some value =>
    rw [Predicate.testOrder, Option.bind_some]
    cases value.order? bound <;> rfl

theorem holds_eq (fields : ∀ name ∈ path, Operator.ofName? name = none)
    (ordered : bound.Comparable bound) :
    (compile (asks path .eq bound)).holds document =
      (orderAt path bound document).any (· == .eq) := by
  unfold Predicate.holds orderAt
  rw [evaluate_asks fields (by simp), operatorClause, Predicate.test]
  cases Json.reach? path (some document) with
  | none => rfl
  | some value =>
    rw [Option.bind_some, Option.any_some, Bool.eq_iff_iff, Json.equal_iff_order? ordered]
    cases value.order? bound <;> simp

theorem holds_inclusive {strict inclusive : Comparison}
    (takes : ∀ order, inclusive.accepts order = (strict.accepts order || order == .eq))
    (fields : ∀ name ∈ path, Operator.ofName? name = none) (ordered : bound.Comparable bound) :
    (compile (asks path (.ordered inclusive) bound)).holds document =
      ((compile (asks path (.ordered strict) bound)).holds document ||
        (compile (asks path .eq bound)).holds document) := by
  rw [holds_ordered fields, holds_ordered fields, holds_eq fields ordered]
  cases orderAt path bound document with
  | none => rfl
  | some order => exact takes order

/-- Smaller, equal and greater exclude each other, and one of them is the case where there is an
order. -/
theorem count_lt_eq_gt (fields : ∀ name ∈ path, Operator.ofName? name = none)
    (ordered : bound.Comparable bound) :
    [(compile (asks path (.ordered .lt) bound)).holds document,
        (compile (asks path .eq bound)).holds document,
        (compile (asks path (.ordered .gt) bound)).holds document].count true =
      if (orderAt path bound document).isSome then 1 else 0 := by
  rw [holds_ordered fields, holds_eq fields ordered, holds_ordered fields]
  cases orderAt path bound document with
  | none => rfl
  | some order => cases order <;> rfl

theorem fault_ordered_iff (fields : ∀ name ∈ path, Operator.ofName? name = none)
    (comparison : Comparison) :
    (∃ cause, (compile (asks path (.ordered comparison) bound)).evaluate document = .error cause) ↔
      ∃ value, Json.reach? path (some document) = some value ∧ ¬value.Comparable bound := by
  rw [evaluate_asks fields (by simp), operatorClause, Predicate.test]
  cases Json.reach? path (some document) with
  | none => simp [Predicate.testOrder]
  | some value =>
    rw [Predicate.testOrder]
    cases ordered : value.order? bound <;> simp [Json.comparable_iff, ordered]

/-- On what the path reaches, `$ne` is the negation of `$eq` and `$nin` that of `$in`, `$exists` asks
whether there is anything, and none of them faults. A bound that is a number or a string splits the
values of its kind into smaller, equal and greater ones, the inclusive operators take the equal ones
in, and the ordering operators fault exactly on values of another kind. Equality with a value that is
no object may be written without its operator. -/
theorem operator_algebra (fields : ∀ name ∈ path, Operator.ofName? name = none) (document : Json) :
    let reached := Json.reach? path (some document)
    let verdict (op : Operator) (a : Json) := (compile (asks path op a)).evaluate document
    let matched (op : Operator) (a : Json) := (compile (asks path op a)).holds document
    (∀ a, verdict .eq a = .ok (reached.any (·.equal a)) ∧
        verdict .ne a = .ok (!reached.any (·.equal a))) ∧
      (∀ set, verdict .oneOf (.array set) = .ok (reached.any (Json.containsAny set)) ∧
        verdict .noneOf (.array set) = .ok (!reached.any (Json.containsAny set))) ∧
      (∀ expected, verdict .present (.bool expected) = .ok (reached.isSome == expected)) ∧
      (∀ a, ((∃ n, a = .number n) ∨ ∃ s, a = .string s) →
        matched (.ordered .gte) a = (matched (.ordered .gt) a || matched .eq a) ∧
          matched (.ordered .lte) a = (matched (.ordered .lt) a || matched .eq a) ∧
          [matched (.ordered .lt) a, matched .eq a, matched (.ordered .gt) a].count true ≤ 1 ∧
          ((∃ value, reached = some value ∧ value.Comparable a) →
            [matched (.ordered .lt) a, matched .eq a, matched (.ordered .gt) a].count true = 1) ∧
          ∀ comparison, (∃ cause, verdict (.ordered comparison) a = .error cause) ↔
            ∃ value, reached = some value ∧ ¬value.Comparable a) ∧
      ∀ a : Json, a.isObject = false → path ≠ [] → compile (nest path a) = compile (asks path .eq a) := by
  intro reached verdict matched
  refine ⟨fun a => ⟨evaluate_asks fields (by simp), evaluate_asks fields (by simp)⟩,
    fun set => ⟨evaluate_asks fields (by simp), evaluate_asks fields (by simp)⟩,
    fun expected => evaluate_asks fields (by simp), fun a kind => ?_,
    fun a literal under => compile_nest_literal fields literal under⟩
  have ordered : a.Comparable a := by
    rcases kind with ⟨n, rfl⟩ | ⟨s, rfl⟩
    · exact .numbers n n
    · exact .strings s s
  have one : [matched (.ordered .lt) a, matched .eq a, matched (.ordered .gt) a].count true =
      if (orderAt path a document).isSome then 1 else 0 := count_lt_eq_gt fields ordered
  have above : ∀ order, Comparison.gte.accepts order = (Comparison.gt.accepts order || order == .eq) := by
    decide
  have below : ∀ order, Comparison.lte.accepts order = (Comparison.lt.accepts order || order == .eq) := by
    decide
  refine ⟨holds_inclusive above fields ordered, holds_inclusive below fields ordered, ?atMostOne,
    fun comparable => ?exactlyOne, fault_ordered_iff fields⟩
  case atMostOne =>
    rw [one]
    split <;> omega
  case exactlyOne =>
    rw [one, if_pos (orderAt_isSome_iff.mpr comparable)]

/-- A natural number at the end of a path against a double of the same value, and a text against that
double. -/
theorem operator_algebra_kinds :
    let two : Json :=
      .number (.double ⟨false, ⟨1 <<< 52, 1023, by decide, .inr (by decide)⟩, by decide⟩)
    let natural : Json := .number (.natural 2 (by decide))
    let path := ["a", "b"]
    let counted : Json := .object [("a", .object [("b", natural)])]
    let named : Json := .object [("a", .object [("b", .string "x")])]
    let matched (op : Operator) := (compile (asks path op two)).holds counted
    (∀ name ∈ path, Operator.ofName? name = none) ∧
      matched .eq = true ∧ matched (.ordered .gte) = true ∧
      [matched (.ordered .lt), matched .eq, matched (.ordered .gt)].count true = 1 ∧
      (compile (asks path .ne two)).evaluate counted = .ok false ∧
      (∃ cause, (compile (asks path (.ordered .lte) two)).evaluate named = .error cause) ∧
      compile (nest path two) = compile (asks path .eq two) := by
  intro two natural path counted named matched
  have fields : ∀ name ∈ path, Operator.ofName? name = none := by decide
  have number : (∃ n, two = .number n) ∨ ∃ s, two = .string s := .inl ⟨_, rfl⟩
  have equal : natural.equal two = true := by decide +kernel
  obtain ⟨equality, _, _, order, literal⟩ := operator_algebra fields counted
  obtain ⟨inclusive, _, _, one, _⟩ := order two number
  obtain ⟨_, _, _, order, _⟩ := operator_algebra fields named
  obtain ⟨_, _, _, _, faults⟩ := order two number
  obtain ⟨yes, no⟩ := equality two
  have known : matched .eq = true := Predicate.holds_iff.mpr (yes.trans (congrArg Except.ok equal))
  have unordered : ¬(Json.string "x").Comparable two := by
    rw [Json.comparable_iff]
    rintro ⟨_, ordered⟩
    cases ordered
  refine ⟨fields, known, ?_, one ⟨natural, rfl, .numbers _ _⟩, ?_, ?_, literal two rfl (by simp [path])⟩
  · exact inclusive.trans (Bool.or_eq_true_iff.mpr (.inr known))
  · exact no.trans (congrArg (fun answer => Except.ok !answer) equal)
  · exact (faults .lte).mpr ⟨.string "x", rfl, unordered⟩

end DocQuery.Query
