import DocQuery.Proofs.Json.Congruence
import DocQuery.Proofs.Query.Paths

/-!
# Membership as equality

Membership in a set is a disjunction of equalities. It is asked of the value itself, and of each
element in its place if the value is an array; sets and arrays count by their members alone
(`membership_as_equality`).
-/

namespace DocQuery

/-- Without faults, a list of verdicts comes to its own answer exactly if none of them is another. -/
theorem firstOther_ok (answer : Bool) (f : Json → Bool) (set : List Json) :
    firstOther answer (set.map fun s => .ok (f s)) =
      .ok (set.any (fun s => f s != answer) != answer) := by
  induction set with
  | nil => cases answer <;> rfl
  | cons s rest ih =>
    rw [List.map_cons, List.any_cons]
    by_cases same : f s = answer
    · rw [same, firstOther_cons_same, ih, bne_self_eq_false, Bool.false_or]
    · have passed : Except.ok (f s) ≠ (.ok answer : Verdict) := fun h => same (Except.ok.inj h)
      rw [firstOther_cons_other passed, bne_iff_ne.mpr same, Bool.true_or]
      cases answer <;> simpa using same

theorem any_congr_of_mem_iff {set others : List Json} (same : ∀ s, s ∈ set ↔ s ∈ others)
    (f : Json → Bool) : set.any f = others.any f := by
  apply Bool.eq_iff_iff.mpr
  simp only [List.any_eq_true, same]

theorem Json.containsAny_congr_of_mem_iff {set others : List Json}
    (same : ∀ s, s ∈ set ↔ s ∈ others) (value : Json) :
    containsAny set value = containsAny others value := by
  have members : ∀ v : Json, set.any v.equal = others.any v.equal :=
    fun v => any_congr_of_mem_iff same v.equal
  cases value with
  | array items =>
    show items.any (fun item => set.any item.equal) = items.any fun item => others.any item.equal
    simp only [members]
  | _ => exact members _

namespace Query

variable {path : List String} {set others : List Json} {document : Json}

/-! ### Sets written out -/

theorem evaluate_equalities (fields : ∀ name ∈ path, Operator.ofName? name = none) :
    (compile (anyOf (set.map (asks path .eq)))).evaluate document =
      .ok (set.any fun s => (Json.reach? path (some document)).any (·.equal s)) := by
  have objects : ∀ q ∈ set.map (asks path .eq), q.isObject = true :=
    List.forall_mem_map.mpr fun _ _ => isObject_nest rfl path
  have each : ∀ s ∈ set, (compile (asks path .eq s)).evaluate document =
      .ok ((Json.reach? path (some document)).any (·.equal s)) :=
    fun s _ => evaluate_asks fields (by simp)
  rw [evaluate_anyOf objects, List.map_map]
  show firstOther false (set.map fun s => (compile (asks path .eq s)).evaluate document) = _
  rw [List.map_congr_left each, firstOther_ok]
  simp

theorem evaluate_inequalities (fields : ∀ name ∈ path, Operator.ofName? name = none) :
    (compile (allOf (set.map (asks path .ne)))).evaluate document =
      .ok (!set.any fun s => (Json.reach? path (some document)).any (·.equal s)) := by
  have objects : ∀ q ∈ set.map (asks path .ne), q.isObject = true :=
    List.forall_mem_map.mpr fun _ _ => isObject_nest rfl path
  have each : ∀ s ∈ set, (compile (asks path .ne s)).evaluate document =
      .ok (!(Json.reach? path (some document)).any (·.equal s)) :=
    fun s _ => evaluate_asks fields (by simp)
  rw [evaluate_allOf objects, List.map_map]
  show firstOther true (set.map fun s => (compile (asks path .ne s)).evaluate document) = _
  rw [List.map_congr_left each, firstOther_ok true fun s => !_]
  simp

theorem any_containsAny {value : Option Json} (single : ∀ items, value ≠ some (.array items)) :
    value.any (Json.containsAny set) = set.any fun s => value.any (·.equal s) := by
  cases value with
  | none => simp
  | some v =>
    have plain : v.isArray = false := by
      cases v with
      | array items => exact absurd rfl (single items)
      | _ => rfl
    exact Json.containsAny_of_not_array plain set

/-! ### Set operators on a field -/

/-- What `$in` says of a field. -/
def verdictIn (key : String) (set : List Json) (document : Json) : Verdict :=
  (compile (asks [key] .oneOf (.array set))).evaluate document

/-- What `$nin` says of a field. -/
def verdictNotIn (key : String) (set : List Json) (document : Json) : Verdict :=
  (compile (asks [key] .noneOf (.array set))).evaluate document

/-- The query that asks for equality with an element of the set. -/
def equalsAny (path : List String) (set : List Json) : Json := anyOf (set.map (asks path .eq))

/-- The query that asks for no equality with any element of the set. -/
def differsFromAll (path : List String) (set : List Json) : Json := allOf (set.map (asks path .ne))

section

variable {key : String} (field : Operator.ofName? key = none)

include field

theorem verdictIn_eq (set : List Json) (document : Json) :
    verdictIn key set document =
      .ok ((Json.field? key (some document)).any (Json.containsAny set)) :=
  evaluate_asks (List.forall_mem_singleton.mpr field) (by simp)

theorem verdictNotIn_eq (set : List Json) (document : Json) :
    verdictNotIn key set document =
      .ok (!(Json.field? key (some document)).any (Json.containsAny set)) :=
  evaluate_asks (List.forall_mem_singleton.mpr field) (by simp)

theorem membership_of_single (single : ∀ items, Json.field? key (some document) ≠ some (.array items)) :
    verdictIn key set document = (compile (equalsAny [key] set)).evaluate document ∧
      verdictNotIn key set document = (compile (differsFromAll [key] set)).evaluate document := by
  have fields : ∀ name ∈ [key], Operator.ofName? name = none := List.forall_mem_singleton.mpr field
  have spread : (Json.field? key (some document)).any (Json.containsAny set) =
      set.any fun s => (Json.field? key (some document)).any (·.equal s) := any_containsAny single
  constructor
  · rw [verdictIn_eq field, equalsAny, evaluate_equalities fields, spread]
    rfl
  · rw [verdictNotIn_eq field, differsFromAll, evaluate_inequalities fields, spread]
    rfl

theorem membership_of_array {items : List Json}
    (found : Json.field? key (some document) = some (.array items)) :
    ∃ answer, verdictIn key set document = .ok answer ∧
      verdictNotIn key set document = .ok (!answer) ∧
      (answer = true ↔ ∃ item ∈ items, (compile (equalsAny [] set)).evaluate item = .ok true) ∧
      (answer = false ↔ ∀ item ∈ items, (compile (equalsAny [] set)).evaluate item = .ok false) := by
  have whole : ∀ item, (compile (equalsAny [] set)).evaluate item = .ok (set.any item.equal) :=
    fun item => evaluate_equalities nofun
  refine ⟨items.any fun item => set.any item.equal, ?_, ?_, ?_, ?_⟩
  · rw [verdictIn_eq field, found]
    rfl
  · rw [verdictNotIn_eq field, found]
    rfl
  · simp only [whole, List.any_eq_true (l := items), Except.ok.injEq]
  · simp only [whole, List.any_eq_false (l := items), Except.ok.injEq, Bool.not_eq_true]

theorem membership_of_mem_iff (same : ∀ s, s ∈ set ↔ s ∈ others) (document : Json) :
    verdictIn key set document = verdictIn key others document ∧
      verdictNotIn key set document = verdictNotIn key others document := by
  have alike : Json.containsAny set = Json.containsAny others :=
    funext (Json.containsAny_congr_of_mem_iff same)
  rw [verdictIn_eq field, verdictIn_eq field, verdictNotIn_eq field, verdictNotIn_eq field, alike]
  exact ⟨rfl, rfl⟩

theorem membership_of_items {items items' : List Json} {other : Json}
    (found : Json.field? key (some document) = some (.array items))
    (found' : Json.field? key (some other) = some (.array items'))
    (same : ∀ v, v ∈ items ↔ v ∈ items') :
    verdictIn key set document = verdictIn key set other ∧
      verdictNotIn key set document = verdictNotIn key set other := by
  have alike : (some (Json.array items)).any (Json.containsAny set) =
      (some (Json.array items')).any (Json.containsAny set) :=
    any_congr_of_mem_iff same fun item => set.any item.equal
  rw [verdictIn_eq field, verdictIn_eq field, verdictNotIn_eq field, verdictNotIn_eq field, found,
    found', alike]
  exact ⟨rfl, rfl⟩

end

/-- Of a field that is absent or no array, `$in` is the disjunction of the equalities with the set's
elements, and `$nin` the conjunction of the inequalities. Of an array, `$in` asks whether the
disjunction is "yes" on some element, compared whole, and `$nin` whether it is "no" on each. The order
of a set or an array and repetitions in it change nothing. -/
theorem membership_as_equality {key : String} (field : Operator.ofName? key = none) (set : List Json)
    (document : Json) :
    ((∀ items, Json.field? key (some document) ≠ some (.array items)) →
        verdictIn key set document = (compile (equalsAny [key] set)).evaluate document ∧
          verdictNotIn key set document =
            (compile (differsFromAll [key] set)).evaluate document) ∧
      (∀ items, Json.field? key (some document) = some (.array items) →
        ∃ answer, verdictIn key set document = .ok answer ∧
          verdictNotIn key set document = .ok (!answer) ∧
          (answer = true ↔
            ∃ item ∈ items, (compile (equalsAny [] set)).evaluate item = .ok true) ∧
          (answer = false ↔
            ∀ item ∈ items, (compile (equalsAny [] set)).evaluate item = .ok false)) ∧
      (∀ item, (compile (equalsAny [] set)).evaluate item = .ok (set.any item.equal)) ∧
      (∀ others, (∀ s, s ∈ set ↔ s ∈ others) →
        verdictIn key set document = verdictIn key others document ∧
          verdictNotIn key set document = verdictNotIn key others document) ∧
      ∀ items items' other, Json.field? key (some document) = some (.array items) →
        Json.field? key (some other) = some (.array items') → (∀ v, v ∈ items ↔ v ∈ items') →
          verdictIn key set document = verdictIn key set other ∧
            verdictNotIn key set document = verdictNotIn key set other := by
  exact ⟨membership_of_single field, fun _ => membership_of_array field,
    fun _ => evaluate_equalities nofun, fun _ same => membership_of_mem_iff field same document,
    fun _ _ _ found found' => membership_of_items field found found'⟩

/-- An array in the set is found in an array of arrays, in whatever order and however often. A text is
compared as it stands. -/
theorem membership_as_equality_nested :
    let pair : Json := .array [.bool true, .null]
    let set := [.string "x", pair]
    let turned := [pair, .string "x", pair]
    let tagged : Json := .object [("tags", .array [.null, pair])]
    let again : Json := .object [("tags", .array [pair, pair, .null])]
    let plain : Json := .object [("tags", .string "x")]
    Operator.ofName? "tags" = none ∧
      verdictIn "tags" set tagged = .ok true ∧ verdictIn "tags" turned tagged = .ok true ∧
      verdictIn "tags" set again = .ok true ∧
      verdictIn "tags" set plain = (compile (equalsAny ["tags"] set)).evaluate plain := by
  intro pair set turned tagged again plain
  have field : Operator.ofName? "tags" = none := by decide
  obtain ⟨_, array, whole, reorder, repeated⟩ := membership_as_equality field set tagged
  obtain ⟨single, _⟩ := membership_as_equality field set plain
  obtain ⟨answer, found, _, yes, _⟩ := array [.null, pair] rfl
  have present : answer = true := yes.mpr ⟨pair, by simp, whole pair⟩
  subst present
  have members : ∀ s, s ∈ set ↔ s ∈ turned := by simp [set, turned, or_comm]
  have elements : ∀ v, v ∈ [.null, pair] ↔ v ∈ [pair, pair, .null] := by simp [or_comm]
  exact ⟨field, found, (reorder turned members).1.symm.trans found,
    (repeated [.null, pair] [pair, pair, .null] again rfl rfl elements).1.symm.trans found,
    (single nofun).1⟩

end Query

end DocQuery
