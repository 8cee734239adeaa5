import DocQuery.Proofs.Json.Reading
import DocQuery.Proofs.Predicate.Settled

/-!
# Forms of predicates

A predicate reads back from its form, whatever its literals look like: tag and payload never mix,
since the reader looks at the tags of nodes only (`ofJson?_toJson`). So no two predicates share a form
(`forms_are_faithful`). From the text of a form it reads back as well, as long as its literals are
values without doubles and the form is not too deep (`parse?_text`).
-/

namespace DocQuery

/-! ### Reading forms -/

theorem Malformed.ofJson?_toJson (reason : Malformed) : ofJson? reason.toJson = some reason := by
  cases reason <;> rfl

namespace Predicate

theorem ofFields?_name (name : String) (rest : List (String × Json)) (inner : Option Predicate) :
    ofFields? (("name", .string name) :: rest) none inner = ofFields? rest (some name) inner := by
  rw [ofFields?.eq_def]
  exact if_pos rfl

theorem ofFields?_inner (form : Json) (rest : List (String × Json)) (name : Option String) :
    ofFields? (("inner", form) :: rest) name none =
      (ofJson? form).bind fun p => ofFields? rest name (some p) := by
  rw [ofFields?.eq_def]
  refine (if_neg (by decide)).trans ((if_pos rfl).trans ?_)
  cases ofJson? form <;> rfl

theorem ofJson?_field (name : String) (form : Json) :
    ofJson? (.object [("Field", .object [("name", .string name), ("inner", form)])]) =
      (ofJson? form).map (.field name) := by
  rw [ofJson?, ofFields?_name, ofFields?_inner]
  cases ofJson? form with
  | none => rfl
  | some inner => rw [Option.bind_some, ofFields?, Option.map_some]

theorem ofClauses?_toJsonClauses {clauses : List Predicate}
    (each : ∀ p ∈ clauses, ofJson? p.toJson = some p) :
    ofClauses? (toJsonClauses clauses) = some clauses := by
  induction clauses with
  | nil => rw [toJsonClauses, ofClauses?]
  | cons p rest ih =>
    obtain ⟨first, later⟩ := List.forall_mem_cons.mp each
    rw [toJsonClauses, ofClauses?, first, ih later]

theorem ofJson?_toJson (p : Predicate) : ofJson? p.toJson = some p := by
  induction p with
  | field name inner ih => rw [toJson, ofJson?_field, ih, Option.map_some]
  | ordered comparison bound => cases comparison <;> rw [toJson, Comparison.kind, ofJson?]
  | all clauses ih | any clauses ih =>
    rw [toJson, ofJson?, ofClauses?_toJsonClauses ih, Option.map_some]
  | malformed reason => rw [toJson, ofJson?, Malformed.ofJson?_toJson, Option.map_some]
  | eq | ne | oneOf | noneOf | present => rw [toJson, ofJson?]

/-- A form keeps the whole predicate, also when a literal in it looks like a form. -/
theorem forms_are_faithful (p p' : Predicate) :
    ofJson? p.toJson = some p ∧ (p.toJson = p'.toJson ↔ p = p') := by
  refine ⟨ofJson?_toJson p, ?_, congrArg toJson⟩
  intro same
  have read := ofJson?_toJson p
  rw [same, ofJson?_toJson p'] at read
  exact (Option.some.inj read).symm

theorem toJsonClauses_eq (clauses : List Predicate) : toJsonClauses clauses = clauses.map toJson := by
  induction clauses with
  | nil => rfl
  | cons p rest ih => rw [toJsonClauses, ih, List.map_cons]

/-! ### Depth of forms -/

theorem depth_single (key : String) (v : Json) : (Json.object [(key, v)]).depth = v.depth + 1 := by
  rw [Json.depth, Json.depthEntries, Json.depthEntries, Nat.max_zero]

theorem depth_field (name : String) (inner : Predicate) :
    (field name inner).toJson.depth = inner.toJson.depth + 2 := by
  rw [toJson, depth_single, Json.depth]
  simp [Json.depthEntries, Json.depth]

theorem depth_all (clauses : List Predicate) :
    (all clauses).toJson.depth = Json.depthItems (clauses.map toJson) + 2 := by
  rw [toJson, depth_single, Json.depth, toJsonClauses_eq]

theorem depth_any (clauses : List Predicate) :
    (any clauses).toJson.depth = Json.depthItems (clauses.map toJson) + 2 := by
  rw [toJson, depth_single, Json.depth, toJsonClauses_eq]

theorem depth_malformed (reason : Malformed) : (malformed reason).toJson.depth ≤ 3 := by
  cases reason <;> exact Nat.le_of_ble_eq_true rfl

/-! ### Reading texts of forms -/

theorem selects_single {place inner : Place} {key : String} {v : Json}
    (counts : place.entry key = some inner) (body : Json.Selects Place.selection inner v) :
    Json.Selects Place.selection place (.object [(key, v)]) :=
  .object (fun _ => inner) (List.forall_mem_singleton.mpr counts) (List.forall_mem_singleton.mpr body)

theorem selects_literal (v : Json) : Json.Selects Place.selection .literal v :=
  Json.selects_of_constant (fun _ => rfl) rfl v

theorem selects_fields (name : String) {form : Json}
    (inner : Json.Selects Place.selection .predicate form) :
    Json.Selects Place.selection .fields (.object [("name", .string name), ("inner", form)]) := by
  let place (key : String) : Place := if key = "name" then .literal else .predicate
  have nameFirst : place "name" = .literal := if_pos rfl
  have innerNext : place "inner" = .predicate := if_neg (by decide)
  refine .object place ?_ ?_
  · simp [nameFirst, innerNext, Place.selection, Place.entry]
  · simp [nameFirst, innerNext, selects_literal, inner]

theorem selects_reason (reason : Malformed) : Json.Selects Place.selection .reason reason.toJson := by
  have named : ∀ kind operator,
      Json.Selects Place.selection .reason (Malformed.withOperator kind operator) :=
    fun kind operator => selects_single rfl (selects_single rfl (selects_literal _))
  cases reason with
  | notAnObject => exact .scalar rfl rfl
  | _ => exact named _ _

/-- Reading a form's text leaves nothing of the form out. -/
theorem selects_toJson (p : Predicate) : Json.Selects Place.selection .predicate p.toJson := by
  have clauses : ∀ {clauses : List Predicate},
      (∀ p ∈ clauses, Json.Selects Place.selection .predicate p.toJson) →
        Json.Selects Place.selection .predicate (.array (toJsonClauses clauses)) := by
    intro clauses each
    rw [toJsonClauses_eq]
    exact .array (List.forall_mem_map.mpr each)
  induction p with
  | field name inner ih => exact selects_single rfl (selects_fields name ih)
  | ordered comparison bound => cases comparison <;> exact selects_single rfl (selects_literal bound)
  | all ps ih | any ps ih => exact selects_single rfl (clauses ih)
  | malformed reason => exact selects_single rfl (selects_reason reason)
  | eq | ne | oneOf | noneOf | present => exact selects_single rfl (selects_literal _)

def DoubleFree : Predicate → Prop := EveryLiteral (·.doubleFree = true)

theorem doubleFree_single (key : String) (v : Json) :
    (Json.object [(key, v)]).doubleFree = v.doubleFree := by
  rw [Json.doubleFree, Json.doubleFreeEntries, Json.doubleFreeEntries, Bool.and_true]

theorem doubleFree_toJson {p : Predicate} (whole : p.DoubleFree) : p.toJson.doubleFree = true := by
  have clauses : ∀ {clauses : List Predicate}, (∀ p ∈ clauses, p.toJson.doubleFree = true) →
      (Json.array (toJsonClauses clauses)).doubleFree = true := by
    intro clauses each
    rw [toJsonClauses_eq, Json.doubleFree, Json.doubleFreeItems_iff]
    exact List.forall_mem_map.mpr each
  induction p with
  | field name inner ih =>
    have below := (everyLiteral_iff.mp whole).2 inner (List.mem_singleton_self _)
    rw [toJson, doubleFree_single, Json.doubleFree, Json.doubleFreeEntries_iff]
    exact List.forall_mem_cons.mpr ⟨rfl, List.forall_mem_singleton.mpr (ih below)⟩
  | eq expected | ne expected | ordered comparison expected =>
    rw [toJson, doubleFree_single]
    exact (everyLiteral_iff.mp whole).1 expected (List.mem_singleton_self _)
  | oneOf set | noneOf set =>
    rw [toJson, doubleFree_single, Json.doubleFree, Json.doubleFreeItems_iff]
    exact (everyLiteral_iff.mp whole).1
  | present => rfl
  | all ps ih | any ps ih =>
    have below := (everyLiteral_iff.mp whole).2
    rw [toJson, doubleFree_single]
    exact clauses fun p member => ih p member (below p member)
  | malformed reason => cases reason <;> rfl

theorem parse?_text {p : Predicate} (settled : p.Settled) (whole : p.DoubleFree)
    (shallow : p.toJson.depth ≤ Json.maxDepth) : parse? p.text = some p := by
  have read : Json.readSelected Place.selection .predicate p.text = .ok p.toJson :=
    Json.readSelected_text (doubleFree_toJson whole) (selects_toJson p) shallow
  rw [parse?, read]
  simp only [ofJson?_toJson, Option.map_some, settle_of_settled settled]

end Predicate

end DocQuery
