import DocQuery.Predicate.Form
import DocQuery.Proofs.Json.Tree
import DocQuery.Proofs.Predicate.Tree
import DocQuery.Proofs.Query.Compilation

/-!
# Literals that repeat no key

The literals of a predicate are values: no object in them repeats a key. A query without repeated
keys compiles to such a predicate (`settled_compile`), and reading a text gives no other
(`settled_of_parse?`).
-/

namespace DocQuery

namespace Predicate

def Settled (p : Predicate) : Prop :=
  ∀ node path, Occurs node path p → ∀ literal ∈ node.literals, literal.Settled

theorem settled_iff {p : Predicate} :
    p.Settled ↔ (∀ literal ∈ p.literals, literal.Settled) ∧ ∀ child ∈ p.children, child.Settled :=
  everywhere_iff (A := fun node => ∀ literal ∈ node.literals, literal.Settled)

/-! ### Predicates of texts -/

theorem settleClauses_eq (clauses : List Predicate) : settleClauses clauses = clauses.map settle := by
  induction clauses with
  | nil => rfl
  | cons p rest ih => rw [settleClauses, ih, List.map_cons]

theorem literals_settle (p : Predicate) : p.settle.literals = p.literals.map Json.settle := by
  cases p <;> simp [settle, literals, Json.settleItems_eq]

theorem children_settle (p : Predicate) : p.settle.children = p.children.map settle := by
  cases p <;> simp [settle, children, settleClauses_eq]

theorem settled_settle (p : Predicate) : p.settle.Settled := by
  induction p using induct_children with
  | step p ih =>
    rw [settled_iff, literals_settle, children_settle]
    exact ⟨List.forall_mem_map.mpr fun v _ => Json.settled_settle v, List.forall_mem_map.mpr ih⟩

theorem settled_of_parse? {text : String} {p : Predicate} (parsed : parse? text = some p) :
    p.Settled := by
  unfold parse? at parsed
  split at parsed
  · cases parsed
  · obtain ⟨written, _, rfl⟩ := Option.map_eq_some_iff.mp parsed
    exact settled_settle written

theorem settle_of_settled {p : Predicate} (settled : p.Settled) : p.settle = p := by
  have clauses : ∀ {clauses : List Predicate}, (∀ p ∈ clauses, p.settle = p) →
      settleClauses clauses = clauses := by
    intro clauses each
    rw [settleClauses_eq, List.map_congr_left each, List.map_id']
  induction p with
  | field name inner ih =>
    obtain ⟨_, below⟩ := settled_iff.mp settled
    rw [settle, ih (below inner (List.mem_singleton_self _))]
  | eq expected | ne expected | ordered comparison expected =>
    obtain ⟨own, _⟩ := settled_iff.mp settled
    rw [settle, Json.settle_of_settled (own expected (List.mem_singleton_self _))]
  | oneOf set | noneOf set =>
    have own : ∀ literal ∈ set, literal.Settled := (settled_iff.mp settled).1
    rw [settle, Json.settleItems_of_settled own]
  | all ps ih | any ps ih =>
    obtain ⟨_, below⟩ := settled_iff.mp settled
    rw [settle, clauses fun p member => ih p member (below p member)]
  | present | malformed => rfl

end Predicate

theorem Query.settled_compile {q : Json} (settled : q.Settled) : (compile q).Settled :=
  everyLiteral_compile (fun _ => Json.settled_array.mp)
    (fun _ whole => (Json.settled_object.mp whole).2) settled

end DocQuery
