import DocQuery.Predicate.Basic

/-!
# Trees of predicates

Induction over predicates with a hypothesis for every clause, and the nodes of a predicate with the
paths of fields that lead to them. A node is tested against the value that its path reaches.
-/

namespace DocQuery

/-- The value at the end of a path of fields. -/
def Json.reach? : List String → Option Json → Option Json
  | [], value => value
  | name :: path, value => reach? path (field? name value)

theorem Json.reach?_none (path : List String) : reach? path none = none := by
  induction path with
  | nil => rfl
  | cons name path ih => exact ih

namespace Predicate

@[elab_as_elim, induction_eliminator]
theorem induct {motive : Predicate → Prop}
    (field : ∀ name inner, motive inner → motive (.field name inner))
    (eq : ∀ expected, motive (.eq expected)) (ne : ∀ expected, motive (.ne expected))
    (ordered : ∀ comparison bound, motive (.ordered comparison bound))
    (oneOf : ∀ set, motive (.oneOf set)) (noneOf : ∀ set, motive (.noneOf set))
    (present : ∀ expected, motive (.present expected))
    (all : ∀ clauses, (∀ p ∈ clauses, motive p) → motive (.all clauses))
    (any : ∀ clauses, (∀ p ∈ clauses, motive p) → motive (.any clauses))
    (malformed : ∀ reason, motive (.malformed reason)) : ∀ p, motive p :=
  @Predicate.rec motive (fun clauses => ∀ p ∈ clauses, motive p)
    field eq ne ordered oneOf noneOf present all any malformed
    (by simp) (fun _ _ head tail => by simpa using ⟨head, tail⟩)

/-- The predicates right below a node. -/
def children : Predicate → List Predicate
  | .field _ inner => [inner]
  | .all clauses => clauses
  | .any clauses => clauses
  | _ => []

/-- Induction that treats all kinds of nodes alike. -/
theorem induct_children {motive : Predicate → Prop}
    (step : ∀ p : Predicate, (∀ child ∈ p.children, motive child) → motive p) (p : Predicate) :
    motive p := by
  induction p with
  | field name inner ih => exact step _ (List.forall_mem_singleton.mpr ih)
  | all clauses ih => exact step _ ih
  | any clauses ih => exact step _ ih
  | _ => exact step _ nofun

/-- The literals of a node itself. -/
def literals : Predicate → List Json
  | .eq expected => [expected]
  | .ne expected => [expected]
  | .ordered _ bound => [bound]
  | .oneOf set => set
  | .noneOf set => set
  | _ => []

/-- The nodes that look at the value they are tested against. -/
def isLeaf : Predicate → Bool
  | .field .. | .all _ | .any _ | .malformed _ => false
  | _ => true

/-- The node stands in the predicate, behind the fields of the path, outermost first. -/
inductive Occurs (node : Predicate) : List String → Predicate → Prop
  | here : Occurs node [] node
  | field {name : String} {path : List String} {inner : Predicate} :
      Occurs node path inner → Occurs node (name :: path) (.field name inner)
  | all {clause : Predicate} {clauses : List Predicate} {path : List String} :
      clause ∈ clauses → Occurs node path clause → Occurs node path (.all clauses)
  | any {clause : Predicate} {clauses : List Predicate} {path : List String} :
      clause ∈ clauses → Occurs node path clause → Occurs node path (.any clauses)

theorem Occurs.root_or_child {node p : Predicate} {path : List String} (there : Occurs node path p) :
    node = p ∨ ∃ child ∈ p.children, ∃ rest, Occurs node rest child := by
  cases there with
  | here => exact .inl rfl
  | field below => exact .inr ⟨_, List.mem_singleton_self _, _, below⟩
  | all member below => exact .inr ⟨_, member, _, below⟩
  | any member below => exact .inr ⟨_, member, _, below⟩

theorem Occurs.of_child {node child p : Predicate} {rest : List String} (member : child ∈ p.children)
    (below : Occurs node rest child) : ∃ path, Occurs node path p := by
  cases p with
  | field name inner =>
    obtain rfl := List.mem_singleton.mp member
    exact ⟨_, .field below⟩
  | all clauses => exact ⟨_, .all member below⟩
  | any clauses => exact ⟨_, .any member below⟩
  | _ => cases member

/-- All nodes of the predicate have the property. -/
def Everywhere (A : Predicate → Prop) (p : Predicate) : Prop :=
  ∀ node path, Occurs node path p → A node

theorem everywhere_iff {A : Predicate → Prop} {p : Predicate} :
    Everywhere A p ↔ A p ∧ ∀ child ∈ p.children, Everywhere A child := by
  constructor
  · intro every
    refine ⟨every p [] .here, fun child member node rest below => ?_⟩
    obtain ⟨path, there⟩ := Occurs.of_child member below
    exact every node path there
  · rintro ⟨own, below⟩ node path there
    obtain rfl | ⟨child, member, rest, there⟩ := there.root_or_child
    · exact own
    · exact below child member node rest there

theorem everywhere_of_childless {A : Predicate → Prop} {p : Predicate} (own : A p)
    (childless : p.children = []) : Everywhere A p := by
  rw [everywhere_iff, childless]
  exact ⟨own, List.forall_mem_nil _⟩

/-- All literals in the predicate have the property. -/
def EveryLiteral (P : Json → Prop) (p : Predicate) : Prop :=
  Everywhere (fun node => ∀ literal ∈ node.literals, P literal) p

theorem everyLiteral_iff {P : Json → Prop} {p : Predicate} :
    p.EveryLiteral P ↔
      (∀ literal ∈ p.literals, P literal) ∧ ∀ child ∈ p.children, child.EveryLiteral P :=
  everywhere_iff

theorem everyLiteral_of_bare {P : Json → Prop} {p : Predicate} (bare : p.literals = [])
    (below : ∀ child ∈ p.children, child.EveryLiteral P) : p.EveryLiteral P := by
  rw [everyLiteral_iff, bare]
  exact ⟨List.forall_mem_nil _, below⟩

end Predicate

end DocQuery
