import DocQuery.Json.Equality
import DocQuery.Json.Order
import DocQuery.Proofs.Json.Tree
import Mathlib.Data.List.Forall2
import Mathlib.Data.List.Perm.Subperm

/-!
# Sameness of values

Two objects that are the same have the same value, or none, under every key. No comparison that a
query makes tells values that are the same apart (`equal_congr_right`, `order?_congr_right`,
`containsAny_congr_right`).
-/

namespace DocQuery

/-- All that the order of numbers reads off a number. -/
theorem Number.views_of_same {a b : Number} (same : a.same b = true) :
    a.signed? = b.signed? ∧ a.unsigned? = b.unsigned? ∧ a.doubleUnits = b.doubleUnits := by
  cases a <;> cases b <;> simp only [Number.same, beq_iff_eq, Bool.false_eq_true] at same
  · subst same; exact ⟨rfl, rfl, rfl⟩
  · subst same; exact ⟨rfl, rfl, rfl⟩
  · exact ⟨rfl, rfl, same⟩

theorem Number.order_congr_right {a b : Number} (same : a.same b = true) (x : Number) :
    x.order a = x.order b := by
  obtain ⟨signed, unsigned, double⟩ := views_of_same same
  simp only [Number.order, signed, unsigned, double]

namespace Json

theorem sameItems_iff {xs ys : List Json} :
    sameItems xs ys = true ↔ List.Forall₂ (fun x y => x.same y = true) xs ys := by
  induction xs generalizing ys with
  | nil => cases ys <;> simp [sameItems]
  | cons x xs ih => cases ys <;> simp [sameItems, ih]

theorem sameEntries_iff {es fs : List (String × Json)} :
    sameEntries es fs = true ↔ ∀ e ∈ es, ∃ w, fs.lookup e.1 = some w ∧ e.2.same w = true := by
  induction es with
  | nil => simp [sameEntries]
  | cons e es ih =>
    obtain ⟨key, v⟩ := e
    simp only [sameEntries, Bool.and_eq_true, ih, List.forall_mem_cons]
    refine and_congr_left fun _ => ?_
    cases fs.lookup key <;> simp

theorem isObject_of_same {a b : Json} (same : a.same b = true) : a.isObject = b.isObject := by
  cases a <;> cases b <;> simp_all [Json.same, isObject]

theorem isArray_of_same {a b : Json} (same : a.same b = true) : a.isArray = b.isArray := by
  cases a <;> cases b <;> simp_all [Json.same, isArray]

/-! ### Containers that are the same -/

/-- What follows for two elements that are paired, given that the left one is an element. -/
theorem forall₂_of_mem {α β : Type} {R S : α → β → Prop} {xs : List α} {ys : List β}
    (pairs : List.Forall₂ R xs ys) (step : ∀ x ∈ xs, ∀ y, R x y → S x y) : List.Forall₂ S xs ys := by
  induction pairs with
  | nil => exact .nil
  | cons head _ ih =>
    obtain ⟨first, rest⟩ := List.forall_mem_cons.mp step
    exact .cons (first _ head) (ih rest)

theorem same_array {items : List Json} {b : Json} (same : (array items).same b = true) :
    ∃ others, b = array others ∧ List.Forall₂ (fun x y => x.same y = true) items others := by
  cases b with
  | array others => exact ⟨others, rfl, sameItems_iff.mp (by simpa only [Json.same] using same)⟩
  | _ => simp [Json.same] at same

/-- As many entries, each with its key on the other side, are the same keys. -/
theorem keys_perm {es fs : List (String × Json)} (unique : (es.map Prod.fst).Nodup)
    (long : es.length = fs.length) (found : ∀ e ∈ es, ∃ w, fs.lookup e.1 = some w) :
    (es.map Prod.fst).Perm (fs.map Prod.fst) := by
  have below : es.map Prod.fst ⊆ fs.map Prod.fst := by
    intro key member
    obtain ⟨e, present, rfl⟩ := List.mem_map.mp member
    exact mem_keys_iff.mpr (found e present)
  exact (unique.subperm below).perm_of_length_le (by simp [long])

/-- As many entries, each with its like under its key on the other side, are alike under every
key. -/
theorem rel_lookup {R : Json → Json → Prop} {es fs : List (String × Json)}
    (unique : (es.map Prod.fst).Nodup) (long : es.length = fs.length)
    (found : ∀ e ∈ es, ∃ w, fs.lookup e.1 = some w ∧ R e.2 w) :
    (fs.map Prod.fst).Nodup ∧ ∀ key, Option.Rel R (es.lookup key) (fs.lookup key) := by
  have keys := keys_perm unique long fun e present => (found e present).imp fun _ h => h.1
  refine ⟨keys.nodup unique, fun key => ?_⟩
  cases left : es.lookup key with
  | some v =>
    obtain ⟨w, right, alike⟩ := found _ (mem_of_lookup left)
    rw [right]
    exact .some alike
  | none =>
    cases right : fs.lookup key with
    | none => exact .none
    | some w =>
      obtain ⟨v, there⟩ := mem_keys_iff.mp (keys.mem_iff.mpr (mem_keys_iff.mpr ⟨w, right⟩))
      rw [left] at there
      cases there

/-- An object is the same as another exactly if a look-up of any key gives the same. -/
theorem same_object {entries : List (String × Json)} {b : Json}
    (unique : (entries.map Prod.fst).Nodup) (same : (object entries).same b = true) :
    ∃ others, b = object others ∧ entries.length = others.length ∧ (others.map Prod.fst).Nodup ∧
      ∀ key, Option.Rel (fun v w => v.same w = true) (entries.lookup key) (others.lookup key) := by
  cases b with
  | object others =>
    simp only [Json.same, Bool.and_eq_true, beq_iff_eq] at same
    obtain ⟨long, found⟩ := same
    exact ⟨others, rfl, long, rel_lookup unique long (sameEntries_iff.mp found)⟩
  | _ => simp [Json.same] at same

theorem rel_swap {R : Json → Json → Prop} {a b : Option Json} (pair : Option.Rel R a b) :
    Option.Rel (fun w v => R v w) b a := by
  cases pair with
  | some related => exact .some related
  | none => exact .none

/-- An entry has its like among the entries of an object with related values under every key. -/
theorem exists_of_mem {R : Json → Json → Prop} {es fs : List (String × Json)} {key : String} {v : Json}
    (unique : (es.map Prod.fst).Nodup)
    (pairs : ∀ key, Option.Rel R (es.lookup key) (fs.lookup key)) (member : (key, v) ∈ es) :
    ∃ w, (key, w) ∈ fs ∧ R v w := by
  have pair := pairs key
  rw [lookup_of_mem unique member] at pair
  cases found : fs.lookup key with
  | none => rw [found] at pair; cases pair
  | some w =>
    rw [found] at pair
    cases pair with
    | some related => exact ⟨w, mem_of_lookup found, related⟩

/-- What holds of the entries of one object holds of those of another, if it does so for the two
values of each key. -/
theorem forall_entries_iff {A : String → Json → Prop} {es fs : List (String × Json)}
    (left : (es.map Prod.fst).Nodup) (right : (fs.map Prod.fst).Nodup)
    (pairs : ∀ key, Option.Rel (fun v w => v.same w = true) (es.lookup key) (fs.lookup key))
    (alike : ∀ key v w, (key, v) ∈ es → v.same w = true → (A key v ↔ A key w)) :
    (∀ e ∈ es, A e.1 e.2) ↔ ∀ f ∈ fs, A f.1 f.2 := by
  constructor
  · rintro every ⟨key, w⟩ member
    obtain ⟨v, present, same⟩ := exists_of_mem right (fun key => rel_swap (pairs key)) member
    exact (alike key v w present same).mp (every _ present)
  · rintro every ⟨key, v⟩ member
    obtain ⟨w, present, same⟩ := exists_of_mem left pairs member
    exact (alike key v w member same).mpr (every _ present)

/-! ### Comparisons with values that are the same -/

theorem equalItems_congr {vs xs ys : List Json}
    (alike : List.Forall₂ (fun x y => ∀ v : Json, v.equal x = v.equal y) xs ys) :
    equalItems vs xs = equalItems vs ys := by
  induction alike generalizing vs with
  | nil => rfl
  | cons head _ ih =>
    cases vs with
    | nil => rfl
    | cons v vs => simp only [equalItems, head v, ih]

theorem equalEntries_congr {vs es fs : List (String × Json)}
    (alike : ∀ key, Option.Rel (fun x y => ∀ v : Json, v.equal x = v.equal y)
      (es.lookup key) (fs.lookup key)) : equalEntries vs es = equalEntries vs fs := by
  induction vs with
  | nil => rfl
  | cons e vs ih =>
    obtain ⟨key, v⟩ := e
    have pair := alike key
    simp only [equalEntries, ih]
    generalize es.lookup key = left, fs.lookup key = right at pair ⊢
    cases pair with
    | none => rfl
    | some same => simp only [same v]

theorem equal_congr_right {a b : Json} (settled : a.Settled) (same : a.same b = true) (v : Json) :
    v.equal a = v.equal b := by
  induction a generalizing b v with
  | null => cases b <;> simp_all [Json.same]
  | bool value => cases b <;> simp_all [Json.same]
  | string value => cases b <;> simp_all [Json.same]
  | number n =>
    cases b with
    | number m => cases v <;> simp_all [Json.same, equal, Number.order_congr_right same]
    | _ => simp [Json.same] at same
  | array items ih =>
    obtain ⟨others, rfl, pairs⟩ := same_array same
    have alike : List.Forall₂ (fun x y => ∀ v : Json, v.equal x = v.equal y) items others :=
      forall₂_of_mem pairs fun x present y same => ih x present (settled_array.mp settled x present) same
    cases v with
    | array vs => simp only [equal, equalItems_congr alike]
    | _ => simp [equal]
  | object entries ih =>
    obtain ⟨unique, inner⟩ := settled_object.mp settled
    obtain ⟨others, rfl, long, _, pairs⟩ := same_object unique same
    have alike : ∀ key, Option.Rel (fun x y => ∀ v : Json, v.equal x = v.equal y)
        (entries.lookup key) (others.lookup key) := by
      intro key
      have member : ∀ x, entries.lookup key = some x → (key, x) ∈ entries := fun x => mem_of_lookup
      have pair := pairs key
      generalize entries.lookup key = left, others.lookup key = right at member pair ⊢
      cases pair with
      | none => exact .none
      | some same =>
        have present := member _ rfl
        exact .some (ih _ present (inner _ present) same)
    cases v with
    | object vs => simp only [equal, long, equalEntries_congr alike]
    | _ => simp [equal]

theorem order?_congr_right {a b : Json} (same : a.same b = true) (v : Json) :
    v.order? a = v.order? b := by
  cases a <;> cases b <;> simp only [Json.same, Bool.false_eq_true, beq_iff_eq] at same
  case number.number => cases v <;> simp only [order?, Number.order_congr_right same]
  case string.string => subst same; rfl
  all_goals cases v <;> rfl

theorem any_equal_congr_right {set others : List Json} (settled : ∀ x ∈ set, x.Settled)
    (same : List.Forall₂ (fun x y => x.same y = true) set others) (v : Json) :
    set.any v.equal = others.any v.equal := by
  induction same with
  | nil => rfl
  | cons head _ ih =>
    obtain ⟨first, rest⟩ := List.forall_mem_cons.mp settled
    simp only [List.any_cons, equal_congr_right first head v, ih rest]

theorem containsAny_congr_right {set others : List Json} (settled : ∀ x ∈ set, x.Settled)
    (same : List.Forall₂ (fun x y => x.same y = true) set others) (v : Json) :
    containsAny set v = containsAny others v := by
  unfold containsAny
  split <;> simp only [any_equal_congr_right settled same]

end Json

end DocQuery
