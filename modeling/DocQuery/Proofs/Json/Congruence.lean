import DocQuery.Proofs.Json.Sameness

/-!
# Comparisons of values that are the same

A comparison gives the same whichever of two values that are the same stands on its left
(`equal_congr_left`, `order?_congr_left`, `containsAny_congr_left`), and so it does on both sides at
once. Fields of values that are the same are the same, or there in neither.
-/

namespace DocQuery

theorem Number.order_congr_left {a b : Number} (same : a.same b = true) (x : Number) :
    a.order x = b.order x := by
  obtain ⟨signed, unsigned, double⟩ := views_of_same same
  simp only [Number.order, signed, unsigned, double]

namespace Json

/-! ### Values on the left -/

theorem equalItems_congr_left {xs ys vs : List Json}
    (alike : List.Forall₂ (fun x y => ∀ v : Json, x.equal v = y.equal v) xs ys) :
    equalItems xs vs = equalItems ys vs := by
  induction alike generalizing vs with
  | nil => rfl
  | cons head _ ih =>
    cases vs with
    | nil => rfl
    | cons v vs => simp only [equalItems, head v, ih]

theorem equalEntries_iff {es fs : List (String × Json)} :
    equalEntries es fs = true ↔ ∀ e ∈ es, ∃ w, fs.lookup e.1 = some w ∧ e.2.equal w = true := by
  induction es with
  | nil => simp [equalEntries]
  | cons e es ih =>
    obtain ⟨key, v⟩ := e
    simp only [equalEntries, Bool.and_eq_true, ih, List.forall_mem_cons]
    refine and_congr_left fun _ => ?_
    cases fs.lookup key <;> simp

theorem equal_congr_left {a b : Json} (settled : a.Settled) (same : a.same b = true) (v : Json) :
    a.equal v = b.equal v := by
  induction a generalizing b v with
  | null => cases b <;> simp_all [Json.same]
  | bool value => cases b <;> simp_all [Json.same]
  | string value => cases b <;> simp_all [Json.same]
  | number n =>
    cases b with
    | number m => cases v <;> simp_all [Json.same, equal, Number.order_congr_left same]
    | _ => simp [Json.same] at same
  | array items ih =>
    obtain ⟨others, rfl, pairs⟩ := same_array same
    have alike : List.Forall₂ (fun x y => ∀ v : Json, x.equal v = y.equal v) items others :=
      forall₂_of_mem pairs fun x present y same => ih x present (settled_array.mp settled x present) same
    cases v with
    | array vs => simp only [equal, equalItems_congr_left alike]
    | _ => simp [equal]
  | object entries ih =>
    obtain ⟨unique, inner⟩ := settled_object.mp settled
    obtain ⟨others, rfl, long, unique', pairs⟩ := same_object unique same
    cases v with
    | object vs =>
      have found : equalEntries entries vs = true ↔ equalEntries others vs = true := by
        rw [equalEntries_iff, equalEntries_iff]
        refine forall_entries_iff (A := fun key v => ∃ w, vs.lookup key = some w ∧ v.equal w = true)
          unique unique' pairs fun key v w member same => ?_
        simp only [ih _ member (inner _ member) same]
      simp only [equal, long, Bool.eq_iff_iff.mpr found]
    | _ => simp [equal]

theorem order?_congr_left {a b : Json} (same : a.same b = true) (v : Json) :
    a.order? v = b.order? v := by
  cases a <;> cases b <;> simp only [Json.same, Bool.false_eq_true, beq_iff_eq] at same
  case number.number => cases v <;> simp only [order?, Number.order_congr_left same]
  case string.string => subst same; rfl
  all_goals cases v <;> rfl

theorem any_equal_congr_left {a b : Json} (settled : a.Settled) (same : a.same b = true)
    (set : List Json) : set.any a.equal = set.any b.equal := by
  rw [funext (equal_congr_left settled same)]

theorem containsAny_of_not_array {v : Json} (single : v.isArray = false) (set : List Json) :
    containsAny set v = set.any v.equal := by
  cases v with
  | array => cases single
  | _ => rfl

theorem containsAny_congr_left {a b : Json} (settled : a.Settled) (same : a.same b = true)
    (set : List Json) : containsAny set a = containsAny set b := by
  by_cases array : a.isArray = true
  · cases a with
    | array items =>
      obtain ⟨others, rfl, pairs⟩ := same_array same
      have each := settled_array.mp settled
      unfold containsAny
      clear array same settled
      induction pairs with
      | nil => rfl
      | cons head _ ih =>
        obtain ⟨first, rest⟩ := List.forall_mem_cons.mp each
        simp only [List.any_cons, any_equal_congr_left first head, ih rest]
    | _ => cases array
  · have single := Bool.eq_false_iff.mpr array
    rw [containsAny_of_not_array single,
      containsAny_of_not_array ((isArray_of_same same).symm.trans single),
      any_equal_congr_left settled same]

/-! ### Fields of values that are the same -/

theorem settled_field? {name : String} {v : Option Json} (settled : ∀ a, v = some a → a.Settled) :
    ∀ a, field? name v = some a → a.Settled := by
  intro a found
  unfold field? at found
  split at found
  · rename_i entries
    obtain ⟨_, inner⟩ := settled_object.mp (settled _ rfl)
    exact inner _ (mem_of_lookup found)
  · cases found

theorem field?_of_not_object {v : Json} (other : v.isObject = false) (name : String) :
    field? name (some v) = none := by
  cases v with
  | object => cases other
  | _ => rfl

theorem rel_field? {v w : Option Json} (settled : ∀ a, v = some a → a.Settled)
    (pair : Option.Rel (fun a b => a.same b = true) v w) (name : String) :
    Option.Rel (fun a b => a.same b = true) (field? name v) (field? name w) := by
  cases pair with
  | none => exact .none
  | @some a b same =>
    by_cases object : a.isObject = true
    · cases a with
      | object entries =>
        obtain ⟨unique, _⟩ := settled_object.mp (settled _ rfl)
        obtain ⟨others, rfl, _, _, pairs⟩ := same_object unique same
        exact pairs name
      | _ => cases object
    · have other := Bool.eq_false_iff.mpr object
      rw [field?_of_not_object other,
        field?_of_not_object ((isObject_of_same same).symm.trans other)]
      exact .none

end Json

end DocQuery
