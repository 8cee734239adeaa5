import DocQuery.Proofs.Json.Congruence
import DocQuery.Proofs.Json.Reading
import DocQuery.Proofs.Number.Exactness

/-!
# Equality of queries

`Json.equal` is reflexive and symmetric, finds objects equal by their keys and the values under them,
and holds of values that are the same. Without doubles it is sameness (`equality_laws`).
-/

namespace DocQuery

namespace Number

theorem order_swap (a b : Number) : (a.order b).swap = b.order a := by
  rcases order_cases a b with ⟨left, right, exact⟩ | ⟨double, rounded⟩
  · rw [exact, order_of_integers right left]
    exact Std.OrientedCmp.eq_swap.symm
  · rw [rounded, order_of_double double.symm]
    exact Std.OrientedCmp.eq_swap.symm

theorem order_self (a : Number) : a.order a = .eq := by
  rcases order_eq_or a a with same | exact
  · exact same
  · rw [exact, compare_eq_iff_eq]

theorem natCast_ne_neg {m n : ℕ} (positive : 0 < n) : (m : ℚ) ≠ -n := by
  intro same
  have none : m = 0 ∧ n = 0 := by exact_mod_cast same
  omega

/-- Integers of equal value are of one kind. -/
theorem same_of_order {a b : Number} (left : a.isDouble = false) (right : b.isDouble = false)
    (equal : a.order b = .eq) : a.same b = true := by
  rw [order_of_exact (.integers left right), compare_eq_iff_eq] at equal
  cases a with
  | natural m =>
    cases b with
    | natural n => simpa [value, same] using equal
    | negative n positive => exact absurd equal (natCast_ne_neg positive)
    | double => cases right
  | negative m positive =>
    cases b with
    | natural n => exact absurd equal.symm (natCast_ne_neg positive)
    | negative n => simpa [value, same] using equal
    | double => cases right
  | double => cases left

end Number

namespace Json

variable {a b : Json} {es fs : List (String × Json)}

/-! ### Containers -/

theorem rel_imp {R S : Json → Json → Prop} {v w : Option Json} (pair : Option.Rel R v w)
    (step : ∀ x y, v = some x → w = some y → R x y → S x y) : Option.Rel S v w := by
  cases pair with
  | some related => exact .some (step _ _ rfl rfl related)
  | none => exact .none

theorem forall₂_iff_rel {R : Json → Json → Prop} {xs ys : List Json} :
    List.Forall₂ R xs ys ↔ ∀ n : Nat, Option.Rel R xs[n]? ys[n]? := by
  induction xs generalizing ys with
  | nil =>
    cases ys with
    | nil => exact iff_of_true .nil fun _ => .none
    | cons y ys => exact iff_of_false nofun fun pairs => nomatch pairs 0
  | cons x xs ih =>
    cases ys with
    | nil => exact iff_of_false nofun fun pairs => nomatch pairs 0
    | cons y ys =>
      rw [List.forall₂_cons, ih]
      constructor
      · rintro ⟨first, rest⟩ (_ | n)
        · exact .some first
        · exact rest n
      · intro pairs
        refine ⟨?_, fun n => pairs (n + 1)⟩
        cases pairs 0 with
        | some first => exact first

theorem equalItems_iff {xs ys : List Json} :
    equalItems xs ys = true ↔ List.Forall₂ (fun x y => x.equal y = true) xs ys := by
  induction xs generalizing ys with
  | nil => cases ys <;> simp [equalItems]
  | cons x xs ih => cases ys <;> simp [equalItems, ih]

theorem equal_array_iff {xs ys : List Json} :
    (array xs).equal (array ys) = true ↔
      ∀ n : Nat, Option.Rel (fun x y => x.equal y = true) xs[n]? ys[n]? := by
  rw [equal, equalItems_iff, forall₂_iff_rel]

theorem keys_perm_of_rel {R : Json → Json → Prop} (left : (es.map Prod.fst).Nodup)
    (right : (fs.map Prod.fst).Nodup)
    (pairs : ∀ key, Option.Rel R (es.lookup key) (fs.lookup key)) :
    (es.map Prod.fst).Perm (fs.map Prod.fst) := by
  refine (List.perm_ext_iff_of_nodup left right).mpr fun key => ?_
  rw [mem_keys_iff, mem_keys_iff]
  have pair := pairs key
  generalize es.lookup key = v, fs.lookup key = w at pair ⊢
  cases pair with
  | some => simp
  | none => simp

/-- Two objects are equal exactly if look-ups of any key give equal values, or nothing. -/
theorem equal_object_iff (left : (es.map Prod.fst).Nodup) (right : (fs.map Prod.fst).Nodup) :
    (object es).equal (object fs) = true ↔
      ∀ key, Option.Rel (fun v w => v.equal w = true) (es.lookup key) (fs.lookup key) := by
  simp only [equal, Bool.and_eq_true, beq_iff_eq, equalEntries_iff]
  constructor
  · rintro ⟨long, found⟩
    exact (rel_lookup left long found).2
  · intro pairs
    refine ⟨by simpa using (keys_perm_of_rel left right pairs).length_eq, ?_⟩
    rintro ⟨key, v⟩ member
    obtain ⟨w, present, equal⟩ := exists_of_mem left pairs member
    exact ⟨w, lookup_of_mem right present, equal⟩

/-- Objects are alike under every key exactly if they have the same keys, with values that are alike. -/
theorem rel_lookup_iff {R : Json → Json → Prop} (left : (es.map Prod.fst).Nodup)
    (right : (fs.map Prod.fst).Nodup) :
    (∀ key, Option.Rel R (es.lookup key) (fs.lookup key)) ↔
      (∀ key, key ∈ es.map Prod.fst ↔ key ∈ fs.map Prod.fst) ∧
        ∀ key v w, (key, v) ∈ es → (key, w) ∈ fs → R v w := by
  constructor
  · intro pairs
    refine ⟨fun key => (keys_perm_of_rel left right pairs).mem_iff, fun key v w there here => ?_⟩
    have pair := pairs key
    rw [lookup_of_mem left there, lookup_of_mem right here] at pair
    cases pair with
    | some alike => exact alike
  · rintro ⟨keys, alike⟩ key
    have present := keys key
    rw [mem_keys_iff, mem_keys_iff] at present
    cases there : es.lookup key with
    | some v =>
      obtain ⟨w, here⟩ := present.mp ⟨v, there⟩
      rw [here]
      exact .some (alike key v w (mem_of_lookup there) (mem_of_lookup here))
    | none =>
      cases here : fs.lookup key with
      | none => exact .none
      | some w =>
        obtain ⟨v, wrong⟩ := present.mpr ⟨w, here⟩
        rw [there] at wrong
        cases wrong

/-! ### Laws -/

theorem equal_self (settled : a.Settled) : a.equal a = true := by
  induction a with
  | null => rfl
  | bool value => exact beq_self_eq_true value
  | number n => exact beq_iff_eq.mpr (Number.order_self n)
  | string text => exact beq_self_eq_true text
  | array items ih =>
    have each := settled_array.mp settled
    refine equal_array_iff.mpr fun n => ?_
    cases found : items[n]? with
    | none => exact .none
    | some v =>
      have member := List.mem_of_getElem? found
      exact .some (ih v member (each v member))
  | object entries ih =>
    obtain ⟨unique, each⟩ := settled_object.mp settled
    rw [equal_object_iff unique unique]
    intro key
    cases found : entries.lookup key with
    | none => exact .none
    | some v =>
      have member := mem_of_lookup found
      exact .some (ih _ member (each _ member))

theorem equal_symm (left : a.Settled) (right : b.Settled) (same : a.equal b = true) :
    b.equal a = true := by
  induction a generalizing b with
  | null => cases b <;> simp_all [equal]
  | bool => cases b <;> simp_all [equal]
  | string => cases b <;> simp_all [equal]
  | number m =>
    cases b with
    | number n =>
      simp only [equal, beq_iff_eq] at same ⊢
      rw [← Number.order_swap, same]
      rfl
    | _ => simp [equal] at same
  | array items ih =>
    cases b with
    | array others =>
      have eachLeft := settled_array.mp left
      have eachRight := settled_array.mp right
      rw [equal_array_iff] at same ⊢
      refine fun n => rel_imp (rel_swap (same n)) fun y x here there equal => ?_
      have memberLeft := List.mem_of_getElem? there
      have memberRight := List.mem_of_getElem? here
      exact ih x memberLeft (eachLeft x memberLeft) (eachRight y memberRight) equal
    | _ => simp [equal] at same
  | object entries ih =>
    cases b with
    | object others =>
      obtain ⟨uniqueLeft, eachLeft⟩ := settled_object.mp left
      obtain ⟨uniqueRight, eachRight⟩ := settled_object.mp right
      rw [equal_object_iff uniqueLeft uniqueRight] at same
      rw [equal_object_iff uniqueRight uniqueLeft]
      refine fun key => rel_imp (rel_swap (same key)) fun y x here there equal => ?_
      have memberLeft := mem_of_lookup there
      have memberRight := mem_of_lookup here
      exact ih _ memberLeft (eachLeft _ memberLeft) (eachRight _ memberRight) equal
    | _ => simp [equal] at same

theorem equal_of_same (settled : a.Settled) (same : a.same b = true) : a.equal b = true :=
  equal_congr_right settled same a ▸ equal_self settled

theorem isDouble_of_doubleFree {n : Number} (whole : (number n).doubleFree = true) :
    n.isDouble = false := by
  cases n with
  | double => cases whole
  | _ => rfl

theorem same_of_equal (left : a.doubleFree = true) (right : b.doubleFree = true)
    (equal : a.equal b = true) : a.same b = true := by
  induction a generalizing b with
  | null => cases b <;> simp_all [Json.equal, Json.same]
  | bool => cases b <;> simp_all [Json.equal, Json.same]
  | string => cases b <;> simp_all [Json.equal, Json.same]
  | number m =>
    cases b with
    | number n =>
      exact Number.same_of_order (isDouble_of_doubleFree left) (isDouble_of_doubleFree right)
        (beq_iff_eq.mp equal)
    | _ => simp [Json.equal] at equal
  | array items ih =>
    cases b with
    | array others =>
      have eachLeft := doubleFreeItems_iff.mp left
      have eachRight := doubleFreeItems_iff.mp right
      rw [equal_array_iff] at equal
      rw [Json.same, sameItems_iff, forall₂_iff_rel]
      refine fun n => rel_imp (equal n) fun x y there here alike => ?_
      have memberLeft := List.mem_of_getElem? there
      exact ih x memberLeft (eachLeft x memberLeft) (eachRight y (List.mem_of_getElem? here)) alike
    | _ => simp [Json.equal] at equal
  | object entries ih =>
    cases b with
    | object others =>
      have eachLeft := doubleFreeEntries_iff.mp left
      have eachRight := doubleFreeEntries_iff.mp right
      simp only [Json.equal, Json.same, Bool.and_eq_true, equalEntries_iff, sameEntries_iff] at equal ⊢
      refine ⟨equal.1, fun e member => ?_⟩
      obtain ⟨w, found, alike⟩ := equal.2 e member
      exact ⟨w, found, ih e member (eachLeft e member) (eachRight _ (mem_of_lookup found)) alike⟩
    | _ => simp [Json.equal] at equal

/-- Equality is reflexive and symmetric. Two objects are equal exactly if they have the same keys, in
whatever order, and equal values under each. Values that are the same are equal, and without doubles
values that are equal are the same. -/
theorem equality_laws {a b : Json} (left : a.Settled) (right : b.Settled) :
    a.equal a = true ∧ a.equal b = b.equal a ∧
      (∀ es fs, a = object es → b = object fs →
        (a.equal b = true ↔
          (∀ key, key ∈ es.map Prod.fst ↔ key ∈ fs.map Prod.fst) ∧
            ∀ key v w, (key, v) ∈ es → (key, w) ∈ fs → v.equal w = true)) ∧
      (a.same b = true → a.equal b = true) ∧
      (a.doubleFree = true → b.doubleFree = true → (a.equal b = true ↔ a.same b = true)) := by
  refine ⟨equal_self left, Bool.eq_iff_iff.mpr ⟨equal_symm left right, equal_symm right left⟩, ?_,
    equal_of_same left, fun whole whole' => ⟨same_of_equal whole whole', equal_of_same left⟩⟩
  rintro es fs rfl rfl
  obtain ⟨uniqueLeft, _⟩ := settled_object.mp left
  obtain ⟨uniqueRight, _⟩ := settled_object.mp right
  rw [equal_object_iff uniqueLeft uniqueRight, rel_lookup_iff uniqueLeft uniqueRight]

/-- The same entries in two orders are the same; with a double for an integer they are equal and not
the same. -/
theorem equality_laws_turned :
    let two : Json := .number (.natural 2 (by decide))
    let double : Json :=
      .number (.double ⟨false, ⟨1 <<< 52, 1023, by decide, .inr (by decide)⟩, by decide⟩)
    let entries := [("x", .null), ("y", .array [two])]
    let turned := [("y", .array [two]), ("x", .null)]
    let mixed := [("y", .array [double]), ("x", .null)]
    ((object entries).equal (object turned) = true ∧ (object entries).same (object turned) = true) ∧
      (object entries).equal (object mixed) = true ∧
        (object mixed).equal (object entries) = true ∧
          (object entries).same (object mixed) = false := by
  intro two double entries turned mixed
  have settled : (object entries).Settled := by
    simp [entries, two, Settled, SettledEntries, SettledItems]
  have settledTurned : (object turned).Settled := by
    simp [turned, two, Settled, SettledEntries, SettledItems]
  have settledMixed : (object mixed).Settled := by
    simp [mixed, double, Settled, SettledEntries, SettledItems]
  have same : (object entries).same (object turned) = true := by decide
  obtain ⟨_, _, _, equal, exact⟩ := equality_laws settled settledTurned
  obtain ⟨_, symmetric, _⟩ := equality_laws settled settledMixed
  have mixedEqual : (object entries).equal (object mixed) = true := by decide +kernel
  exact ⟨⟨equal same, (exact rfl rfl).mp (equal same)⟩, mixedEqual, symmetric ▸ mixedEqual, by decide⟩

end Json

end DocQuery
