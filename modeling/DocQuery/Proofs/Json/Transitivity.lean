import DocQuery.Proofs.Json.Equality

/-!
# Transitivity of equality and order

Two different integers can have one nearest double, and then both are equal to it but not to each
other (`equal_not_transitive`). Nothing else keeps equality and numeric order from being transitive
(`transitive_unless_merged`).
-/

namespace DocQuery

namespace Number

/-- Two different integers that are both found equal to the double between them. -/
structure Merged (a b c : Number) : Prop where
  left : a.isDouble = false
  double : b.isDouble = true
  right : c.isDouble = false
  before : a.order b = .eq
  after : b.order c = .eq
  apart : a.value ≠ c.value

variable {a b c : Number}

theorem Merged.symm (merged : Merged a b c) : Merged c b a where
  left := merged.right
  double := merged.double
  right := merged.left
  before := by rw [← order_swap, merged.after]; rfl
  after := by rw [← order_swap, merged.before]; rfl
  apart := merged.apart.symm

theorem doubleUnits_le_of_order (le : a.order b ≠ .gt) : a.doubleUnits ≤ b.doubleUnits := by
  rcases order_cases a b with ⟨_, _, exact⟩ | ⟨_, rounded⟩
  · rw [exact, compare_le_iff_le] at le
    exact doubleUnits_mono le
  · rwa [rounded, compare_le_iff_le] at le

/-- Where a chain of two steps does not hold as a whole, it leads from an integer through a double to a
smaller integer. -/
theorem merged_of_order (ab : a.order b ≠ .gt) (bc : b.order c ≠ .gt) (ac : a.order c = .gt) :
    Merged a b c ∧ c.value < a.value := by
  have low := doubleUnits_le_of_order ab
  have high := doubleUnits_le_of_order bc
  rcases order_cases a c with ⟨left, right, exact⟩ | ⟨_, rounded⟩
  · have above : c.value < a.value := by
      rw [← compare_gt_iff_gt, compare_value, ← exact, ac]
    rw [exact, compare_gt_iff_gt] at ac
    cases double : b.isDouble with
    | false =>
      rw [order_of_integers left double, compare_le_iff_le] at ab
      rw [order_of_integers double right, compare_le_iff_le] at bc
      exact absurd (ab.trans bc) ac.not_ge
    | true =>
      -- rounding keeps the order of the integers, so all three doubles are one
      have back := doubleUnits_mono ac.le
      have before : a.order b = .eq := by
        rw [order_of_double (.inr double), compare_eq_iff_eq]
        exact low.antisymm (high.trans back)
      have after : b.order c = .eq := by
        rw [order_of_double (.inl double), compare_eq_iff_eq]
        exact high.antisymm (back.trans low)
      exact ⟨⟨left, double, right, before, after, above.ne'⟩, above⟩
  · rw [rounded, compare_gt_iff_gt] at ac
    exact absurd (low.trans high) ac.not_ge

theorem order_trans_iff (ab : a.order b ≠ .gt) (bc : b.order c ≠ .gt) :
    a.order c ≠ .gt ↔ ¬(Merged a b c ∧ c.value < a.value) := by
  refine not_congr ⟨merged_of_order ab bc, fun ⟨merged, above⟩ => ?_⟩
  rw [order_of_exact (.integers merged.left merged.right), compare_gt_iff_gt]
  exact above

theorem order_eq_trans_iff (ab : a.order b = .eq) (bc : b.order c = .eq) :
    a.order c = .eq ↔ ¬Merged a b c := by
  constructor
  · intro ac merged
    rw [order_of_exact (.integers merged.left merged.right), compare_eq_iff_eq] at ac
    exact merged.apart ac
  · intro plain
    cases ac : a.order c with
    | eq => rfl
    | gt => exact absurd (merged_of_order (by simp [ab]) (by simp [bc]) ac).1 plain
    | lt =>
      have cb : c.order b ≠ .gt := by simp [← order_swap b, bc]
      have ba : b.order a ≠ .gt := by simp [← order_swap a, ab]
      have ca : c.order a = .gt := by simp [← order_swap a, ac]
      exact absurd (merged_of_order cb ba ca).1.symm plain

end Number

namespace Json

/-- At some place of three values two different integers are found equal to the double between
them. -/
inductive Merged : Json → Json → Json → Prop
  | number {a b c : Number} : a.Merged b c → Merged (.number a) (.number b) (.number c)
  | item {as bs cs : List Json} {a b c : Json} (n : Nat) : as[n]? = some a → bs[n]? = some b →
      cs[n]? = some c → Merged a b c → Merged (.array as) (.array bs) (.array cs)
  | entry {as bs cs : List (String × Json)} {a b c : Json} (key : String) : as.lookup key = some a →
      bs.lookup key = some b → cs.lookup key = some c → Merged a b c →
        Merged (.object as) (.object bs) (.object cs)

theorem rel_trans_iff {x y z : Option Json}
    (xy : Option.Rel (fun a b => a.equal b = true) x y)
    (yz : Option.Rel (fun b c => b.equal c = true) y z)
    (step : ∀ a b c, x = some a → y = some b → z = some c → a.equal b = true → b.equal c = true →
      (a.equal c = true ↔ ¬Merged a b c)) :
    Option.Rel (fun a c => a.equal c = true) x z ↔
      ∀ a b c, x = some a → y = some b → z = some c → ¬Merged a b c := by
  cases xy with
  | none =>
    cases yz with
    | none => exact iff_of_true .none nofun
  | @some a b ab =>
    cases yz with
    | @some _ c bc =>
      have here := step a b c rfl rfl rfl ab bc
      constructor
      · rintro (ac | _) _ _ _ ⟨⟩ ⟨⟩ ⟨⟩
        exact here.mp ac
      · intro plain
        exact .some (here.mpr (plain a b c rfl rfl rfl))

theorem equal_trans_iff {a b c : Json} (settledA : a.Settled) (settledB : b.Settled)
    (settledC : c.Settled) (ab : a.equal b = true) (bc : b.equal c = true) :
    a.equal c = true ↔ ¬Merged a b c := by
  induction a generalizing b c with
  | null =>
    cases b with
    | null =>
      refine iff_of_true bc fun merged => ?_
      cases merged
    | _ => simp [equal] at ab
  | bool p =>
    cases b with
    | bool q =>
      obtain rfl : p = q := beq_iff_eq.mp ab
      refine iff_of_true bc fun merged => ?_
      cases merged
    | _ => simp [equal] at ab
  | string s =>
    cases b with
    | string t =>
      obtain rfl : s = t := beq_iff_eq.mp ab
      refine iff_of_true bc fun merged => ?_
      cases merged
    | _ => simp [equal] at ab
  | number m =>
    cases b with
    | number n =>
      cases c with
      | number k =>
        simp only [equal, beq_iff_eq] at ab bc ⊢
        rw [Number.order_eq_trans_iff ab bc]
        refine not_congr ⟨.number, fun merged => ?_⟩
        cases merged with
        | number merged => exact merged
      | _ => simp [equal] at bc
    | _ => simp [equal] at ab
  | array as ih =>
    cases b with
    | array bs =>
      cases c with
      | array cs =>
        have eachA := settled_array.mp settledA
        have eachB := settled_array.mp settledB
        have eachC := settled_array.mp settledC
        rw [equal_array_iff] at ab bc ⊢
        have places := fun n => rel_trans_iff (ab n) (bc n) fun a b c inA inB inC =>
          have memberA := List.mem_of_getElem? inA
          ih a memberA (eachA a memberA) (eachB b (List.mem_of_getElem? inB))
            (eachC c (List.mem_of_getElem? inC))
        rw [forall_congr' places]
        constructor
        · rintro plain (_ | ⟨n, inA, inB, inC, merged⟩)
          exact plain n _ _ _ inA inB inC merged
        · intro plain n a b c inA inB inC merged
          exact plain (.item n inA inB inC merged)
      | _ => simp [equal] at bc
    | _ => simp [equal] at ab
  | object as ih =>
    cases b with
    | object bs =>
      cases c with
      | object cs =>
        obtain ⟨uniqueA, eachA⟩ := settled_object.mp settledA
        obtain ⟨uniqueB, eachB⟩ := settled_object.mp settledB
        obtain ⟨uniqueC, eachC⟩ := settled_object.mp settledC
        rw [equal_object_iff uniqueA uniqueB] at ab
        rw [equal_object_iff uniqueB uniqueC] at bc
        rw [equal_object_iff uniqueA uniqueC]
        have places := fun key => rel_trans_iff (ab key) (bc key) fun a b c inA inB inC =>
          have memberA := mem_of_lookup inA
          ih _ memberA (eachA _ memberA) (eachB _ (mem_of_lookup inB)) (eachC _ (mem_of_lookup inC))
        rw [forall_congr' places]
        constructor
        · rintro plain (_ | _ | ⟨key, inA, inB, inC, merged⟩)
          exact plain key _ _ _ inA inB inC merged
        · intro plain key a b c inA inB inC merged
          exact plain (.entry key inA inB inC merged)
      | _ => simp [equal] at bc
    | _ => simp [equal] at ab

theorem order?_number_ne_gt {a b : Number} :
    (number a).order? (number b) ≠ some .gt ↔ a.order b ≠ .gt :=
  not_congr (Option.some_inj (a := a.order b))

/-- Equality is transitive on values without a double that merges two integers, and only on these. A
chain of numbers in order is in order as a whole, unless a double merges a first integer with a
smaller last one. -/
theorem transitive_unless_merged {a b c : Json} (settledA : a.Settled) (settledB : b.Settled)
    (settledC : c.Settled) :
    (a.equal b = true → b.equal c = true → (a.equal c = true ↔ ¬Merged a b c)) ∧
      ∀ l m n : Number, (number l).order? (number m) ≠ some .gt →
        (number m).order? (number n) ≠ some .gt →
          ((number l).order? (number n) ≠ some .gt ↔ ¬(l.Merged m n ∧ n.value < l.value)) := by
  refine ⟨equal_trans_iff settledA settledB settledC, fun l m n lm mn => ?_⟩
  rw [order?_number_ne_gt] at lm mn ⊢
  exact Number.order_trans_iff lm mn

/-- `2 ^ 53 + 1` and `2 ^ 53` are both found equal to the double `2 ^ 53`, and they are different and
in the wrong order for that. -/
theorem equal_not_transitive :
    let above : Json := .number (.natural 9007199254740993 (by decide))
    let double : Json :=
      .number (.double ⟨false, ⟨1 <<< 52, 1075, by decide, .inr (by decide)⟩, by decide⟩)
    let power : Json := .number (.natural 9007199254740992 (by decide))
    (above.equal double = true ∧ double.equal power = true ∧ above.equal power = false) ∧
      above.order? double = some .eq ∧ double.order? power = some .eq ∧
        above.order? power = some .gt := by
  decide +kernel

/-- Inside an object and an array, a double that merges two integers and one that does not. -/
theorem transitive_unless_merged_inside :
    let inside (n : Number) : Json := .object [("k", .array [.number n])]
    let above : Number := .natural 9007199254740993 (by decide)
    let double : Number := .double ⟨false, ⟨1 <<< 52, 1075, by decide, .inr (by decide)⟩, by decide⟩
    let power : Number := .natural 9007199254740992 (by decide)
    Merged (inside above) (inside double) (inside power) ∧
      ¬Merged (inside power) (inside double) (inside power) ∧
        (number power).order? (number above) ≠ some .gt := by
  intro inside above double power
  have settled : ∀ n, (inside n).Settled := fun n => by
    simp [inside, Settled, SettledEntries, SettledItems]
  have upper : (inside above).equal (inside double) = true := by decide +kernel
  have lower : (inside double).equal (inside power) = true := by decide +kernel
  have lower' : (inside power).equal (inside double) = true := by decide +kernel
  have apart : ¬(inside above).equal (inside power) = true := by decide +kernel
  obtain ⟨through, _⟩ := transitive_unless_merged (settled above) (settled double) (settled power)
  obtain ⟨back, ordered⟩ := transitive_unless_merged (settled power) (settled double) (settled power)
  refine ⟨?_, ?_, ?_⟩
  · exact Classical.not_not.mp fun plain => apart ((through upper lower).mpr plain)
  · exact (back lower' lower).mp (by decide +kernel)
  · refine (ordered power double above (by decide +kernel) (by decide +kernel)).mpr ?_
    rintro ⟨_, smaller⟩
    rw [← compare_lt_iff_lt, Number.compare_value] at smaller
    exact absurd smaller (by decide +kernel)

end Json

end DocQuery
