import DocQuery.Json.Order
import DocQuery.Proofs.Number.Rounding
import Mathlib.Algebra.Order.Field.Rat
import Mathlib.Algebra.Order.Ring.Cast
import Mathlib.Order.Compare

/-!
# Exactness of numeric order

Two integers, two doubles, and an integer and a double are ordered by their exact values, in the last
case if the integer is the value of some double. Otherwise the integer stands for the double nearest
to it, and the two may be found equal; they are never found in the wrong order (`order_exact`).
-/

namespace DocQuery

namespace Number

def isDouble : Number → Bool
  | .double _ => true
  | _ => false

/-- The exact value. -/
def value : Number → ℚ
  | .natural n _ => n
  | .negative n _ _ => -n
  | .double x =>
    (if x.negative then -1 else 1) * x.magnitude.significand * 2 ^ ((x.magnitude.scale : ℤ) - 1074)

/-- Some double has the value of the number. -/
def Representable (a : Number) : Prop := ∃ x : Double, (double x).value = a.value

/-! ### Values in units -/

theorem unitsPerOne_pos : 0 < unitsPerOne := Nat.shiftLeft_pos_iff.mpr Nat.one_pos

theorem cast_shiftLeft (n k : ℕ) : ((n <<< k : ℕ) : ℚ) = n * 2 ^ (k : ℤ) := by
  rw [Nat.shiftLeft_eq, Nat.cast_mul, zpow_natCast]
  congr 1
  exact Nat.cast_pow 2 k

theorem cast_units (m : Magnitude) :
    (m.units : ℚ) = m.significand * 2 ^ ((m.scale : ℤ) - 1074) * unitsPerOne := by
  have one : (unitsPerOne : ℚ) = 2 ^ (1074 : ℤ) := by
    rw [unitsPerOne, cast_shiftLeft, Nat.cast_one, one_mul]
    rfl
  rw [one, mul_assoc, ← zpow_add₀ two_ne_zero, sub_add_cancel, Magnitude.units, cast_shiftLeft]

theorem value_eq (a : Number) : a.value = a.units / unitsPerOne := by
  have positive : (unitsPerOne : ℚ) ≠ 0 := Nat.cast_ne_zero.mpr unitsPerOne_pos.ne'
  rw [eq_div_iff positive]
  cases a with
  | natural n => simp [value, units]
  | negative n => simp [value, units]
  | double x =>
    rw [value, units, Double.units, mul_assoc, mul_assoc, ← mul_assoc (x.magnitude.significand : ℚ),
      ← cast_units]
    cases x.negative <;> simp

theorem compare_of_strictMono {α β : Type} [LinearOrder α] [LinearOrder β] {f : α → β}
    (increasing : StrictMono f) (x y : α) : compare (f x) (f y) = compare x y := by
  rw [← cmp_eq_compare, ← cmp_eq_compare]
  exact increasing.cmp_map_eq x y

theorem compare_value (a b : Number) : compare a.value b.value = compare a.units b.units := by
  have positive : (0 : ℚ) < unitsPerOne := Nat.cast_pos.mpr unitsPerOne_pos
  have increasing : StrictMono fun u : ℤ => (u : ℚ) / unitsPerOne :=
    fun u v lt => div_lt_div_of_pos_right (Int.cast_lt.mpr lt) positive
  rw [value_eq, value_eq]
  exact compare_of_strictMono increasing a.units b.units

theorem compare_mul_units (x y : ℤ) : compare (x * unitsPerOne) (y * unitsPerOne) = compare x y := by
  have positive : (0 : ℤ) < unitsPerOne := Int.natCast_pos.mpr unitsPerOne_pos
  have increasing : StrictMono fun u : ℤ => u * unitsPerOne :=
    fun u v lt => Int.mul_lt_mul_of_pos_right lt positive
  exact compare_of_strictMono increasing x y

/-! ### Rounding to doubles -/

/-- Rounding keeps the sign, and goes by the magnitude alone. -/
theorem units_rounded (a : Number) :
    ∃ k : Nat, a.units = k ∧ a.doubleUnits = (Magnitude.nearest k 1).units ∨
      a.units = -k ∧ a.doubleUnits = -(Magnitude.nearest k 1).units := by
  cases a with
  | natural n => exact ⟨n * unitsPerOne, .inl ⟨Int.natCast_mul .., rfl⟩⟩
  | negative n => exact ⟨n * unitsPerOne, .inr ⟨by rw [Int.natCast_mul]; rfl, rfl⟩⟩
  | double x =>
    refine ⟨x.magnitude.units, ?_⟩
    rw [Magnitude.units_nearest_units]
    cases negative : x.negative <;> simp [units, doubleUnits, Double.units, negative]

theorem doubleUnits_mono {a b : Number} (le : a.units ≤ b.units) : a.doubleUnits ≤ b.doubleUnits := by
  obtain ⟨k, left⟩ := units_rounded a
  obtain ⟨l, right⟩ := units_rounded b
  have none : (Magnitude.nearest 0 1).units = 0 := Magnitude.units_nearest_units .zero
  rcases left with ⟨ka, ra⟩ | ⟨ka, ra⟩ <;> rcases right with ⟨lb, rb⟩ | ⟨lb, rb⟩
  · have ordered := Magnitude.units_nearest_mono (n := k) (k := l) (by omega)
    omega
  · obtain rfl : k = 0 := by omega
    obtain rfl : l = 0 := by omega
    omega
  · omega
  · have ordered := Magnitude.units_nearest_mono (n := l) (k := k) (by omega)
    omega

theorem doubleUnits_of_representable {a : Number} (exact : a.Representable) :
    a.doubleUnits = a.units := by
  obtain ⟨x, same⟩ := exact
  have same : (double x).units = a.units := by
    rw [← compare_eq_iff_eq, ← compare_value, compare_eq_iff_eq, same]
  exact (Int.le_antisymm (doubleUnits_mono same.le) (doubleUnits_mono same.ge)).symm.trans same

/-! ### The two ways to an order -/

theorem order_of_double {a b : Number} (double : a.isDouble = true ∨ b.isDouble = true) :
    a.order b = compare a.doubleUnits b.doubleUnits := by
  cases a <;> cases b <;> simp_all [isDouble, order, signed?, unsigned?]

theorem units_of_signed? {a : Number} {x : ℤ} (whole : a.signed? = some x) :
    a.units = x * unitsPerOne := by
  cases a with
  | natural n =>
    simp only [signed?] at whole
    split at whole
    · obtain rfl := Option.some.inj whole
      rfl
    · cases whole
  | negative n =>
    obtain rfl := Option.some.inj whole
    exact (Int.neg_mul ..).symm
  | double => cases whole

theorem units_of_unsigned? {a : Number} {n : ℕ} (whole : a.unsigned? = some n) :
    a.units = (n : ℤ) * unitsPerOne := by
  cases a with
  | natural n =>
    obtain rfl := Option.some.inj whole
    rfl
  | negative => cases whole
  | double => cases whole

theorem doubleUnits_pos {a : Number} (positive : 0 < a.units) : 0 < a.doubleUnits := by
  have least : (double ⟨false, ⟨1, 0, by decide, .inl rfl⟩, by decide⟩).units ≤ a.units := positive
  exact doubleUnits_mono least

theorem doubleUnits_nonpos {a : Number} (negative : a.units ≤ 0) : a.doubleUnits ≤ 0 := by
  have zero : a.units ≤ (double (.zero false)).units := negative
  exact doubleUnits_mono zero

theorem units_pos_of_unsigned {a : Number} (integer : a.isDouble = false)
    (large : a.signed? = none) : 0 < a.units := by
  cases a with
  | natural n =>
    have positive : 0 < n := by
      simp only [signed?] at large
      split at large
      · cases large
      · omega
    exact Int.mul_pos (Int.natCast_pos.mpr positive) (Int.natCast_pos.mpr unitsPerOne_pos)
  | negative => cases large
  | double => cases integer

theorem units_nonpos_of_negative {a : Number} (integer : a.isDouble = false)
    (negative : a.unsigned? = none) : a.units ≤ 0 := by
  cases a with
  | natural => cases negative
  | negative n =>
    have whole := Int.mul_nonneg (Int.natCast_nonneg n) (Int.natCast_nonneg unitsPerOne)
    simp only [units]
    omega
  | double => cases integer

/-- Of two integers that share no 64-bit kind one is negative and one is not, and rounding leaves
that so. -/
theorem compare_of_unshared {a b : Number} (left : a.isDouble = false) (right : b.isDouble = false)
    (signed : a.signed? = none ∨ b.signed? = none)
    (unsigned : a.unsigned? = none ∨ b.unsigned? = none) :
    compare a.doubleUnits b.doubleUnits = compare a.units b.units := by
  have apart : a.units ≤ 0 ∧ 0 < b.units ∨ 0 < a.units ∧ b.units ≤ 0 := by
    rcases signed with large | large <;> rcases unsigned with negative | negative
    · exact absurd (units_pos_of_unsigned left large) (units_nonpos_of_negative left negative).not_gt
    · exact .inr ⟨units_pos_of_unsigned left large, units_nonpos_of_negative right negative⟩
    · exact .inl ⟨units_nonpos_of_negative left negative, units_pos_of_unsigned right large⟩
    · exact absurd (units_pos_of_unsigned right large) (units_nonpos_of_negative right negative).not_gt
  rcases apart with ⟨below, above⟩ | ⟨above, below⟩
  · rw [compare_lt_iff_lt.mpr (below.trans_lt above),
      compare_lt_iff_lt.mpr ((doubleUnits_nonpos below).trans_lt (doubleUnits_pos above))]
  · rw [compare_gt_iff_gt.mpr (below.trans_lt above),
      compare_gt_iff_gt.mpr ((doubleUnits_nonpos below).trans_lt (doubleUnits_pos above))]

theorem order_of_integers {a b : Number} (left : a.isDouble = false) (right : b.isDouble = false) :
    a.order b = compare a.units b.units := by
  unfold order
  split
  · rename_i x y sa sb
    rw [units_of_signed? sa, units_of_signed? sb, compare_mul_units]
  · rename_i notSigned
    split
    · rename_i x y ua ub
      rw [units_of_unsigned? ua, units_of_unsigned? ub, compare_mul_units,
        compare_of_strictMono Int.natCast_strictMono]
    · rename_i notUnsigned
      refine compare_of_unshared left right ?_ ?_
      · cases sa : a.signed? with
        | none => exact .inl rfl
        | some x => exact .inr (Option.eq_none_iff_forall_ne_some.mpr fun y sb => notSigned x y sa sb)
      · cases ua : a.unsigned? with
        | none => exact .inl rfl
        | some x => exact .inr (Option.eq_none_iff_forall_ne_some.mpr fun y ub => notUnsigned x y ua ub)

/-- Two integers are compared as they are, and other pairs as doubles. -/
theorem order_cases (a b : Number) :
    (a.isDouble = false ∧ b.isDouble = false ∧ a.order b = compare a.units b.units) ∨
      ((a.isDouble = true ∨ b.isDouble = true) ∧
        a.order b = compare a.doubleUnits b.doubleUnits) := by
  cases left : a.isDouble with
  | true => exact .inr ⟨.inl rfl, order_of_double (.inl left)⟩
  | false =>
    cases right : b.isDouble with
    | true => exact .inr ⟨.inr rfl, order_of_double (.inr right)⟩
    | false => exact .inl ⟨rfl, rfl, order_of_integers left right⟩

/-! ### Verdicts -/

/-- The pairs of numbers whose order is that of their values: two integers, two doubles, or an integer
that is the value of a double, and a double. -/
inductive Exact : Number → Number → Prop
  | integers {a b : Number} : a.isDouble = false → b.isDouble = false → Exact a b
  | doubles (x y : Double) : Exact (.double x) (.double y)
  | left {a : Number} (y : Double) : a.Representable → Exact a (.double y)
  | right {b : Number} (x : Double) : b.Representable → Exact (.double x) b

theorem order_of_exact {a b : Number} (exact : Exact a b) : a.order b = compare a.value b.value := by
  rw [compare_value]
  cases exact with
  | integers left right => exact order_of_integers left right
  | doubles x y => exact order_of_double (.inl rfl)
  | left y exact => rw [order_of_double (.inr rfl), doubleUnits_of_representable exact]; rfl
  | right x exact => rw [order_of_double (.inl rfl), doubleUnits_of_representable exact]; rfl

/-- Rounding does not put two numbers in the wrong order. -/
theorem order_eq_or (a b : Number) : a.order b = .eq ∨ a.order b = compare a.value b.value := by
  rw [compare_value]
  rcases order_cases a b with ⟨_, _, exact⟩ | ⟨_, rounded⟩
  · exact .inr exact
  · rw [rounded]
    rcases lt_trichotomy a.doubleUnits b.doubleUnits with lt | same | gt
    · have below : a.units < b.units := Int.not_le.mp fun le => (doubleUnits_mono le).not_gt lt
      exact .inr (by rw [compare_lt_iff_lt.mpr lt, compare_lt_iff_lt.mpr below])
    · exact .inl (compare_eq_iff_eq.mpr same)
    · have above : b.units < a.units := Int.not_le.mp fun le => (doubleUnits_mono le).not_gt gt
      exact .inr (by rw [compare_gt_iff_gt.mpr gt, compare_gt_iff_gt.mpr above])

/-- Any two numbers have an order. It is that of their values, or equality if the pair is not exact. -/
theorem order_exact (a b : Number) :
    ∃ order, (Json.number a).order? (.number b) = some order ∧
      (Exact a b → order = compare a.value b.value) ∧
      (order = .eq ∨ order = compare a.value b.value) :=
  ⟨a.order b, rfl, order_of_exact, order_eq_or a b⟩

/-- The least and the greatest integer are ordered exactly, and so are `2 ^ 53 + 2` and the double
`2 ^ 53`; `2 ^ 53 + 1` is no double, and is found equal to that double. -/
theorem order_exact_bounds :
    let least : Number := .negative 9223372036854775808 (by decide) (by decide)
    let greatest : Number := .natural 18446744073709551615 (by decide)
    let odd : Number := .natural 9007199254740993 (by decide)
    let even : Number := .natural 9007199254740994 (by decide)
    let power : Double := ⟨false, ⟨1 <<< 52, 1075, by decide, .inr (by decide)⟩, by decide⟩
    (Json.number least).order? (.number greatest) = some (compare least.value greatest.value) ∧
      (Json.number (.double power)).order? (.number even) =
        some (compare (double power).value even.value) ∧
      ¬odd.Representable ∧ (Json.number odd).order? (.number (.double power)) = some .eq ∧
      (double power).value < odd.value := by
  intro least greatest odd even power
  refine ⟨?_, ?_, ?_, ?_, ?_⟩
  · obtain ⟨order, found, exact, _⟩ := order_exact least greatest
    rw [found, exact (.integers rfl rfl)]
  · have representable : even.Representable :=
      ⟨⟨false, ⟨1 <<< 52 + 1, 1075, by decide, .inr (by decide)⟩, by decide⟩, by
        rw [← compare_eq_iff_eq, compare_value]
        decide +kernel⟩
    obtain ⟨order, found, exact, _⟩ := order_exact (double power) even
    rw [found, exact (.right power representable)]
  · intro representable
    exact absurd (doubleUnits_of_representable representable) (by decide +kernel)
  · decide +kernel
  · rw [← compare_lt_iff_lt, compare_value]
    decide +kernel

end Number

end DocQuery
