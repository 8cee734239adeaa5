/-!
# Magnitudes with 53-bit significands

A magnitude is `significand * 2 ^ scale`, counted in units of `2 ^ -1074`, the smallest positive
double. The scale has no upper bound here, so that rounding is a total function.
`Magnitude.nearest` rounds a quotient of units, a half going to the even significand.
-/

namespace DocQuery

/-- The integer nearest to `num / den`; a half goes to the even neighbour. -/
def roundHalfEven (num den : Nat) : Nat :=
  let whole := num / den
  let twice := 2 * (num % den)
  if twice < den then whole else if den < twice then whole + 1 else whole + whole % 2

theorem le_roundHalfEven (num den : Nat) : num / den ≤ roundHalfEven num den := by
  simp only [roundHalfEven]
  split
  · exact Nat.le_refl _
  · split <;> omega

theorem roundHalfEven_le (num den : Nat) : roundHalfEven num den ≤ num / den + 1 := by
  simp only [roundHalfEven]
  split
  · omega
  · split <;> omega

def tenTo (k : Nat) : Nat := Nat.pow 10 k

/-- How many units of `2 ^ -1074` make one. -/
def unitsPerOne : Nat := 1 <<< 1074

/-- A non-negative number of units whose significand has at most 53 bits, and exactly 53 above the
least scale. -/
structure Magnitude where
  significand : Nat
  scale : Nat
  significand_lt : significand < 1 <<< 53
  canonical : scale = 0 ∨ 1 <<< 52 ≤ significand
deriving DecidableEq

namespace Magnitude

def units (m : Magnitude) : Nat := m.significand <<< m.scale

def zero : Magnitude := ⟨0, 0, by decide, .inl rfl⟩

def isZero (m : Magnitude) : Bool := m.significand == 0

/-- The least scale at which `whole` has at most 53 bits. -/
def scaleOf (whole : Nat) : Nat := whole.log2 - 52

theorem shiftRight_scaleOf_lt (whole : Nat) : whole >>> scaleOf whole < 1 <<< 53 := by
  rw [Nat.shiftRight_eq_div_pow, Nat.div_lt_iff_lt_mul (Nat.two_pow_pos _), Nat.shiftLeft_eq,
    Nat.one_mul, ← Nat.pow_add]
  refine Nat.lt_of_lt_of_le Nat.lt_log2_self (Nat.pow_le_pow_right (by decide) ?_)
  simp only [scaleOf]
  omega

theorem le_shiftRight_scaleOf {whole : Nat} (h : scaleOf whole ≠ 0) :
    1 <<< 52 ≤ whole >>> scaleOf whole := by
  rw [Nat.shiftRight_eq_div_pow, Nat.le_div_iff_mul_le (Nat.two_pow_pos _), Nat.shiftLeft_eq,
    Nat.one_mul, ← Nat.pow_add]
  simp only [scaleOf] at h ⊢
  have positive : whole ≠ 0 := by
    rintro rfl
    exact h (by decide)
  rw [show 52 + (whole.log2 - 52) = whole.log2 by omega]
  exact Nat.log2_self_le positive

theorem div_shiftLeft (num den scale : Nat) : num / den <<< scale = (num / den) >>> scale := by
  rw [Nat.shiftLeft_eq, Nat.shiftRight_eq_div_pow, Nat.div_div_eq_div_mul]

/-- The magnitude nearest to `num / den` units; a half goes to the even significand. -/
def nearest (num den : Nat) : Magnitude :=
  let scale := scaleOf (num / den)
  let rounded := roundHalfEven num (den <<< scale)
  have upper : rounded ≤ 1 <<< 53 := by
    have below := shiftRight_scaleOf_lt (num / den)
    have near := roundHalfEven_le num (den <<< scale)
    rw [div_shiftLeft] at near
    simp only [rounded, scale] at near ⊢
    omega
  have lower : scale = 0 ∨ 1 <<< 52 ≤ rounded := by
    by_cases h : scale = 0
    · exact .inl h
    · have above := le_shiftRight_scaleOf h
      have near := le_roundHalfEven num (den <<< scale)
      rw [div_shiftLeft] at near
      simp only [rounded, scale] at near ⊢
      omega
  if full : rounded = 1 <<< 53 then ⟨1 <<< 52, scale + 1, by decide, .inr (Nat.le_refl _)⟩
  else ⟨rounded, scale, by omega, lower⟩

def ofNat (n : Nat) : Magnitude := nearest (n * unitsPerOne) 1

def mul (a b : Magnitude) : Magnitude := nearest (a.units * b.units) unitsPerOne

def div (a b : Magnitude) : Magnitude := nearest (a.units * unitsPerOne) b.units

def powerOfTen (k : Nat) : Magnitude := ofNat (tenTo k)

end Magnitude

end DocQuery
