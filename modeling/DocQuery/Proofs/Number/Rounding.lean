import DocQuery.Number.Basic
import Mathlib.Data.Nat.Dist

/-!
# Rounding

No magnitude is nearer to a quotient than `Magnitude.nearest` of it (`dist_nearest_le`). So rounding
keeps what is a magnitude already, and it keeps the order of what it rounds (`units_nearest_mono`).
-/

namespace DocQuery

/-! ### Nearest multiples -/

theorem roundHalfEven_cases (num den : Nat) :
    (roundHalfEven num den = num / den ∧ 2 * (num % den) ≤ den) ∨
      (roundHalfEven num den = num / den + 1 ∧ den ≤ 2 * (num % den)) := by
  unfold roundHalfEven
  dsimp only
  split
  · exact .inl ⟨rfl, by omega⟩
  · split
    · exact .inr ⟨rfl, by omega⟩
    · -- a half: the parity of the lower neighbour decides
      rcases Nat.mod_two_eq_zero_or_one (num / den) with even | odd
      · exact .inl ⟨by omega, by omega⟩
      · exact .inr ⟨by omega, by omega⟩

theorem dist_roundHalfEven_le {num den : Nat} (positive : 0 < den) (k : Nat) :
    Nat.dist num (roundHalfEven num den * den) ≤ Nat.dist num (k * den) := by
  have divided := Nat.div_add_mod' num den
  have rest := Nat.mod_lt num positive
  have apart : k * den ≤ num / den * den ∨ num / den * den + den ≤ k * den := by
    rcases Nat.lt_or_ge (num / den) k with above | below
    · exact .inr (by simpa only [Nat.succ_mul] using Nat.mul_le_mul_right den above)
    · exact .inl (Nat.mul_le_mul_right den below)
  unfold Nat.dist
  rcases roundHalfEven_cases num den with ⟨rounded, half⟩ | ⟨rounded, half⟩
  · rw [rounded]
    omega
  · rw [rounded, Nat.succ_mul]
    omega

namespace Magnitude

variable {num den : Nat}

/-! ### Grids -/

theorem shiftLeft_mul (a b s : Nat) : a <<< s * b = a * b <<< s := by
  rw [Nat.shiftLeft_eq, Nat.shiftLeft_eq, Nat.mul_assoc, Nat.mul_comm (2 ^ s)]

theorem units_nearest_mul (num den : Nat) :
    (nearest num den).units * den =
      roundHalfEven num (den <<< scaleOf (num / den)) * den <<< scaleOf (num / den) := by
  rw [units, shiftLeft_mul]
  unfold nearest
  dsimp only
  split
  · rename_i full
    dsimp only
    rw [full, Nat.shiftLeft_succ den]
    generalize den <<< scaleOf (num / den) = step
    omega
  · rfl

/-- A magnitude is on the grid of a scale, or too small to have that scale. -/
theorem units_on_grid (m : Magnitude) (den s : Nat) :
    (∃ k, m.units * den = k * den <<< s) ∨ s ≠ 0 ∧ m.units * den ≤ 1 <<< 52 * den <<< s := by
  rcases Nat.lt_or_ge m.scale s with finer | coarser
  · obtain ⟨n, rfl⟩ := Nat.exists_eq_add_of_lt finer
    have small := m.significand_lt
    refine .inr ⟨Nat.succ_ne_zero _, ?_⟩
    calc m.units * den = m.significand * den <<< m.scale := shiftLeft_mul ..
      _ ≤ 1 <<< 52 * (2 * den <<< m.scale) := by
        rw [← Nat.mul_assoc]
        exact Nat.mul_le_mul_right _ (by omega)
      _ ≤ 1 <<< 52 * den <<< (m.scale + n + 1) := by
        refine Nat.mul_le_mul_left _ ?_
        rw [Nat.shiftLeft_succ, Nat.shiftLeft_add]
        exact Nat.mul_le_mul_left 2 (Nat.le_shiftLeft)
  · obtain ⟨n, coarse⟩ := Nat.exists_eq_add_of_le coarser
    exact .inl ⟨m.significand <<< n, by
      rw [units, shiftLeft_mul, shiftLeft_mul, coarse, Nat.shiftLeft_add]⟩

/-- What rounds to a scale other than the least one is no smaller than the least of that scale. -/
theorem le_of_scaleOf (positive : 0 < den) (coarse : scaleOf (num / den) ≠ 0) :
    1 <<< 52 * den <<< scaleOf (num / den) ≤ num := by
  have full := le_shiftRight_scaleOf coarse
  rw [← div_shiftLeft] at full
  exact (Nat.le_div_iff_mul_le (Nat.shiftLeft_pos_iff.mpr positive)).mp full

/-- No magnitude is nearer. -/
theorem dist_nearest_le (num : Nat) (positive : 0 < den) (m : Magnitude) :
    Nat.dist num ((nearest num den).units * den) ≤ Nat.dist num (m.units * den) := by
  have step : 0 < den <<< scaleOf (num / den) := Nat.shiftLeft_pos_iff.mpr positive
  rw [units_nearest_mul]
  rcases units_on_grid m den (scaleOf (num / den)) with ⟨k, onGrid⟩ | ⟨coarse, small⟩
  · rw [onGrid]
    exact dist_roundHalfEven_le step k
  · -- the least number of the grid's scale is on the grid, between the magnitude and the quotient
    have least := le_of_scaleOf positive coarse
    calc Nat.dist num (roundHalfEven num (den <<< scaleOf (num / den)) * den <<< scaleOf (num / den))
        ≤ Nat.dist num (1 <<< 52 * den <<< scaleOf (num / den)) := dist_roundHalfEven_le step _
      _ ≤ Nat.dist num (m.units * den) := by
        unfold Nat.dist
        omega

/-! ### Order -/

theorem le_units_nearest {n : Nat} {m : Magnitude} (le : m.units ≤ n) :
    m.units ≤ (nearest n 1).units := by
  have near := dist_nearest_le n Nat.one_pos m
  unfold Nat.dist at near
  omega

theorem units_nearest_le {n : Nat} {m : Magnitude} (le : n ≤ m.units) :
    (nearest n 1).units ≤ m.units := by
  have near := dist_nearest_le n Nat.one_pos m
  unfold Nat.dist at near
  omega

theorem units_nearest_units (m : Magnitude) : (nearest m.units 1).units = m.units :=
  Nat.le_antisymm (units_nearest_le (Nat.le_refl _)) (le_units_nearest (Nat.le_refl _))

theorem units_nearest_mono {n k : Nat} (le : n ≤ k) : (nearest n 1).units ≤ (nearest k 1).units := by
  have low := dist_nearest_le n Nat.one_pos (nearest k 1)
  have high := dist_nearest_le k Nat.one_pos (nearest n 1)
  rcases Nat.eq_or_lt_of_le le with rfl | lt
  · exact Nat.le_refl _
  · unfold Nat.dist at low high
    omega

end Magnitude

end DocQuery
