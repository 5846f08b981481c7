import Mathlib.Algebra.Order.Floor.Ring
import Mathlib.Algebra.Order.Floor.Semiring
import Mathlib.Tactic.Linarith
import Mathlib.Tactic.Ring

/-!
# Linear blends

A blend of two values goes from the first to the second. Cut down to a natural number it still lies
between the two, and the parts of a blend of three of them sum to no more than the larger sum.
-/

namespace Blend

variable {𝕜 : Type*} [Field 𝕜]

/-- The value at `t` on the way from `a` to `b`. -/
def blend (a b t : 𝕜) : 𝕜 := a - t * (a - b)

theorem blend_add (a b a' b' t : 𝕜) :
    blend a b t + blend a' b' t = blend (a + a') (b + b') t := by
  unfold blend
  ring

variable [LinearOrder 𝕜] [IsStrictOrderedRing 𝕜] {a b t : 𝕜}

theorem min_le_blend (h₀ : 0 ≤ t) (h₁ : t ≤ 1) : min a b ≤ blend a b t := by
  have hstart : (1 - t) * min a b ≤ (1 - t) * a :=
    mul_le_mul_of_nonneg_left (min_le_left a b) (sub_nonneg.mpr h₁)
  have hend : t * min a b ≤ t * b := mul_le_mul_of_nonneg_left (min_le_right a b) h₀
  unfold blend
  linarith

theorem blend_le_max (h₀ : 0 ≤ t) (h₁ : t ≤ 1) : blend a b t ≤ max a b := by
  have hstart : (1 - t) * a ≤ (1 - t) * max a b :=
    mul_le_mul_of_nonneg_left (le_max_left a b) (sub_nonneg.mpr h₁)
  have hend : t * b ≤ t * max a b := mul_le_mul_of_nonneg_left (le_max_right a b) h₀
  unfold blend
  linarith

/-! ## Blends of natural numbers -/

variable (m n : Nat)

theorem blend_nonneg (h₀ : 0 ≤ t) (h₁ : t ≤ 1) : 0 ≤ blend (m : 𝕜) n t :=
  le_trans (le_min (Nat.cast_nonneg m) (Nat.cast_nonneg n)) (min_le_blend h₀ h₁)

variable [FloorRing 𝕜]

theorem min_le_floor_blend (h₀ : 0 ≤ t) (h₁ : t ≤ 1) : min m n ≤ ⌊blend (m : 𝕜) n t⌋₊ := by
  refine Nat.le_floor ?_
  rw [Nat.cast_min]
  exact min_le_blend h₀ h₁

theorem floor_blend_le_max (h₀ : 0 ≤ t) (h₁ : t ≤ 1) : ⌊blend (m : 𝕜) n t⌋₊ ≤ max m n := by
  refine Nat.floor_le_of_le ?_
  rw [Nat.cast_max]
  exact blend_le_max h₀ h₁

/-- **Three parts blended alike sum to no more than the larger of the two sums.** -/
theorem sum_floor_blend_le (m₁ n₁ m₂ n₂ m₃ n₃ : Nat) (h₀ : 0 ≤ t) (h₁ : t ≤ 1) :
    ⌊blend (m₁ : 𝕜) n₁ t⌋₊ + ⌊blend (m₂ : 𝕜) n₂ t⌋₊ + ⌊blend (m₃ : 𝕜) n₃ t⌋₊
      ≤ max (m₁ + m₂ + m₃) (n₁ + n₂ + n₃) := by
  have hfloor (m n : Nat) : (⌊blend (m : 𝕜) n t⌋₊ : 𝕜) ≤ blend (m : 𝕜) n t :=
    Nat.floor_le (blend_nonneg m n h₀ h₁)
  have hsum : (⌊blend (m₁ : 𝕜) n₁ t⌋₊ : 𝕜) + ⌊blend (m₂ : 𝕜) n₂ t⌋₊ + ⌊blend (m₃ : 𝕜) n₃ t⌋₊
      ≤ max ((m₁ : 𝕜) + m₂ + m₃) ((n₁ : 𝕜) + n₂ + n₃) := by
    refine le_trans (add_le_add (add_le_add (hfloor m₁ n₁) (hfloor m₂ n₂)) (hfloor m₃ n₃)) ?_
    rw [blend_add, blend_add]
    exact blend_le_max h₀ h₁
  exact_mod_cast hsum

end Blend
