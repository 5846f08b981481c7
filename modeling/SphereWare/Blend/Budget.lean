import Mathlib.Algebra.BigOperators.Fin
import Mathlib.Algebra.Order.BigOperators.Group.Finset
import Mathlib.Algebra.Order.Floor.Ring
import Mathlib.Algebra.Order.Floor.Semiring
import Mathlib.Tactic.FieldSimp
import Mathlib.Tactic.Linarith
import Mathlib.Tactic.Positivity
import Mathlib.Tactic.Ring

/-!
# Cutting parts down to a budget

Parts that sum to more than a budget give up the whole units of the excess, each in proportion to
its share of the sum. Rounded down the parts are then within the budget and waste less than one unit
each.
-/

namespace Budget

variable {ι 𝕜 : Type*} [Fintype ι] [Field 𝕜] [LinearOrder 𝕜] {budget : Nat} {part : ι → 𝕜}

theorem sum_pos [IsStrictOrderedRing 𝕜] (h : (budget : 𝕜) < ∑ i, part i) : 0 < ∑ i, part i :=
  lt_of_le_of_lt (Nat.cast_nonneg budget) h

variable [FloorRing 𝕜]

/-- The whole units by which the parts exceed the budget. -/
def excess (budget : Nat) (part : ι → 𝕜) : Int := ⌊∑ i, part i - budget⌋

/-- The parts, cut down if they exceed the budget. -/
def cut (budget : Nat) (part : ι → 𝕜) : ι → 𝕜 :=
  if budget < ∑ i, part i then
    fun i => part i - excess budget part * (part i / ∑ j, part j)
  else part

theorem cut_of_le (h : ∑ i, part i ≤ budget) : cut budget part = part := if_neg (not_lt.mpr h)

variable [IsStrictOrderedRing 𝕜]

theorem excess_nonneg (h : (budget : 𝕜) < ∑ i, part i) : 0 ≤ excess budget part := by
  rw [excess, Int.floor_nonneg]
  exact sub_nonneg.mpr h.le

/-- What is left of the sum is the budget and less than one unit. -/
theorem budget_le_sum_sub_excess (budget : Nat) (part : ι → 𝕜) :
    (budget : 𝕜) ≤ ∑ i, part i - excess budget part := by
  have hfloor : (excess budget part : 𝕜) ≤ ∑ i, part i - budget := Int.floor_le _
  linarith

theorem sum_sub_excess_lt (budget : Nat) (part : ι → 𝕜) :
    ∑ i, part i - excess budget part < budget + 1 := by
  have hfloor : ∑ i, part i - budget < excess budget part + 1 := Int.lt_floor_add_one _
  linarith

/-- Each part is scaled by what is left of the sum. -/
theorem cut_of_lt (h : (budget : 𝕜) < ∑ i, part i) (i : ι) :
    cut budget part i = part i * ((∑ j, part j - excess budget part) / ∑ j, part j) := by
  have hpos := (sum_pos h).ne'
  rw [cut, if_pos h]
  field_simp

theorem sum_cut_of_lt (h : (budget : 𝕜) < ∑ i, part i) :
    ∑ i, cut budget part i = ∑ i, part i - excess budget part := by
  have hpos := (sum_pos h).ne'
  simp only [cut_of_lt h]
  rw [← Finset.sum_mul]
  field_simp

theorem scale_nonneg (h : (budget : 𝕜) < ∑ i, part i) :
    0 ≤ (∑ j, part j - excess budget part) / ∑ j, part j := by
  have hleft : 0 ≤ ∑ j, part j - excess budget part :=
    le_trans (Nat.cast_nonneg budget) (budget_le_sum_sub_excess budget part)
  exact div_nonneg hleft (sum_pos h).le

theorem scale_le_one (h : (budget : 𝕜) < ∑ i, part i) :
    (∑ j, part j - excess budget part) / ∑ j, part j ≤ 1 := by
  have hexcess : (0 : 𝕜) ≤ excess budget part := by exact_mod_cast excess_nonneg h
  exact (div_le_one (sum_pos h)).mpr (sub_le_self _ hexcess)

theorem cut_le {i : ι} (hi : 0 ≤ part i) : cut budget part i ≤ part i := by
  by_cases h : (budget : 𝕜) < ∑ i, part i
  · rw [cut_of_lt h]
    exact mul_le_of_le_one_right hi (scale_le_one h)
  · rw [cut_of_le (not_lt.mp h)]

theorem cut_nonneg (hpart : ∀ i, 0 ≤ part i) (i : ι) : 0 ≤ cut budget part i := by
  by_cases h : (budget : 𝕜) < ∑ i, part i
  · rw [cut_of_lt h]
    exact mul_nonneg (hpart i) (scale_nonneg h)
  · rw [cut_of_le (not_lt.mp h)]
    exact hpart i

/-- Parts keep their order. -/
theorem cut_mono {i j : ι} (hij : part i ≤ part j) : cut budget part i ≤ cut budget part j := by
  by_cases h : (budget : 𝕜) < ∑ i, part i
  · rw [cut_of_lt h, cut_of_lt h]
    exact mul_le_mul_of_nonneg_right hij (scale_nonneg h)
  · rw [cut_of_le (not_lt.mp h)]
    exact hij

theorem cut_eq_zero {i : ι} (hi : part i = 0) : cut budget part i = 0 := by
  by_cases h : (budget : 𝕜) < ∑ i, part i
  · rw [cut_of_lt h, hi, zero_mul]
  · rw [cut_of_le (not_lt.mp h), hi]

/-- A part keeps at least the share of the budget it had of the sum. -/
theorem mul_budget_le_cut_mul (h : (budget : 𝕜) < ∑ i, part i) {i : ι} (hi : 0 ≤ part i) :
    part i * budget ≤ cut budget part i * ∑ j, part j := by
  have hpos := (sum_pos h).ne'
  have hscaled : cut budget part i * ∑ j, part j = part i * (∑ j, part j - excess budget part) := by
    rw [cut_of_lt h]
    field_simp
  rw [hscaled]
  exact mul_le_mul_of_nonneg_left (budget_le_sum_sub_excess budget part) hi

theorem sum_cut_lt (budget : Nat) (part : ι → 𝕜) : ∑ i, cut budget part i < budget + 1 := by
  by_cases h : (budget : 𝕜) < ∑ i, part i
  · rw [sum_cut_of_lt h]
    exact sum_sub_excess_lt budget part
  · rw [cut_of_le (not_lt.mp h)]
    exact lt_of_le_of_lt (not_lt.mp h) (lt_add_one _)

/-! ## Rounding down -/

/-- **The rounded parts are within the budget.** -/
theorem sum_floor_cut_le (hpart : ∀ i, 0 ≤ part i) : ∑ i, ⌊cut budget part i⌋₊ ≤ budget := by
  have hfloor : ((∑ i, ⌊cut budget part i⌋₊ : Nat) : 𝕜) ≤ ∑ i, cut budget part i := by
    rw [Nat.cast_sum]
    exact Finset.sum_le_sum fun i _ => Nat.floor_le (cut_nonneg hpart i)
  have hlt := lt_of_le_of_lt hfloor (sum_cut_lt budget part)
  exact Nat.lt_succ_iff.mp (by exact_mod_cast hlt)

/-- **Where something was cut, the rounded parts miss the budget by less than one unit each.** -/
theorem budget_lt_sum_floor_cut [Nonempty ι] (h : (budget : 𝕜) < ∑ i, part i) :
    budget < ∑ i, ⌊cut budget part i⌋₊ + Fintype.card ι := by
  have hfloor : ∑ i, cut budget part i < ∑ i, ((⌊cut budget part i⌋₊ : 𝕜) + 1) :=
    Finset.sum_lt_sum_of_nonempty Finset.univ_nonempty fun i _ => Nat.lt_floor_add_one _
  have hleft : (budget : 𝕜) ≤ ∑ i, cut budget part i := by
    rw [sum_cut_of_lt h]
    exact budget_le_sum_sub_excess budget part
  rw [Finset.sum_add_distrib, Finset.sum_const, Finset.card_univ, nsmul_one] at hfloor
  exact_mod_cast lt_of_le_of_lt hleft hfloor

theorem floor_cut_mono {i j : ι} (hij : part i ≤ part j) :
    ⌊cut budget part i⌋₊ ≤ ⌊cut budget part j⌋₊ :=
  Nat.floor_mono (cut_mono hij)

/-- A whole part is cut by at least one unit where the sum exceeds the budget by one. -/
theorem floor_cut_lt (h : (budget : 𝕜) + 1 ≤ ∑ i, part i) {i : ι} {n : Nat} (hi : part i = n)
    (hn : 0 < n) : ⌊cut budget part i⌋₊ < n := by
  have hlt : (budget : 𝕜) < ∑ i, part i := lt_of_lt_of_le (lt_add_one _) h
  have hone : (1 : 𝕜) ≤ excess budget part := by
    have hfloor : 1 ≤ excess budget part := Int.le_floor.mpr (by push_cast; linarith)
    exact_mod_cast hfloor
  have hgiven : 0 < excess budget part * (part i / ∑ j, part j) := by
    rw [hi]
    have hsum := sum_pos hlt
    have hcast : (0 : 𝕜) < n := by exact_mod_cast hn
    positivity
  have hcut : cut budget part i < n := by
    rw [cut, if_pos hlt, ← hi]
    exact sub_lt_self _ hgiven
  exact (Nat.floor_lt' hn.ne').mpr hcut

end Budget
