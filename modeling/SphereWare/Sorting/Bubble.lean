import Mathlib.Logic.Equiv.Basic
import Mathlib.Data.Finset.Card
import Mathlib.Data.Finset.Range
import Mathlib.Order.Lattice
import Mathlib.Order.Defs.LinearOrder

/-!
# Bubble sort of an array

The array is a function from the index, of which the first `n + 1` elements are sorted by a key.
Sorting is a composition with a permutation, so everything stored along with the key moves with it.
-/

namespace Bubble

variable {α κ : Type} [LinearOrder κ] (key : α → κ)

/-- Exchanges the elements `j` and `j + 1` if they are out of order. -/
def compareSwap (a : Nat → α) (j : Nat) : Nat → α :=
  if key (a (j + 1)) < key (a j) then a ∘ Equiv.swap j (j + 1) else a

/-- `n` comparisons from the front. -/
def bubble (a : Nat → α) : Nat → Nat → α
  | 0 => a
  | n + 1 => compareSwap key (bubble a n) n

/-- Bubbles over `n`, then `n - 1`, … comparisons. -/
def sortFrom (a : Nat → α) : Nat → Nat → α
  | 0 => a
  | n + 1 => sortFrom (bubble key a (n + 1)) n

/-! ## Permutations -/

/-- The array `b` is `a` with its first `n + 1` elements permuted. -/
def Rearranges (n : Nat) (a b : Nat → α) : Prop :=
  ∃ σ : Equiv.Perm Nat, b = a ∘ σ ∧ ∀ i, n < i → σ i = i

theorem Rearranges.refl (n : Nat) (a : Nat → α) : Rearranges n a a :=
  ⟨Equiv.refl Nat, rfl, fun _ _ => rfl⟩

theorem Rearranges.trans {n : Nat} {a b c : Nat → α} (h₁ : Rearranges n a b)
    (h₂ : Rearranges n b c) : Rearranges n a c := by
  obtain ⟨σ, rfl, hσ⟩ := h₁
  obtain ⟨τ, rfl, hτ⟩ := h₂
  refine ⟨τ.trans σ, rfl, fun i hi => ?_⟩
  rw [Equiv.trans_apply, hτ i hi, hσ i hi]

theorem Rearranges.mono {m n : Nat} (hmn : m ≤ n) {a b : Nat → α} (h : Rearranges m a b) :
    Rearranges n a b := by
  obtain ⟨σ, hb, hσ⟩ := h
  exact ⟨σ, hb, fun i hi => hσ i (by omega)⟩

/-- A permutation that fixes everything beyond `n` stays within the first `n + 1` indices. -/
theorem perm_le {n : Nat} {σ : Equiv.Perm Nat} (hσ : ∀ i, n < i → σ i = i) {i : Nat}
    (hi : i ≤ n) : σ i ≤ n := by
  by_contra h
  have := σ.injective (hσ (σ i) (by omega))
  omega

theorem compareSwap_rearranges (a : Nat → α) {j n : Nat} (hj : j < n) :
    Rearranges n a (compareSwap key a j) := by
  unfold compareSwap
  split
  · refine ⟨Equiv.swap j (j + 1), rfl, fun i hi => ?_⟩
    exact Equiv.swap_apply_of_ne_of_ne (by omega) (by omega)
  · exact Rearranges.refl n a

theorem bubble_rearranges (a : Nat → α) (n : Nat) : Rearranges n a (bubble key a n) := by
  induction n with
  | zero => exact Rearranges.refl 0 a
  | succ n ih =>
    exact (ih.mono (Nat.le_succ n)).trans (compareSwap_rearranges key _ (Nat.lt_succ_self n))

theorem sortFrom_rearranges (a : Nat → α) (n : Nat) : Rearranges n a (sortFrom key a n) := by
  induction n generalizing a with
  | zero => exact Rearranges.refl 0 a
  | succ n ih =>
    exact (bubble_rearranges key a (n + 1)).trans ((ih _).mono (Nat.le_succ n))

/-! ## Locality -/

theorem compareSwap_congr {a b : Nat → α} {j n : Nat} (h : ∀ i ≤ n, a i = b i) (hj : j < n) :
    ∀ i ≤ n, compareSwap key a j i = compareSwap key b j i := by
  intro i hi
  unfold compareSwap
  rw [h j (by omega), h (j + 1) (by omega)]
  split
  · refine h _ (perm_le (fun k hk => ?_) hi)
    exact Equiv.swap_apply_of_ne_of_ne (by omega) (by omega)
  · exact h i hi

theorem bubble_congr {a b : Nat → α} {m n : Nat} (h : ∀ i ≤ n, a i = b i) (hm : m ≤ n) :
    ∀ i ≤ n, bubble key a m i = bubble key b m i := by
  induction m with
  | zero => exact h
  | succ m ih => exact compareSwap_congr key (ih (by omega)) (by omega)

/-- The elements that are not sorted play no part. -/
theorem sortFrom_congr {a b : Nat → α} {m n : Nat} (h : ∀ i ≤ n, a i = b i) (hm : m ≤ n) :
    ∀ i ≤ n, sortFrom key a m i = sortFrom key b m i := by
  induction m generalizing a b with
  | zero => exact h
  | succ m ih => exact ih (bubble_congr key h hm) (by omega)

/-! ## Order -/

theorem compareSwap_of_ne (a : Nat → α) {i j : Nat} (h₁ : i ≠ j) (h₂ : i ≠ j + 1) :
    compareSwap key a j i = a i := by
  unfold compareSwap
  split
  · exact congrArg a (Equiv.swap_apply_of_ne_of_ne h₁ h₂)
  · rfl

theorem key_compareSwap_le (a : Nat → α) (j : Nat) :
    key (a j) ≤ key (compareSwap key a j (j + 1)) ∧
      key (compareSwap key a j j) ≤ key (compareSwap key a j (j + 1)) := by
  unfold compareSwap
  split
  · next h =>
    simp only [Function.comp_apply, Equiv.swap_apply_left, Equiv.swap_apply_right]
    exact ⟨le_refl _, h.le⟩
  · next h => exact ⟨not_lt.mp h, not_lt.mp h⟩

/-- Bubbling moves a greatest element to the end. -/
theorem key_bubble_le (a : Nat → α) (n : Nat) {i : Nat} (hi : i ≤ n) :
    key (bubble key a n i) ≤ key (bubble key a n n) := by
  induction n generalizing i with
  | zero =>
    rw [Nat.le_zero.mp hi]
  | succ n ih =>
    obtain ⟨hfirst, hsecond⟩ := key_compareSwap_le key (bubble key a n) n
    rcases Nat.lt_trichotomy i n with h | rfl | h
    · rw [bubble, compareSwap_of_ne key _ (by omega) (by omega)]
      exact le_trans (ih h.le) hfirst
    · exact hsecond
    · rw [show i = n + 1 by omega]

/-- **The first `n + 1` elements are in order.** -/
theorem key_sortFrom_le (a : Nat → α) (n : Nat) {i j : Nat} (hij : i ≤ j) (hj : j ≤ n) :
    key (sortFrom key a n i) ≤ key (sortFrom key a n j) := by
  induction n generalizing a i j with
  | zero =>
    rw [show i = j by omega]
  | succ n ih =>
    rw [sortFrom]
    by_cases h : j ≤ n
    · exact ih _ hij h
    · obtain rfl : j = n + 1 := by omega
      -- the rest of the sort does not move the last element, which bubbling has made greatest
      obtain ⟨σ, hsort, hσ⟩ := sortFrom_rearranges key (bubble key a (n + 1)) n
      have hlast : sortFrom key (bubble key a (n + 1)) n (n + 1)
          = bubble key a (n + 1) (n + 1) := by
        rw [hsort, Function.comp_apply, hσ (n + 1) (Nat.lt_succ_self n)]
      rw [hlast, hsort, Function.comp_apply]
      refine key_bubble_le key a (n + 1) ?_
      by_cases hi : i ≤ n
      · exact (perm_le hσ hi).trans (Nat.le_succ n)
      · rw [hσ i (by omega)]
        exact hij

/-! ## Stability -/

/-- Elements with equal keys come in the order `r`. -/
def TiesOrdered (r : α → α → Prop) (n : Nat) (a : Nat → α) : Prop :=
  ∀ i j, i < j → j ≤ n → key (a i) = key (a j) → r (a i) (a j)

variable {r : α → α → Prop}

/-- Only neighbours change places, and those have different keys. -/
theorem compareSwap_tiesOrdered {a : Nat → α} {j n : Nat} (hj : j < n)
    (h : TiesOrdered key r n a) : TiesOrdered key r n (compareSwap key a j) := by
  unfold compareSwap
  split
  · next hlt =>
    intro i k hik hk hkey
    simp only [Function.comp_apply] at hkey ⊢
    by_cases hneighbours : i = j ∧ k = j + 1
    · obtain ⟨rfl, rfl⟩ := hneighbours
      rw [Equiv.swap_apply_left, Equiv.swap_apply_right] at hkey
      exact absurd hkey hlt.ne
    · have horder : Equiv.swap j (j + 1) i < Equiv.swap j (j + 1) k ∧
          Equiv.swap j (j + 1) k ≤ n := by
        rw [Equiv.swap_apply_def, Equiv.swap_apply_def]
        split_ifs <;> omega
      exact h _ _ horder.1 horder.2 hkey
  · exact h

theorem bubble_tiesOrdered {a : Nat → α} {m n : Nat} (hm : m ≤ n) (h : TiesOrdered key r n a) :
    TiesOrdered key r n (bubble key a m) := by
  induction m with
  | zero => exact h
  | succ m ih => exact compareSwap_tiesOrdered key (by omega) (ih (by omega))

/-- **Sorting is stable.** -/
theorem sortFrom_tiesOrdered {a : Nat → α} {m n : Nat} (hm : m ≤ n) (h : TiesOrdered key r n a) :
    TiesOrdered key r n (sortFrom key a m) := by
  induction m generalizing a with
  | zero => exact h
  | succ m ih => exact ih (by omega) (bubble_tiesOrdered key hm h)

/-! ## Rank -/

/-- How many of the first `n + 1` elements satisfy a predicate. -/
def count (P : α → Prop) [DecidablePred P] (a : Nat → α) (n : Nat) : Nat :=
  ((Finset.range (n + 1)).filter fun i => P (a i)).card

theorem count_rearranges (P : α → Prop) [DecidablePred P] {n : Nat} {a b : Nat → α}
    (h : Rearranges n a b) : count P b n = count P a n := by
  obtain ⟨σ, rfl, hσ⟩ := h
  refine Finset.card_bijective σ σ.bijective fun i => ?_
  have hlt : i < n + 1 ↔ σ i < n + 1 := by
    by_cases hi : i ≤ n
    · have := perm_le hσ hi
      omega
    · rw [hσ i (by omega)]
  simp only [Finset.mem_filter, Finset.mem_range, Function.comp_apply, hlt]

/-- Where a predicate holds of an initial segment, that segment is as long as the count says. -/
theorem lt_count_iff (P : α → Prop) [DecidablePred P] (a : Nat → α) {n : Nat}
    (hdown : ∀ i j, i ≤ j → j ≤ n → P (a j) → P (a i)) {i : Nat} (hi : i ≤ n) :
    i < count P a n ↔ P (a i) := by
  constructor
  · intro hlt
    by_contra hP
    have hsub : ((Finset.range (n + 1)).filter fun j => P (a j)) ⊆ Finset.range i := by
      intro j hj
      rw [Finset.mem_filter, Finset.mem_range] at hj
      rw [Finset.mem_range]
      by_contra hij
      exact hP (hdown i j (by omega) (by omega) hj.2)
    have hcard := Finset.card_le_card hsub
    rw [Finset.card_range] at hcard
    exact absurd hlt (by unfold count; omega)
  · intro hP
    have hsub : Finset.range (i + 1) ⊆ (Finset.range (n + 1)).filter fun j => P (a j) := by
      intro j hj
      rw [Finset.mem_range] at hj
      rw [Finset.mem_filter, Finset.mem_range]
      exact ⟨by omega, hdown j i (by omega) hi hP⟩
    have hcard := Finset.card_le_card hsub
    rw [Finset.card_range] at hcard
    unfold count
    omega

/-- **After the sort an index holds the key `c` exactly where its rank among the keys is.** -/
theorem key_sortFrom_eq_iff (a : Nat → α) {n i : Nat} (hi : i ≤ n) (c : κ) :
    key (sortFrom key a n i) = c ↔
      count (fun x => key x < c) a n ≤ i ∧ i < count (fun x => key x ≤ c) a n := by
  have hperm := sortFrom_rearranges key a n
  have hlt := lt_count_iff (fun x => key x < c) (sortFrom key a n)
    (fun k j hkj hj h => lt_of_le_of_lt (key_sortFrom_le key a n hkj hj) h) hi
  have hle := lt_count_iff (fun x => key x ≤ c) (sortFrom key a n)
    (fun k j hkj hj h => le_trans (key_sortFrom_le key a n hkj hj) h) hi
  rw [count_rearranges _ hperm] at hlt hle
  rw [hle, ← not_lt, hlt, not_lt]
  constructor
  · intro h
    exact ⟨h.ge, h.le⟩
  · rintro ⟨h₁, h₂⟩
    exact le_antisymm h₂ h₁

end Bubble
