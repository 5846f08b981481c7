import SphereWare.Sorting.Bubble
import SphereWare.Spec.ScanPad

/-!
# The scan order

`BubbleSort` sorts two parallel arrays by the bias code. As pairs they are one array, and the sort
is a composition with a permutation of its first forty indices.
-/

namespace SphereWare

/-! ## The two arrays as one -/

namespace ScanOrder

/-- The bias codes and the pads, in pairs. -/
def zip (a : ScanOrder) : Nat → Nat × Nat := fun i => (a.r2rVal i, a.padOrder i)

/-- An exchange of two elements, written with `update` and with a permutation. -/
theorem update_update_eq_swap {α : Type} (f : Nat → α) (j : Nat) :
    Function.update (Function.update f j (f (j + 1))) (j + 1) (f j)
      = f ∘ Equiv.swap j (j + 1) := by
  funext i
  rcases eq_or_ne i (j + 1) with rfl | h₁
  · simp
  · rcases eq_or_ne i j with rfl | h₂
    · simp
    · rw [Function.update_of_ne h₁, Function.update_of_ne h₂, Function.comp_apply,
        Equiv.swap_apply_of_ne_of_ne h₂ h₁]

theorem zip_compareSwap (a : ScanOrder) (j : Nat) :
    (a.compareSwap j).zip = Bubble.compareSwap Prod.fst a.zip j := by
  unfold compareSwap Bubble.compareSwap
  simp only [update_update_eq_swap]
  split
  · next h => exact (if_pos (show (a.zip (j + 1)).1 < (a.zip j).1 from h)).symm
  · next h => exact (if_neg (show ¬(a.zip (j + 1)).1 < (a.zip j).1 from h)).symm

theorem zip_bubble (a : ScanOrder) (n : Nat) :
    (a.bubble n).zip = Bubble.bubble Prod.fst a.zip n := by
  induction n with
  | zero => rfl
  | succ n ih => rw [bubble, zip_compareSwap, ih, Bubble.bubble]

theorem zip_sortFrom (a : ScanOrder) (n : Nat) :
    (a.sortFrom n).zip = Bubble.sortFrom Prod.fst a.zip n := by
  induction n generalizing a with
  | zero => rfl
  | succ n ih => rw [sortFrom, ih, zip_bubble, Bubble.sortFrom]

theorem zip_bubbleSort (a : ScanOrder) (n : Nat) :
    (a.bubbleSort (n + 1)).zip = Bubble.sortFrom Prod.fst a.zip n := zip_sortFrom a n

end ScanOrder

/-! ## After a calibration -/

variable {codes : Nat → Nat} {w : ScanView}

theorem perm_lt_numPads {σ : Equiv.Perm Nat} (hσ : ∀ i, 39 < i → σ i = i) {i : Nat}
    (hi : i < numPads) : σ i < numPads := by
  by_cases h39 : i ≤ 39
  · exact Nat.lt_of_le_of_lt (Bubble.perm_le hσ h39) (by decide)
  · rw [hσ i (by omega)]
    exact hi

/-- **A calibrated scan order is a permutation of the velocity pads, each with its own code.** -/
theorem Calibrated.perm (h : Calibrated codes w) : ∃ σ : Equiv.Perm Nat,
    (∀ i, 39 < i → σ i = i) ∧ (∀ i < numPads, w.pads.padOrder i = σ i) ∧
      ∀ i, w.pads.r2rVal i = codes (σ i) := by
  obtain ⟨order, horder, hsorted⟩ := h.sorted
  obtain ⟨σ, hzip, hσ⟩ := Bubble.sortFrom_rearranges Prod.fst (ScanOrder.mk codes order).zip 39
  rw [← ScanOrder.zip_bubbleSort] at hzip
  have hpair (i : Nat) : (w.pads.r2rVal i, w.pads.padOrder i) = (codes (σ i), order (σ i)) := by
    show (ScanOrder.mk w.pads.r2rVal w.pads.padOrder).zip i = _
    rw [hsorted]
    exact congrFun hzip i
  refine ⟨σ, hσ, fun i hi => ?_, fun i => congrArg Prod.fst (hpair i)⟩
  rw [show w.pads.padOrder i = order (σ i) from congrArg Prod.snd (hpair i)]
  exact horder _ (perm_lt_numPads hσ hi)

theorem Calibrated.padOrder_lt (h : Calibrated codes w) {i : Nat} (hi : i < numPads) :
    w.pads.padOrder i < numPads := by
  obtain ⟨σ, hσ, horder, -⟩ := h.perm
  rw [horder i hi]
  exact perm_lt_numPads hσ hi

/-- How many velocity pads have a code below `c`, and how many have none above it. -/
def codesBelow (codes : Nat → Nat) (c : Nat) : Nat :=
  ((Finset.range 40).filter fun q => codes q < c).card

def codesUpTo (codes : Nat → Nat) (c : Nat) : Nat :=
  ((Finset.range 40).filter fun q => codes q ≤ c).card

/-- **The code at a position is `c` exactly where the rank of `c` among the codes is.** -/
theorem Calibrated.r2rVal_eq_iff (h : Calibrated codes w) {i : Nat} (hi : i < 40) (c : Nat) :
    w.pads.r2rVal i = c ↔ codesBelow codes c ≤ i ∧ i < codesUpTo codes c := by
  obtain ⟨order, -, hsorted⟩ := h.sorted
  have hval : w.pads.r2rVal i
      = (Bubble.sortFrom Prod.fst (ScanOrder.mk codes order).zip 39 i).1 := by
    calc w.pads.r2rVal i
        = ((ScanOrder.mk w.pads.r2rVal w.pads.padOrder).zip i).1 := rfl
      _ = (((ScanOrder.mk codes order).bubbleSort (39 + 1)).zip i).1 := by rw [hsorted]
      _ = _ := by rw [ScanOrder.zip_bubbleSort]
  rw [hval]
  exact Bubble.key_sortFrom_eq_iff Prod.fst _ (Nat.le_of_lt_succ hi) c

end SphereWare
