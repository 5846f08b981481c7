import SphereWare.Spec.ScanRun

/-!
# Bias codes

Every velocity pad is to be sampled with the bias code `Calibrate` found for it. The main loop
takes the pad from `pad_order[i]` before it looks at the reset button and the code from
`r2r_val[i]` after that. A calibration in between sorts both arrays anew, and the code at position
`i` need no longer be the one of the pad.
-/

namespace SphereWare

open Interrupt Prog

variable {v w : ScanView}

/-! ## The arrays between calibrations -/

/-- No velocity pad occurs twice in the scan order, and they take up the first forty positions. -/
structure PadsInOrder (v : ScanView) : Prop where
  inj : ∀ i j, i < numPads → j < numPads → v.pads.padOrder i = v.pads.padOrder j → i = j
  first : ∀ i < numPads, v.pads.padOrder i < 40 → i < 40

theorem Calibrated.padsInOrder {codes : Nat → Nat} (h : Calibrated codes v) : PadsInOrder v := by
  obtain ⟨σ, hσ, horder, -⟩ := h.perm
  refine ⟨fun i j hi hj hij => ?_, fun i hi hlt => ?_⟩
  · rw [horder i hi, horder j hj] at hij
    exact σ.injective hij
  · by_contra h40
    rw [horder i hi, hσ i (by omega)] at hlt
    exact h40 hlt

theorem PadsInOrder.of_eq (h : PadsInOrder v) (heq : w.pads.padOrder = v.pads.padOrder) :
    PadsInOrder w := by
  refine ⟨?_, ?_⟩
  · rw [heq]
    exact h.inj
  · rw [heq]
    exact h.first

/-- An iteration ends with the arrays it used, which are the old ones or newly calibrated. -/
theorem IterationStep.arrays {i : Nat} {o : Outcome} (h : IterationStep i v o w) :
    ∃ v₁, ResetStep v v₁ o.recalibrated ∧ SameOrder v₁ w ∧
      (o.pad < 40 → o.samples ≠ [] ∧ ∀ x ∈ o.samples, x.dac = v₁.pads.r2rVal i) := by
  obtain ⟨-, v₁, v₂, hreset, helite, hsel⟩ := h
  obtain ⟨played, rfl, -⟩ := helite
  refine ⟨v₁, hreset, hsel.elsewhere.order, fun hpad => ?_⟩
  rw [SelectedStep, if_pos hpad] at hsel
  exact ⟨hsel.1, hsel.2.1⟩

theorem ScanRun.padsInOrder {os : List Outcome} {i : Nat} {s : Firmware}
    (h : ScanRun avr os i s) : PadsInOrder (scanView s) := by
  refine (h.induction (I := fun _ v => PadsInOrder v) ?_ ?_ ?_).2
  · exact fun codes v hcal => hcal.padsInOrder
  · intro os v i o w hi hv hI hstep
    obtain ⟨v₁, hreset, horder, -⟩ := hstep.arrays
    have hv₁ : PadsInOrder v₁ := by
      cases hrecal : o.recalibrated with
      | none =>
        rw [hrecal] at hreset
        obtain rfl : v₁ = _ := hreset
        exact hI.of_eq rfl
      | some codes =>
        rw [hrecal] at hreset
        exact Calibrated.padsInOrder hreset
    exact hv₁.of_eq horder.1
  · rintro os v w hI ⟨sum, prev, rfl⟩
    exact hI.of_eq rfl

/-! ## Sampling -/

/-- Among the codes found, that of the pad is also the one at the position `i` of the new order. -/
def CodeInPlace (codes : Nat → Nat) (pad i : Nat) : Prop :=
  codesBelow codes (codes pad) ≤ i ∧ i < codesUpTo codes (codes pad)

/-- After a calibration the code of a pad stands where the pad does. -/
theorem Calibrated.code_at {codes : Nat → Nat} (h : Calibrated codes v) {pad : Nat}
    (hpad : pad < 40) :
    (∃ j < 40, v.pads.padOrder j = pad) ∧
      ∀ j < 40, v.pads.padOrder j = pad → v.pads.r2rVal j = codes pad := by
  obtain ⟨σ, hσ, horder, hcodes⟩ := h.perm
  constructor
  · have hj : σ.symm pad < 40 := by
      by_contra hge
      have hfix := hσ (σ.symm pad) (by omega)
      rw [Equiv.apply_symm_apply] at hfix
      omega
    refine ⟨σ.symm pad, hj, ?_⟩
    rw [horder _ (Nat.lt_trans hj (by decide)), Equiv.apply_symm_apply]
  · intro j hj hjpad
    rw [horder j (Nat.lt_trans hj (by decide))] at hjpad
    rw [hcodes j, hjpad]

/--
**When a pad is sampled at its own bias.** In every iteration of every run of the main loop, the
bias in force at each sample of a velocity pad is the code the latest calibration stored for that
pad, if and only if the iteration does not calibrate or the calibration leaves the code of the pad
at the position of the iteration.
-/
theorem sampled_at_own_bias_iff {os : List Outcome} {i : Nat} {s : Firmware}
    (h : ScanRun avr os i s) {o : Outcome} {i' : Nat} {t : Firmware}
    (hstep : LoopStep avr i s (some o) i' t) (hpad : o.pad < 40) :
    (∀ x ∈ o.samples, ∀ j < 40, t.pads.padOrder j = o.pad → x.dac = t.pads.r2rVal j) ↔
      ∀ codes, o.recalibrated = some codes → CodeInPlace codes o.pad i := by
  have hv := h.scannable
  have hinj := h.padsInOrder
  cases hstep with
  | pad sched hi hrun =>
    have hiteration := (scanPad_spec (hv.order i hi) hv.filtered).run scanView_sound hrun
    have hfirst : i < 40 := hinj.first i hi (hiteration.1 ▸ hpad)
    obtain ⟨v₁, hreset, ⟨horder, hr2r⟩, hsamples⟩ := hiteration.arrays
    obtain ⟨hne, hdac⟩ := hsamples hpad
    have horder' : t.pads.padOrder = v₁.pads.padOrder := horder
    have hr2r' : t.pads.r2rVal = v₁.pads.r2rVal := hr2r
    rw [horder', hr2r']
    cases hrecal : o.recalibrated with
    | none =>
      rw [hrecal] at hreset
      obtain rfl : v₁ = _ := hreset
      refine ⟨fun _ codes hcodes => absurd hcodes (by simp), fun _ x hx j hj hjpad => ?_⟩
      -- the pad stands at one position only, the one main is at
      have hji : j = i :=
        hinj.inj j i (Nat.lt_trans hj (by decide)) hi (hjpad.trans hiteration.1)
      rw [hdac x hx, hji]
    | some codes =>
      rw [hrecal] at hreset
      have hcal : Calibrated codes v₁ := hreset
      -- `j` is where the pad stands now, `i` where it stood when main read it
      obtain ⟨⟨j, hj, hjpad⟩, hcode⟩ := hcal.code_at hpad
      constructor
      · intro hall codes' hcodes'
        obtain rfl : codes = codes' := Option.some.inj hcodes'
        obtain ⟨x, hx⟩ := List.exists_mem_of_ne_nil _ hne
        refine (hcal.r2rVal_eq_iff hfirst _).mp ?_
        rw [← hdac x hx, hall x hx j hj hjpad, hcode j hj hjpad]
      · intro hplace x hx k hk hkpad
        rw [hdac x hx, hcode k hk hkpad]
        exact (hcal.r2rVal_eq_iff hfirst _).mpr (hplace codes rfl)

/-- The reset button is held, and pad 0 balances at code 1, all other pads at code 0. -/
def firstPadDrifted (s : Firmware) : Input :=
  { Input.quiet with
    pinE2 := false
    adc := if s.ports.channel = 0 ∧ s.ports.dac = 0 then 0x1FF else 0 }

/-- The first iteration after the start, with a calibration that moves pad 0 to the end. -/
def drifted : Outcome × Firmware := iteration 0 firstPadDrifted booted.2

theorem drifted_state : drifted.1.pad < 40 ∧
    ∃ x ∈ drifted.1.samples, drifted.2.pads.padOrder 39 = drifted.1.pad ∧
      x.dac ≠ drifted.2.pads.r2rVal 39 := by
  decide +kernel

theorem sampled_at_own_bias_iff_drifted :
    (∀ x ∈ drifted.1.samples, ∀ j < 40, drifted.2.pads.padOrder j = drifted.1.pad →
        x.dac = drifted.2.pads.r2rVal j) ↔
      ∀ codes, drifted.1.recalibrated = some codes → CodeInPlace codes drifted.1.pad 0 :=
  sampled_at_own_bias_iff booted_run (iteration_step (by decide) _ _) drifted_state.1

/-- Pad 0 is then sampled with code 0, the code of another pad. -/
theorem not_sampled_at_own_bias :
    ¬∀ (os : List Outcome) (i : Nat) (s : Firmware), ScanRun avr os i s →
      ∀ (o : Outcome) (i' : Nat) (t : Firmware), LoopStep avr i s (some o) i' t → o.pad < 40 →
        ∀ x ∈ o.samples, ∀ j < 40, t.pads.padOrder j = o.pad → x.dac = t.pads.r2rVal j := by
  intro h
  obtain ⟨hpressure, x, hx, hpad, hne⟩ := drifted_state
  have hall := h [] 0 booted.2 booted_run drifted.1 1 drifted.2
    (iteration_step (by decide) _ _) hpressure
  exact hne (hall x hx 39 (by decide) hpad)

end SphereWare
