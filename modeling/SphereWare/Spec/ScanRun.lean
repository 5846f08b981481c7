import SphereWare.Spec.ScanOrder

/-!
# Runs of the main loop

`ScanRun.induction` is the one induction over what main does: from the calibration at start-up
through iterations, with or without another calibration, and ends of passes.
-/

namespace SphereWare

open Interrupt Prog

variable {v : ScanView}

/-! ## The end of a pass -/

/-- The same but for `led_sum` and `prev_led_sum`. -/
def SamePads (v w : ScanView) : Prop :=
  ∃ sum prev, w = { v with pads := { v.pads with ledSum := sum, prevLedSum := prev } }

theorem SamePads.refl (v : ScanView) : SamePads v v := ⟨v.pads.ledSum, v.pads.prevLedSum, rfl⟩

theorem SamePads.trans {u w : ScanView} (h₁ : SamePads u v) (h₂ : SamePads v w) :
    SamePads u w := by
  obtain ⟨a, b, rfl⟩ := h₁
  obtain ⟨c, d, rfl⟩ := h₂
  exact ⟨c, d, rfl⟩

theorem samePads_of_passView {s t : Firmware} (h : SameOn passView s t) :
    SamePads (scanView s) (scanView t) := by
  simp only [SameOn, passView, Prod.mk.injEq, Pads.mk.injEq] at h
  obtain ⟨⟨h₁, h₂, h₃, h₄, h₅, h₆, h₇, h₈, h₉, -, -⟩, -, hhid, -, -, -, -, hdac, -⟩ := h
  refine ⟨t.pads.ledSum, t.pads.prevLedSum, ?_⟩
  simp only [scanView, hhid, hdac, ← h₁, ← h₂, ← h₃, ← h₄, ← h₅, ← h₆, ← h₇, ← h₈, ← h₉]

theorem endPass_spec : Spec avr scanView v endPass fun _ w => SamePads v w :=
  Spec.of_keeps SamePads.refl (fun _ _ _ => SamePads.trans)
    (Keeps.mono (fun _ _ => samePads_of_passView) endPass_keeps)

/-! ## The start -/

theorem startUp_spec : Spec avr scanView v startUp fun codes w => Calibrated codes w := by
  have hled : (ledSetColour 0 0 1023).Keeps (SameOn scanView) :=
    Keeps.mono (fun _ _ => scanView_of_ledView) (ledSetColour_keeps 0 0 1023)
  refine Spec.keeps_bind hled fun _ => ?_
  refine Spec.keeps_bind (muxSelect_keeps 5) fun _ => ?_
  refine Spec.bind (buttonsAndDials_spec 5 fun n hn => by simp at hn) fun _ w _ => ?_
  refine Spec.bind calibrate_spec ?_
  intro codes u hu
  exact Spec.act_bind u (by rintro t rfl; rfl) (Spec.ret hu)

/-! ## Runs -/

/-- What every iteration relies on: the scan order names pads and no pressure is negative. -/
structure Scannable (v : ScanView) : Prop where
  order : ∀ i < numPads, v.pads.padOrder i < numPads
  filtered : FilteredNonneg v

theorem Calibrated.scannable {codes : Nat → Nat} (h : Calibrated codes v) : Scannable v where
  order _ hi := h.padOrder_lt hi
  filtered p hp hsent := absurd hsent (by
    rw [h.sent p (Nat.lt_trans hp (by decide))]
    decide)

/-- Every branch is about one pad. -/
theorem SelectedStep.elsewhere {pad : Nat} {samples : List Sample} {event : PadEvent}
    {w : ScanView} (h : SelectedStep pad samples event v w) : Elsewhere pad v w := by
  unfold SelectedStep at h
  split at h
  · obtain ⟨-, -, hbranch⟩ := h
    cases event with
    | idle => exact hbranch.2 ▸ Elsewhere.refl pad v
    | strike => exact hbranch.2.toElsewhere
    | pressure =>
      obtain ⟨-, f, -, -, honly⟩ := hbranch
      exact honly.toElsewhere
    | release => exact hbranch.2.toElsewhere
  · exact h.2

/-- A branch leaves every pressure non-negative. -/
theorem SelectedStep.filteredNonneg {pad : Nat} {samples : List Sample} {event : PadEvent}
    {w : ScanView} (h : SelectedStep pad samples event v w) (hv : FilteredNonneg v) :
    FilteredNonneg w := by
  intro p hp hsent
  by_cases hne : p = pad
  · rw [SelectedStep, if_pos (hne ▸ hp)] at h
    obtain ⟨-, -, hbranch⟩ := h
    have hself {r : PadReport} (hw : OnlyPad pad r v w) :
        w.pads.velocitySent p = r.sent ∧ w.pads.filteredVal p = r.filtered := by
      rw [hne, ← hw.self]
      exact ⟨rfl, rfl⟩
    cases event with
    | idle =>
      obtain ⟨-, rfl⟩ := hbranch
      exact hv p hp hsent
    | strike =>
      rw [(hself hbranch.2).2]
      exact (velocityOf_range (le_foldl_max _ _)).1
    | pressure =>
      obtain ⟨-, f, hf₀, -, honly⟩ := hbranch
      rw [(hself honly).2]
      exact hf₀
    | release =>
      rw [(hself hbranch.2).1] at hsent
      exact absurd hsent Bool.false_ne_true
  · have hreport := h.elsewhere.other p (Nat.lt_trans hp (by decide)) hne
    simp only [ScanView.report, PadReport.mk.injEq] at hreport
    rw [hreport.2.2.1]
    exact hv p hp (hreport.2.1 ▸ hsent)

/-- The arrays at the end of an iteration are those it started with, or newly calibrated. -/
theorem IterationStep.scannable {i : Nat} {o : Outcome} {w : ScanView}
    (h : IterationStep i v o w) (hv : Scannable v) : Scannable w := by
  obtain ⟨-, v₁, v₂, hreset, helite, hsel⟩ := h
  have horder₁ : ∀ i < numPads, v₁.pads.padOrder i < numPads := by
    cases hrecal : o.recalibrated with
    | none =>
      rw [hrecal] at hreset
      obtain rfl : v₁ = _ := hreset
      exact hv.order
    | some codes =>
      rw [hrecal] at hreset
      exact fun i hi => Calibrated.padOrder_lt hreset hi
  have horder₂ : v₂.pads.padOrder = v₁.pads.padOrder := by
    obtain ⟨played, rfl, -⟩ := helite
    rfl
  have hfiltered₁ : FilteredNonneg { v₁ with dac := v₁.pads.r2rVal i } :=
    hreset.filteredNonneg hv.filtered
  refine ⟨fun i hi => ?_, hsel.filteredNonneg (helite.filteredNonneg hfiltered₁)⟩
  rw [hsel.elsewhere.order.1, horder₂]
  exact horder₁ i hi

/-- Only a calibration changes the order of the scan. -/
theorem IterationStep.padOrder_eq {i : Nat} {o : Outcome} {w : ScanView}
    (h : IterationStep i v o w) (hcodes : o.recalibrated = none) :
    w.pads.padOrder = v.pads.padOrder := by
  obtain ⟨-, v₁, v₂, hreset, helite, hsel⟩ := h
  rw [hcodes] at hreset
  obtain rfl : v₁ = _ := hreset
  obtain ⟨played, rfl, -⟩ := helite
  exact hsel.elsewhere.order.1

/-- What one step of the loop does to the view: an iteration, or the end of a pass. -/
def LoopStepView (i : Nat) (v : ScanView) (o : Option Outcome) (w : ScanView) : Prop :=
  match o with
  | some o => i < numPads ∧ IterationStep i v o w
  | none => SamePads v w

theorem LoopStep.view {s t : Firmware} {i i' : Nat} {o : Option Outcome}
    (h : LoopStep avr i s o i' t) (hv : Scannable (scanView s)) :
    Scannable (scanView t) ∧ LoopStepView i (scanView s) o (scanView t) := by
  cases h with
  | pad sched hi hrun =>
    have hiteration := (scanPad_spec (hv.order _ hi) hv.filtered).run scanView_sound hrun
    exact ⟨hiteration.scannable hv, hi, hiteration⟩
  | pass sched hrun =>
    have hsame : SamePads (scanView s) (scanView t) := endPass_spec.run scanView_sound hrun
    refine ⟨?_, hsame⟩
    obtain ⟨sum, prev, hw⟩ := hsame
    rw [hw]
    exact ⟨hv.order, hv.filtered⟩

/--
**Induction over the runs of main.** An invariant of what has happened and of the view holds in
every run if calibration establishes it and iterations and ends of passes keep it.
-/
theorem ScanRun.induction {I : List Outcome → ScanView → Prop}
    (hstart : ∀ codes v, Calibrated codes v → I [] v)
    (hiter : ∀ os v i o w, i < numPads → Scannable v → I os v → IterationStep i v o w →
      I (os ++ [o]) w)
    (hpass : ∀ os v w, I os v → SamePads v w → I os w)
    {os : List Outcome} {i : Nat} {s : Firmware} (h : ScanRun avr os i s) :
    Scannable (scanView s) ∧ I os (scanView s) := by
  induction h with
  | start sched hrun =>
    have hcal := startUp_spec.run scanView_sound hrun
    exact ⟨hcal.scannable, hstart _ _ hcal⟩
  | @step os i i' s t o h hstep ih =>
    obtain ⟨hv, hI⟩ := ih
    obtain ⟨hw, hview⟩ := hstep.view hv
    refine ⟨hw, ?_⟩
    cases o with
    | some o => exact hiter _ _ _ _ _ hview.1 hv hI hview.2
    | none =>
      rw [Option.toList_none, List.append_nil]
      exact hpass _ _ _ hI hview

theorem ScanRun.scannable {os : List Outcome} {i : Nat} {s : Firmware}
    (h : ScanRun avr os i s) : Scannable (scanView s) :=
  (h.induction (I := fun _ _ => True) (fun _ _ _ => trivial) (fun _ _ _ _ _ _ _ _ _ => trivial)
    fun _ _ _ _ _ => trivial).1

/-! ## Continuations -/

/-- What main does from the position `i₀` in the state `s₀` on. -/
inductive LoopRun (M : Machine Firmware Input) (i₀ : Nat) (s₀ : Firmware) :
    List Outcome → Nat → Firmware → Prop where
  | refl : LoopRun M i₀ s₀ [] i₀ s₀
  | step {os : List Outcome} {i i' : Nat} {s t : Firmware} {o : Option Outcome}
      (h : LoopRun M i₀ s₀ os i s) (hstep : LoopStep M i s o i' t) :
      LoopRun M i₀ s₀ (os ++ o.toList) i' t

section Restricts

variable {M' M : Machine Firmware Input} (h : M'.Restricts M) {s s₀ t : Firmware} {i i' i₀ : Nat}

include h

theorem LoopStep.of_restricts {o : Option Outcome} (hstep : LoopStep M' i s o i' t) :
    LoopStep M i s o i' t := by
  cases hstep with
  | pad sched hi hrun => exact .pad sched hi (run_of_restricts h sched _ _ _ hrun)
  | pass sched hrun => exact .pass sched (run_of_restricts h sched _ _ _ hrun)

theorem LoopRun.of_restricts {os : List Outcome} (hrun : LoopRun M' i₀ s₀ os i s) :
    LoopRun M i₀ s₀ os i s := by
  induction hrun with
  | refl => exact .refl
  | step _ hstep ih => exact ih.step (hstep.of_restricts h)

end Restricts

/-- An invariant of the view holds for as long as the iterations are of a kind that keeps it. -/
theorem LoopRun.induction {I : ScanView → Prop} {A : Outcome → Prop}
    (hiter : ∀ v i o w, i < numPads → A o → I v → IterationStep i v o w → I w)
    (hpass : ∀ v w, I v → SamePads v w → I w) {os : List Outcome} {i₀ i : Nat} {s₀ s : Firmware}
    (h : LoopRun avr i₀ s₀ os i s) (hv : Scannable (scanView s₀)) (hI : I (scanView s₀))
    (hA : ∀ o ∈ os, A o) : Scannable (scanView s) ∧ I (scanView s) := by
  induction h with
  | refl => exact ⟨hv, hI⟩
  | @step os i i' s t o h hstep ih =>
    obtain ⟨hv, hI⟩ := ih fun o ho => hA o (List.mem_append_left _ ho)
    obtain ⟨hw, hview⟩ := hstep.view hv
    refine ⟨hw, ?_⟩
    cases o with
    | some o => exact hiter _ _ _ _ hview.1 (hA o (by simp)) hI hview.2
    | none => exact hpass _ _ hI hview

/-! ## A run -/

/-- The start with nothing connected and nothing pressed. -/
def booted : (Nat → Nat) × Firmware := startUp.exec (fun _ => Input.quiet) powerOn

theorem booted_run : ScanRun avr [] 0 booted.2 :=
  .start _ (run_steady_mk avr (fun _ => Input.quiet) (fun _ => rfl) startUp powerOn)

/-- Nothing is pressed: the converter reads 600 at the single-ended pads. -/
def atRest (s : Firmware) : Input :=
  { Input.quiet with adc := if 40 ≤ s.ports.channel then 600 else 0 }

def bootedAtRest : (Nat → Nat) × Firmware := startUp.exec atRest powerOn

/-- The iteration at position `i` without interrupts. -/
def iteration (i : Nat) (env : Firmware → Input) (s : Firmware) : Outcome × Firmware :=
  (scanPad i).exec env s

theorem iteration_loopStep {M : Machine Firmware Input} {i : Nat} (hi : i < numPads)
    {env : Firmware → Input} (hadm : ∀ s, M.admits s (env s) = true) (s : Firmware) :
    LoopStep M i s (some (iteration i env s).1) (i + 1) (iteration i env s).2 :=
  .pad _ hi (run_steady_mk M env hadm (scanPad i) s)

theorem iteration_step {i : Nat} (hi : i < numPads) (env : Firmware → Input) (s : Firmware) :
    LoopStep avr i s (some (iteration i env s).1) (i + 1) (iteration i env s).2 :=
  iteration_loopStep hi (fun _ => rfl) s

/-- The reset button is not pressed. -/
theorem iteration_recalibrated (i : Nat) (env : Firmware → Input) (s : Firmware)
    (henv : ∀ s, (env s).pinE2 = true) : (iteration i env s).1.recalibrated = none := by
  have hreset (t : Firmware) : (resetButton.exec env t).1 = none := by
    simp [resetButton, henv]
  unfold iteration scanPad
  simp only [bind_eq, exec_bind, pure_eq, exec_ret, hreset]

/-- The order of the scan is then what it was. -/
theorem iteration_quiet {i : Nat} (hi : i < numPads) {env : Firmware → Input}
    (henv : ∀ s, (env s).pinE2 = true) {s t : Firmware} {o : Outcome}
    (hv : Scannable (scanView s)) (hiter : iteration i env s = (o, t)) :
    o.recalibrated = none ∧ Scannable (scanView t) ∧ IterationStep i (scanView s) o (scanView t) ∧
      t.pads.padOrder = s.pads.padOrder := by
  have hcodes : o.recalibrated = none := by
    have hquiet := iteration_recalibrated i env s henv
    rwa [hiter] at hquiet
  have hstep : LoopStep avr i s (some o) (i + 1) t := by
    have hrun := iteration_step hi env s
    rwa [hiter] at hrun
  obtain ⟨hscannable, -, hview⟩ := hstep.view hv
  exact ⟨hcodes, hscannable, hview, hview.padOrder_eq hcodes⟩

/-- Pad 0 is pressed. -/
def firstPadPressed (_ : Firmware) : Input := { Input.quiet with adc := 0x300 }

end SphereWare
