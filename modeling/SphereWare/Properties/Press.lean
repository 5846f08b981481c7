import SphereWare.Spec.ScanRun

/-!
# Presses

The velocity pads have one abstract state: no press, or a press with the velocity of its strike.
`being_played`, `velocity_sent`, `filtered_val` and the entry in the report all follow it, in every
run of the main loop.
-/

namespace SphereWare

open Interrupt Prog

/-! ## The abstract state -/

/-- For each pad the velocity of the press in progress, if there is one. -/
abbrev Presses : Type := Nat → Option Int

/-- `peak >> 1`, at most 127. -/
def strikeVelocity (samples : List Sample) : Int := min 127 (peak samples / 2)

/-- A calibration ends every press, a strike begins one and a release ends it. -/
def Presses.after (g : Presses) (o : Outcome) : Presses :=
  let g₀ : Presses := if o.recalibrated.isSome then fun _ => none else g
  match o.event with
  | .strike => Function.update g₀ o.pad (some (strikeVelocity o.samples))
  | .release => Function.update g₀ o.pad none
  | .pressure | .idle => g₀

/-- The presses in progress after the iterations `os`. -/
def pressesAfter (os : List Outcome) : Presses := os.foldl Presses.after fun _ => none

theorem pressesAfter_append (os : List Outcome) (o : Outcome) :
    pressesAfter (os ++ [o]) = (pressesAfter os).after o := by
  rw [pressesAfter, List.foldl_append]
  rfl

/-! ## One pad -/

/-- What main and the host know of a pad agrees with its abstract state. -/
def PadReport.Follows (r : PadReport) : Option Int → Prop
  | none => r.played = false ∧ r.sent = false ∧ r.entry = (0, 0)
  | some vel => r.played = true ∧ r.sent = true ∧ 0 ≤ r.filtered ∧ r.filtered ≤ 511 ∧
      r.entry = (r.filtered.toNat, vel.toNat)

theorem PadReport.Follows.sent_iff {r : PadReport} {press : Option Int} (h : r.Follows press) :
    r.sent = press.isSome := by
  cases press with
  | none => exact h.2.1
  | some vel => exact h.2.1

/-- All velocity pads. -/
def PressInvariant (g : Presses) (v : ScanView) : Prop :=
  ∀ p < 40, (v.report p).Follows (g p)

variable {v w : ScanView} {g : Presses}

theorem pressInvariant_of_report (h : ∀ p < 40, w.report p = v.report p)
    (hv : PressInvariant g v) : PressInvariant g w := by
  intro p hp
  rw [h p hp]
  exact hv p hp

theorem Calibrated.pressInvariant {codes : Nat → Nat} (h : Calibrated codes v) :
    PressInvariant (fun _ => none) v := by
  intro p hp
  have hp48 : p < numPads := Nat.lt_trans hp (by decide)
  exact ⟨h.played p hp48, h.sent p hp48, h.entries p (by omega)⟩

/-- An iteration that changes the data of one pad, in step with its abstract state. -/
theorem OnlyPad.pressInvariant {pad : Nat} {r : PadReport} {press : Option Int}
    (h : OnlyPad pad r v w) (hv : PressInvariant g v) (hr : r.Follows press) :
    PressInvariant (Function.update g pad press) w := by
  intro p hp
  by_cases hne : p = pad
  · rw [hne, Function.update_self, h.self]
    exact hr
  · rw [Function.update_of_ne hne, h.other p (Nat.lt_trans hp (by decide)) hne]
    exact hv p hp

/-! ## One iteration -/

theorem ResetStep.pressInvariant {codes : Option (Nat → Nat)} (h : ResetStep v w codes)
    (hv : PressInvariant g v) :
    PressInvariant (if codes.isSome then fun _ => none else g) w := by
  cases codes with
  | none =>
    obtain rfl : w = _ := h
    refine pressInvariant_of_report (fun p hp => ?_) hv
    simp only [ScanView.report, Pads.setPlayed, Function.update_of_ne (show p ≠ 53 by omega)]
  | some codes => exact Calibrated.pressInvariant h

/-- The step lemma, one case for each branch of the main loop. -/
theorem BranchStep.pressInvariant {pad : Nat} (hpad : pad < 40) {codes : Option (Nat → Nat)}
    {samples : List Sample} {event : PadEvent} (h : BranchStep pad samples v w event)
    (hv : PressInvariant (if codes.isSome then fun _ => none else g) v) :
    PressInvariant (g.after ⟨pad, codes, samples, event⟩) w := by
  have hsent := (hv pad hpad).sent_iff
  cases event with
  | idle =>
    obtain ⟨-, rfl⟩ := h
    exact hv
  | strike =>
    obtain ⟨-, honly⟩ := h
    have hvel := velocityOf_range (le_foldl_max (samples.map Sample.val) 0)
    have heq : strikeVelocity samples = velocityOf (peak samples) := (velocityOf_eq_min _).symm
    refine honly.pressInvariant hv ?_
    rw [heq]
    exact ⟨rfl, rfl, hvel.1, hvel.2.trans (by decide), rfl⟩
  | pressure =>
    obtain ⟨hs, f, hf₀, hf₁, honly⟩ := h
    have hpress := hv pad hpad
    cases hg : (if codes.isSome then fun _ => none else g : Presses) pad with
    | none =>
      rw [hg, Option.isSome_none] at hsent
      exact absurd (hs.symm.trans hsent) (by decide)
    | some vel =>
      rw [hg] at hpress
      have hentry : (v.entries pad).2 = vel.toNat := congrArg Prod.snd hpress.2.2.2.2
      rw [hentry] at honly
      have hfollows : PadReport.Follows ⟨true, true, f, (f.toNat, vel.toNat)⟩ (some vel) :=
        ⟨rfl, rfl, hf₀, hf₁, rfl⟩
      -- the abstract state does not change: the velocity is still that of the strike
      have hw := honly.pressInvariant hv hfollows
      rw [← hg, Function.update_eq_self] at hw
      exact hw
  | release =>
    obtain ⟨-, honly⟩ := h
    exact honly.pressInvariant hv ⟨rfl, rfl, rfl⟩

theorem Presses.after_of_ne (g : Presses) (o : Outcome) {p : Nat} (hne : p ≠ o.pad) :
    g.after o p = (if o.recalibrated.isSome then fun _ => none else g : Presses) p := by
  unfold Presses.after
  cases o.event with
  | strike => exact Function.update_of_ne hne _ _
  | release => exact Function.update_of_ne hne _ _
  | pressure => rfl
  | idle => rfl

theorem IterationStep.pressInvariant {i : Nat} {o : Outcome} (h : IterationStep i v o w)
    (hv : PressInvariant g v) : PressInvariant (g.after o) w := by
  obtain ⟨-, v₁, v₂, hreset, helite, hsel⟩ := h
  have hv₂ : PressInvariant (if o.recalibrated.isSome then fun _ => none else g) v₂ :=
    pressInvariant_of_report (fun p hp => helite.report (Nat.lt_trans hp (by decide)))
      (pressInvariant_of_report (fun _ _ => rfl) (hreset.pressInvariant hv))
  unfold SelectedStep at hsel
  split at hsel
  · next hpad => exact hsel.2.2.pressInvariant hpad hv₂
  · next hpad =>
    -- an iteration for a pad from 40 on is none of the velocity pads' business
    intro p hp
    rw [hsel.2.other p (Nat.lt_trans hp (by decide)) (by omega), g.after_of_ne o (by omega)]
    exact hv₂ p hp

/-- An iteration without a calibration changes the entry of its own pad only. -/
theorem IterationStep.entries_eq {i : Nat} {o : Outcome} (h : IterationStep i v o w)
    (hrecal : o.recalibrated = none) {q : Nat} (hq : q < numPads) (hne : q ≠ o.pad) :
    w.entries q = v.entries q := by
  obtain ⟨-, v₁, v₂, hreset, helite, hsel⟩ := h
  rw [hrecal] at hreset
  obtain rfl : v₁ = _ := hreset
  have hentry {a b : ScanView} (hab : b.report q = a.report q) : b.entries q = a.entries q :=
    congrArg PadReport.entry hab
  have helite' : v₂.entries q = v.entries q := congrArg PadReport.entry (helite.report hq)
  exact (hentry (hsel.elsewhere.other q hq hne)).trans helite'

/-! ## Every run -/

/-- The invariant holds in every run of the main loop. -/
theorem ScanRun.pressInvariant {os : List Outcome} {i : Nat} {s : Firmware}
    (h : ScanRun avr os i s) : PressInvariant (pressesAfter os) (scanView s) := by
  refine (h.induction (I := fun os v => PressInvariant (pressesAfter os) v) ?_ ?_ ?_).2
  · exact fun codes v hcal => hcal.pressInvariant
  · intro os v i o w hi hv hI hstep
    rw [pressesAfter_append]
    exact hstep.pressInvariant hI
  · rintro os v w hI ⟨sum, prev, rfl⟩
    exact pressInvariant_of_report (fun _ _ => rfl) hI

/--
**The press and report invariant.** In every run of the main loop from a completed calibration,
with interrupts anywhere and calibrations in between:

* a pad is played exactly if its velocity has been sent;
* if it has not, the host reads pressure 0 and velocity 0;
* if it has, the host reads the filtered value and the velocity of the strike that began the press;
* an iteration that does not calibrate leaves the entries of all other pads alone.
-/
theorem press_report_invariant {os : List Outcome} {i : Nat} {s : Firmware}
    (h : ScanRun avr os i s) :
    (∀ p < 40, s.pads.beingPlayed p = s.pads.velocitySent p ∧
      (s.pads.velocitySent p = false → s.hid.entry p = (0, 0)) ∧
      (s.pads.velocitySent p = true → ∃ vel, pressesAfter os p = some vel ∧
        0 ≤ s.pads.filteredVal p ∧ s.pads.filteredVal p ≤ 511 ∧
        s.hid.entry p = ((s.pads.filteredVal p).toNat, vel.toNat))) ∧
    ∀ (o : Outcome) (i' : Nat) (t : Firmware), LoopStep avr i s (some o) i' t →
      o.recalibrated = none → ∀ q < numPads, q ≠ o.pad → t.hid.entry q = s.hid.entry q := by
  have hentry (s : Firmware) {p : Nat} (hp : p < numPads) :
      (scanView s).entries p = s.hid.entry p := if_pos hp
  refine ⟨fun p hp => ?_, fun o i' t hstep hrecal q hq hne => ?_⟩
  · have hpress := h.pressInvariant p hp
    rw [← hentry s (Nat.lt_trans hp (by decide))]
    cases hg : pressesAfter os p with
    | none =>
      rw [hg] at hpress
      obtain ⟨hplayed, hsent, hent⟩ := hpress
      refine ⟨hplayed.trans hsent.symm, fun _ => hent, fun hs => ?_⟩
      exact absurd (hs.symm.trans hsent) (by decide)
    | some vel =>
      rw [hg] at hpress
      obtain ⟨hplayed, hsent, hf₀, hf₁, hent⟩ := hpress
      refine ⟨hplayed.trans hsent.symm, fun hs => ?_, fun _ => ⟨vel, rfl, hf₀, hf₁, hent⟩⟩
      exact absurd (hs.symm.trans hsent) (by decide)
  · cases hstep with
    | pad sched hi hrun =>
      have hv := h.scannable
      have hiteration := (scanPad_spec (hv.order i hi) hv.filtered).run scanView_sound hrun
      rw [← hentry s hq, ← hentry t hq]
      exact hiteration.entries_eq hrecal hq hne

/-- The first iteration after the start, with the first pad pressed. -/
def struck : Outcome × Firmware :=
  iteration 0 (fun _ => { Input.quiet with adc := 0x300 }) booted.2

theorem struck_run : ScanRun avr [struck.1] 1 struck.2 :=
  booted_run.step (iteration_step (by decide) _ _)

theorem struck_state : struck.1.pad < 40 ∧ struck.1.event = .strike ∧
    struck.2.pads.velocitySent 0 = true := by
  decide +kernel

theorem press_report_invariant_struck : ∃ vel, pressesAfter [struck.1] 0 = some vel ∧
    0 ≤ struck.2.pads.filteredVal 0 ∧ struck.2.pads.filteredVal 0 ≤ 511 ∧
    struck.2.hid.entry 0 = ((struck.2.pads.filteredVal 0).toNat, vel.toNat) :=
  ((press_report_invariant struck_run).1 0 (by decide)).2.2 struck_state.2.2

end SphereWare
