import SphereWare.Blend.Halfway
import SphereWare.Properties.Press

/-!
# The touch machine

A velocity pad on its own: not touched, or touched with a velocity and a pressure. Its input is what
the converter reads of the pad, and its output is the branch main takes and the entry of the pad in
the report. One iteration of main is one step of the machine, or none of its business.
-/

namespace SphereWare

open Interrupt Prog

/-! ## The machine -/

/-- What a touch has come to. -/
structure Touch where
  velocity : Int
  pressure : Int

/-- The first sample decides. -/
def leading (samples : List Sample) : Int := (samples.head?.map Sample.val).getD 0

/-- A touch begins with the velocity as its pressure. -/
def Touch.struck (samples : List Sample) : Touch :=
  ⟨strikeVelocity samples, strikeVelocity samples⟩

/-- Half of the way to the deflection, at most 511. -/
def Touch.press (t : Touch) (val : Int) : Touch :=
  { t with pressure := Blend.halfway 511 t.pressure val }

/-- The next state, by what is read of the pad. -/
def touchNext (samples : List Sample) : Option Touch → Option Touch
  | none => if 0 < leading samples then some (.struck samples) else none
  | some t => if 0 < leading samples then some (t.press (leading samples)) else none

/-- The branch that goes with the step. -/
def touchEvent (samples : List Sample) : Option Touch → PadEvent
  | none => if 0 < leading samples then .strike else .idle
  | some _ => if 0 < leading samples then .pressure else .release

/-- What the host reads: pressure and velocity. -/
def touchEntry : Option Touch → Nat × Nat
  | none => (0, 0)
  | some t => (t.pressure.toNat, t.velocity.toNat)

/-- A calibration ends the touch before anything is read. -/
def touchBefore (o : Outcome) (t : Option Touch) : Option Touch :=
  if o.recalibrated.isSome then none else t

/-- The step of the machine of the pad `p`. Iterations for other pads do not count. -/
def touchStep (p : Nat) (t : Option Touch) (o : Outcome) : Option Touch :=
  if o.pad = p then touchNext o.samples (touchBefore o t) else touchBefore o t

/-- The state of the pad `p` after the iterations `os`. -/
def touchAfter (p : Nat) (os : List Outcome) : Option Touch := os.foldl (touchStep p) none

theorem touchAfter_append (p : Nat) (os os' : List Outcome) :
    touchAfter p (os ++ os') = os'.foldl (touchStep p) (touchAfter p os) := List.foldl_append

/-- Both numbers are in range. -/
structure Touch.Valid (t : Touch) : Prop where
  velocity : 0 ≤ t.velocity ∧ t.velocity ≤ 127
  pressure : 0 ≤ t.pressure ∧ t.pressure ≤ 511

/-- What main and the host know of a pad is the state of its machine. -/
def PadReport.Shows (r : PadReport) : Option Touch → Prop
  | none => r.played = false ∧ r.sent = false ∧ r.entry = (0, 0)
  | some t => t.Valid ∧ r = ⟨true, true, t.pressure, (t.pressure.toNat, t.velocity.toNat)⟩

variable {r : PadReport} {t : Option Touch}

theorem PadReport.Shows.played (h : r.Shows t) : r.played = t.isSome := by
  cases t with
  | none => exact h.1
  | some t => exact congrArg PadReport.played h.2

theorem PadReport.Shows.sent (h : r.Shows t) : r.sent = t.isSome := by
  cases t with
  | none => exact h.2.1
  | some t => exact congrArg PadReport.sent h.2

theorem PadReport.Shows.entry (h : r.Shows t) : r.entry = touchEntry t := by
  cases t with
  | none => exact h.2.2
  | some t => exact congrArg PadReport.entry h.2

theorem PadReport.Shows.valid (h : r.Shows t) : ∀ u ∈ t, u.Valid := by
  rintro u rfl
  exact h.1

theorem Touch.struck_valid (samples : List Sample) : (Touch.struck samples).Valid := by
  have hvel : 0 ≤ strikeVelocity samples ∧ strikeVelocity samples ≤ 127 := by
    rw [strikeVelocity, ← velocityOf_eq_min]
    exact velocityOf_range (le_foldl_max _ _)
  exact ⟨hvel, hvel.1, hvel.2.trans (by decide)⟩

theorem Touch.Valid.press {t : Touch} {val : Int} (h : t.Valid) (hval : 0 < val) :
    (t.press val).Valid :=
  ⟨h.velocity, nextPressure_range h.pressure.1 hval⟩

/-! ## One pad -/

variable {v : ScanView} {pad : Nat}

/-- **The branches of main are the steps of the machine.** -/
theorem scanVelocityPad_touch (hpad : pad < numPads) (ht : (v.report pad).Shows t) :
    Spec avr scanView v (scanVelocityPad pad) fun r w =>
      r.2 = touchEvent r.1 t ∧ (w.report pad).Shows (touchNext r.1 t) := by
  refine Spec.bind (sampleVelocityPad_spec pad) ?_
  rintro x w ⟨rfl, -⟩
  have hleading (l : List Sample) : leading (x :: l) = x.val := rfl
  refine Spec.read_bind t.isSome (fun s hs => ?_) ?_
  · rw [← ht.sent, pads_eq hs]
    rfl
  refine Spec.ite (fun hval => Spec.ite (fun hsent => ?_) fun hsent => ?_)
    fun hval => Spec.ite (fun hsent => ?_) fun hsent => ?_
  · obtain ⟨u, rfl⟩ := Option.isSome_iff_exists.mp hsent
    obtain ⟨hvalid, hreport⟩ := ht
    have hfiltered : w.pads.filteredVal pad = u.pressure := congrArg PadReport.filtered hreport
    have hentry : (w.entries pad).2 = u.velocity.toNat :=
      congrArg (fun r => (PadReport.entry r).2) hreport
    have hvelocitySent : w.pads.velocitySent pad = true := congrArg PadReport.sent hreport
    refine Spec.bind (pressureUpdate_spec hpad hval (hfiltered ▸ hvalid.pressure.1)) ?_
    intro _ a ha
    rw [hfiltered, hentry, hvelocitySent] at ha
    refine Spec.ret ⟨?_, ?_⟩
    · rw [touchEvent, hleading, if_pos hval]
    · rw [touchNext, hleading, if_pos hval]
      exact ⟨hvalid.press hval, ha.self⟩
  · obtain rfl : t = none := by simpa using hsent
    refine Spec.bind (strike_spec hpad hval) fun l a ha => Spec.ret ?_
    have hpeak : velocityOf ((l.map Sample.val).foldl max x.val) = strikeVelocity (x :: l) := by
      rw [velocityOf_eq_min, strikeVelocity, peak, List.map_cons, List.foldl_cons,
        max_eq_right hval.le]
    have hself := ha.2.self
    rw [hpeak] at hself
    refine ⟨?_, ?_⟩
    · rw [touchEvent, hleading, if_pos hval]
    · rw [touchNext, hleading, if_pos hval]
      exact ⟨Touch.struck_valid _, hself⟩
  · obtain ⟨u, rfl⟩ := Option.isSome_iff_exists.mp hsent
    refine Spec.bind (release_spec hpad) fun _ a ha => Spec.ret ⟨?_, ?_⟩
    · rw [touchEvent, hleading, if_neg hval]
    · rw [touchNext, hleading, if_neg hval, ha.self]
      exact ⟨rfl, rfl, rfl⟩
  · obtain rfl : t = none := by simpa using hsent
    refine Spec.ret ⟨?_, ?_⟩
    · rw [touchEvent, hleading, if_neg hval]
    · rw [touchNext, hleading, if_neg hval]
      exact ht

/-! ## One iteration -/

/-- What main does with the pad it has selected is a step of one machine only. -/
theorem scanSelected_touch {p : Nat} (hp : p < 40) (hpad : pad < numPads)
    (hv : FilteredNonneg v) (ht : (v.report p).Shows t) :
    Spec avr scanView v (scanSelected pad) fun r w =>
      (pad = p → r.2 = touchEvent r.1 t) ∧
        (w.report p).Shows (if pad = p then touchNext r.1 t else t) := by
  by_cases heq : pad = p
  · subst heq
    refine Spec.ite (fun _ => ?_) fun h40 => absurd hp h40
    refine Spec.mono (scanVelocityPad_touch hpad ht) fun r w hw => ⟨fun _ => hw.1, ?_⟩
    rw [if_pos rfl]
    exact hw.2
  · refine Spec.mono (scanSelected_spec hpad hv) fun r w hw => ⟨fun h => absurd h heq, ?_⟩
    rw [if_neg heq, hw.elsewhere.other p (Nat.lt_trans hp (by decide)) (Ne.symm heq)]
    exact ht

theorem scanRest_touch {p : Nat} (hp : p < 40) (i : Nat) (hpad : pad < numPads)
    (hv : FilteredNonneg v) (ht : (v.report p).Shows t) :
    Spec avr scanView v (scanRest i pad) fun r w =>
      (pad = p → r.2 = touchEvent r.1 t) ∧
        (w.report p).Shows (if pad = p then touchNext r.1 t else t) := by
  refine Spec.read_bind (v.pads.r2rVal i) (fun s hs => by rw [pads_eq hs]) ?_
  refine r2rWrite_bind (Spec.bind (eliteScan_spec _) fun _ v₂ hv₂ => ?_)
  refine Spec.keeps_bind (muxSelect_keeps _) fun _ => ?_
  refine Spec.keeps_bind (delay_keeps (fun _ _ => rfl) _) fun _ => ?_
  refine scanSelected_touch hp hpad (hv₂.filteredNonneg hv) ?_
  rw [hv₂.report (Nat.lt_trans hp (by decide))]
  exact ht

theorem Calibrated.touch {codes : Nat → Nat} {p : Nat} (hp : p < 40) (h : Calibrated codes v) :
    (v.report p).Shows none :=
  ⟨h.played p (Nat.lt_trans hp (by decide)), h.sent p (Nat.lt_trans hp (by decide)),
    h.entries p (Nat.lt_trans hp (by decide))⟩

theorem ResetStep.touch {w : ScanView} {codes : Option (Nat → Nat)} {p : Nat} (hp : p < 40)
    (h : ResetStep v w codes) (ht : (v.report p).Shows t) :
    (w.report p).Shows (if codes.isSome then none else t) := by
  cases codes with
  | none =>
    obtain rfl : w = _ := h
    have hreport : ScanView.report { v with pads := v.pads.setPlayed 53 false } p = v.report p := by
      simp only [ScanView.report, Pads.setPlayed, Function.update_of_ne (show p ≠ 53 by omega)]
    rw [hreport]
    exact ht
  | some codes => exact Calibrated.touch hp h

/-- **The step lemma: whatever interrupts it, an iteration of main is a step of each machine.** -/
theorem scanPad_touch {p i : Nat} (hp : p < 40) (hpad : v.pads.padOrder i < numPads)
    (hv : FilteredNonneg v) (ht : (v.report p).Shows t) :
    Spec avr scanView v (scanPad i) fun o w =>
      (o.pad = p → o.event = touchEvent o.samples (touchBefore o t)) ∧
        (w.report p).Shows (touchStep p t o) := by
  refine Spec.read_bind (v.pads.padOrder i) (fun s hs => by rw [pads_eq hs]) ?_
  refine Spec.bind resetButton_spec fun codes v₁ hv₁ => ?_
  refine Spec.bind (scanRest_touch hp i hpad (hv₁.filteredNonneg hv) (hv₁.touch hp ht)) ?_
  exact fun r w hw => Spec.ret hw

/-! ## Every run -/

/-- **The run lemma.** -/
theorem ScanRun.touch {os : List Outcome} {i p : Nat} {s : Firmware} (hp : p < 40)
    (h : ScanRun avr os i s) : ((scanView s).report p).Shows (touchAfter p os) := by
  induction h with
  | start sched hrun => exact (startUp_spec.run scanView_sound hrun).touch hp
  | @step os i i' s t o h hstep ih =>
    have hscannable := h.scannable
    rw [touchAfter_append]
    cases hstep with
    | pad sched hi hrun =>
      have hspec := scanPad_touch hp (hscannable.order i hi) hscannable.filtered ih
      exact (hspec.run scanView_sound hrun).2
    | pass sched hrun =>
      obtain ⟨sum, prev, hw⟩ := endPass_spec.run scanView_sound hrun
      rw [hw]
      exact ih

/-- The branch an iteration takes. -/
theorem LoopStep.touchEvent_eq {os : List Outcome} {i i' p : Nat} {s t : Firmware} {o : Outcome}
    (hp : p < 40) (h : ScanRun avr os i s) (hstep : LoopStep avr i s (some o) i' t)
    (hpad : o.pad = p) : o.event = touchEvent o.samples (touchBefore o (touchAfter p os)) := by
  have hscannable := h.scannable
  cases hstep with
  | pad sched hi hrun =>
    have hspec := scanPad_touch hp (hscannable.order i hi) hscannable.filtered (h.touch hp)
    exact (hspec.run scanView_sound hrun).1 hpad

end SphereWare
