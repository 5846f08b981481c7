import Mathlib.Logic.Relation
import SphereWare.Spec.MainFrame
import SphereWare.Spec.ScanRun
import SphereWare.Spec.Standby

/-!
# Threshold accounting

Three offsets are added to the threshold of a pad and taken back: for standby by the interrupt, and
for hysteresis and against sticking by main. Main does the hysteresis with interrupts enabled, in a
load and a store. A tick in between that begins or ends standby is undone by the store.

Everywhere else a tick leaves alone what is left of a threshold without the standby offset
(`thresholdView`), so on a machine without such ticks main accounts for its own offsets alone.
-/

namespace SphereWare

open Interrupt Prog

/-! ## What is left of the thresholds -/

structure ThresholdView where
  sent : Nat → Bool
  sticky : Nat → Bool
  base : Nat → BitVec 16
  /-- The value under way, also without the standby offset. -/
  loaded : Option (BitVec 16)

def thresholdView (s : Firmware) : ThresholdView where
  sent := s.pads.velocitySent
  sticky := s.pads.antiStickyApplied
  base := s.standby.base
  loaded := s.cpu.loaded.map (· - s.standby.raised)

/-! ## Ticks -/

/-- No tick that begins or ends standby between a load and its store. -/
def tickHarmless (s : Firmware) : Bool := !(s.cpu.loaded.isSome && tickFlips s)

/-- The processor without harmful ticks. -/
def calmAvr : Machine Firmware Input := avr.restrict tickHarmless

/-- A harmless tick leaves the view alone. -/
theorem thresholdView_standbyTick {s : Firmware} (h : tickHarmless s = true) :
    thresholdView (standbyTick s) = thresholdView s := by
  have hloaded : s.cpu.loaded.map (· - (s.standby.tick s.pads.anyPlayed).raised)
      = s.cpu.loaded.map (· - s.standby.raised) := by
    cases hl : s.cpu.loaded with
    | none => rfl
    | some x =>
      have hflip : (s.standby.tick s.pads.anyPlayed).thresholdsRaised
          = s.standby.thresholdsRaised := by
        simpa [tickHarmless, tickFlips, hl] using h
      simp only [Standby.raised, hflip]
  simp only [thresholdView, standbyTick, Standby.base_tick, hloaded]

theorem thresholdView_of_serviceView {s t : Firmware} (h : SameOn serviceView s t) :
    SameOn thresholdView s t := by
  simp only [SameOn, serviceView, handlerView, Prod.mk.injEq] at h
  obtain ⟨h₁, h₂, -, -, -, -, -, -, h₉⟩ := h
  simp only [SameOn, thresholdView, h₁, h₂, h₉]

/-- **Without harmful ticks interrupts leave the view alone.** -/
theorem thresholdView_sound : (Rely.ofView thresholdView).Sound calmAvr := by
  intro s _ hen
  have hcalm : tickHarmless s = true := by
    have hen' : (s.cpu.iflag && tickHarmless s) = true := hen
    rw [Bool.and_eq_true] at hen'
    exact hen'.2
  show timerHandler.wp calmAvr _ _ _
  unfold timerHandler
  refine wp_atomic_bind.mpr fun t ht => ⟨trivial, fun i _ => ?_⟩
  -- the handler is entered with interrupts disabled
  obtain rfl : t = avr.enter s := ht.eq_of_disabled rfl
  have hview : thresholdView (standbyTick (avr.enter s)) = thresholdView s :=
    thresholdView_standbyTick hcalm
  refine wp_mono (fun _ u hu => ?_) (wp_of_keeps (SameOn.refl thresholdView)
    (fun _ _ _ => SameOn.trans) (fun _ _ h => h) (fun _ _ _ _ => trivial)
    (Keeps.mono (fun _ _ => thresholdView_of_serviceView) timerServices_keeps) trivial)
  exact Eq.trans hu hview

/-! ## What main adds and takes back -/

namespace ThresholdView

/-- The offsets of main that are in force on a pad. -/
def offset (v : ThresholdView) (p : Nat) : BitVec 16 :=
  (if v.sticky p then 50 else 0) - (if v.sent p then hysterisisAdjust p else 0)

/-- What is left of a threshold without any offset. -/
def net (v : ThresholdView) (p : Nat) : BitVec 16 := v.base p - v.offset p

/-- The thresholds without offsets are the same. -/
def Balanced (v w : ThresholdView) : Prop := ∀ p < 40, w.net p = v.net p

theorem Balanced.refl (v : ThresholdView) : Balanced v v := fun _ _ => rfl

theorem Balanced.trans {u v w : ThresholdView} (h₁ : Balanced u v) (h₂ : Balanced v w) :
    Balanced u w := fun p hp => (h₂ p hp).trans (h₁ p hp)

/-- A change of one pad in which offset and threshold move together. -/
theorem balanced_of_pad {v w : ThresholdView} (pad : Nat)
    (hother : ∀ p, p ≠ pad →
      w.sent p = v.sent p ∧ w.sticky p = v.sticky p ∧ w.base p = v.base p)
    (h : w.net pad = v.net pad) : Balanced v w := by
  intro p _
  rcases eq_or_ne p pad with rfl | hp
  · exact h
  · obtain ⟨hsent, hsticky, hbase⟩ := hother p hp
    simp only [net, offset, hsent, hsticky, hbase]

end ThresholdView

open ThresholdView

variable {v : ThresholdView} {pad : Nat}

/-- A load and a store, undisturbed. -/
theorem adjustInitVal_threshold (hpad : pad < 40) (d : BitVec 16) :
    Spec calmAvr thresholdView v (adjustInitVal pad d) fun _ w =>
      w = { v with base := Function.update v.base pad (v.base pad + d), loaded := none } := by
  unfold adjustInitVal
  refine Spec.atomic_bind fun _ s hs => Spec.atomic fun _ t ht => ?_
  have hloaded : t.cpu.loaded.map (· - t.standby.raised)
      = some (s.standby.initVal pad - s.standby.raised) := congrArg ThresholdView.loaded ht
  obtain ⟨x, hx, hbase⟩ := Option.map_eq_some_iff.mp hloaded
  have hpad' : v.base pad = x - t.standby.raised := by
    rw [hbase, ← hs]
    exact if_pos hpad
  have hview : thresholdView t = { v with loaded := some (v.base pad) } := by
    rw [ht, hpad', hbase, ← hs]
    rfl
  -- ticks between load and store may have come and gone, but none that moved the offset
  have hstore : x + d - t.standby.raised = v.base pad + d := by
    rw [hpad']
    grind
  calc thresholdView { t with
          standby := t.standby.setInitVal pad (t.cpu.loaded.getD 0 + d)
          cpu := { t.cpu with loaded := none } }
      = { thresholdView t with
          base := Function.update t.standby.base pad (v.base pad + d)
          loaded := none } := by
        simp only [thresholdView, hx, Option.getD_some, Standby.base_setInitVal _ hpad, hstore,
          Option.map_none]
    _ = { v with base := Function.update v.base pad (v.base pad + d), loaded := none } := by
        rw [show t.standby.base = v.base from congrArg ThresholdView.base hview, hview]

/-! ## The branches -/

/-- A strike takes the hysteresis offset off. -/
theorem strike_threshold (hpad : pad < 40) (hsent : v.sent pad = false) (val : Int) :
    Spec calmAvr thresholdView v (strike pad val) fun _ w => Balanced v w := by
  refine Spec.keeps_bind (peakLoop_keeps (fun _ _ => rfl) pad 200 val) fun r => ?_
  refine Spec.keeps_bind (critical_keeps (fun _ _ _ => rfl) ?_) fun _ => ?_
  · exact Keeps.bind (Keeps.act fun _ => rfl) fun _ => Keeps.act fun _ => rfl
  refine Spec.map_bind (fun v => { v with sent := Function.update v.sent pad true })
    (fun _ => rfl) ?_
  refine Spec.keeps_bind (Keeps.act fun _ => rfl) fun _ => ?_
  refine Spec.keeps_bind (Keeps.act fun _ => rfl) fun _ => ?_
  refine Spec.bind (adjustInitVal_threshold hpad _) ?_
  rintro _ w rfl
  refine Spec.ret (balanced_of_pad pad (fun p hp => ?_) ?_)
  · simp only [Function.update_of_ne hp, and_self]
  · simp only [net, offset, Function.update_self, hsent, if_true, Bool.false_eq_true, if_false]
    grind

/-- The anti-sticky branch puts its offset on once. -/
theorem antiSticky_threshold (hpad : pad < 40) :
    Spec calmAvr thresholdView v (antiSticky pad) fun _ w => Balanced v w := by
  unfold antiSticky
  refine Spec.keeps_bind (Keeps.act fun _ => rfl) fun _ => ?_
  refine Spec.read_bind (v.sticky pad) (by rintro t rfl; rfl) ?_
  refine Spec.when (fun happlied => ?_) fun _ => Balanced.refl v
  have hsticky : v.sticky pad = false := by simpa using happlied
  refine spec_critical_of (fun _ _ _ => rfl) ?_
  refine Spec.map_bind
    (fun v => { v with base := Function.update v.base pad (v.base pad + 50) }) (fun t => ?_) ?_
  · simp only [thresholdView, Standby.base_setInitVal _ hpad, Standby.raised_setInitVal,
      t.standby.add_sub_raised hpad]
  · refine Spec.map (fun v => { v with sticky := Function.update v.sticky pad true })
      (fun _ => rfl) (balanced_of_pad pad (fun p hp => ?_) ?_)
    · simp only [Function.update_of_ne hp, and_self]
    · simp only [net, offset, Function.update_self, hsticky, if_true, Bool.false_eq_true, if_false]
      grind

theorem pressureUpdate_threshold (hpad : pad < 40) (val : Int) :
    Spec calmAvr thresholdView v (pressureUpdate pad val) fun _ w => Balanced v w := by
  unfold pressureUpdate
  refine Spec.keeps_bind (Keeps.act fun _ => rfl) fun _ => ?_
  refine Spec.keeps_bind (Keeps.atomic fun _ _ => rfl) fun filtered => ?_
  refine Spec.bind (Spec.when (fun _ => antiSticky_threshold hpad) fun _ => Balanced.refl v)
    fun _ w hw => ?_
  refine Spec.keeps_bind (critical_keeps (fun _ _ _ => rfl) ?_) fun _ => ?_
  · exact Keeps.bind (Keeps.act fun _ => rfl) fun _ => Keeps.act fun _ => rfl
  · exact Spec.keeps (Keeps.act fun _ => rfl) fun _ => hw

/-- The sticky timeout takes the anti-sticky offset off. -/
theorem stickyTimeout_balanced (hpad : pad < 40) (t : Firmware) :
    Balanced (thresholdView t) (thresholdView (stickyTimeout pad t)) ∧
      (thresholdView (stickyTimeout pad t)).sent = (thresholdView t).sent := by
  have hbase : t.standby.base pad = t.standby.initVal pad - t.standby.raised := if_pos hpad
  unfold stickyTimeout
  simp only
  split
  · next happlied =>
    split
    · refine ⟨balanced_of_pad pad (fun p hp => ?_) ?_, rfl⟩
      · simp only [thresholdView, Standby.base_setInitVal _ hpad, Function.update_of_ne hp, and_self]
      · simp only [net, offset, thresholdView, Standby.base_setInitVal _ hpad, happlied,
          Function.update_self, hbase, if_true, Bool.false_eq_true, if_false]
        grind
    · exact ⟨Balanced.refl _, rfl⟩
  · exact ⟨Balanced.refl _, rfl⟩

/-- A release puts the hysteresis offset back. -/
theorem release_threshold (hpad : pad < 40) (hsent : v.sent pad = true) :
    Spec calmAvr thresholdView v (release pad) fun _ w => Balanced v w := by
  unfold release
  refine Spec.bind (Q := fun _ w => Balanced v w ∧ w.sent = v.sent)
    (spec_critical_of (fun _ _ _ => rfl) ?_) ?_
  · refine Spec.atomic_bind fun _ t ht => ?_
    have hsticky := stickyTimeout_balanced hpad t
    rw [ht] at hsticky
    refine Spec.keeps_bind (Keeps.act fun _ => rfl) fun _ => ?_
    exact Spec.keeps (Keeps.act fun _ => rfl) fun _ => hsticky
  · rintro _ w ⟨hbalanced, hsame⟩
    have hsent' : w.sent pad = true := by rw [hsame, hsent]
    refine Spec.map_bind (fun v => { v with sent := Function.update v.sent pad false })
      (fun _ => rfl) ?_
    refine Spec.mono (adjustInitVal_threshold hpad _) ?_
    rintro _ u rfl
    refine hbalanced.trans (balanced_of_pad pad (fun p hp => ?_) ?_)
    · simp only [Function.update_of_ne hp, and_self]
    · simp only [net, offset, Function.update_self, hsent', if_true, Bool.false_eq_true, if_false]
      grind

theorem scanVelocityPad_threshold (hpad : pad < 40) :
    Spec calmAvr thresholdView v (scanVelocityPad pad) fun _ w => Balanced v w := by
  refine Spec.keeps_bind (sampleVelocityPad_keeps (fun _ _ => rfl) pad) fun x => ?_
  refine Spec.read_bind (v.sent pad) (by rintro t rfl; rfl) ?_
  refine Spec.ite (fun _ => Spec.ite (fun _ => ?_) fun hsent => ?_)
    fun _ => Spec.ite (fun hsent => ?_) fun _ => ?_
  · exact Spec.bind (pressureUpdate_threshold hpad _) fun _ w hw => Spec.ret hw
  · exact Spec.bind (strike_threshold hpad (by simpa using hsent) _) fun _ w hw => Spec.ret hw
  · exact Spec.bind (release_threshold hpad hsent) fun _ w hw => Spec.ret hw
  · exact Spec.ret (Balanced.refl v)

/-! ## One iteration -/

theorem scanPressurePad_keeps (pad : Nat) :
    (scanPressurePad pad).Keeps (SameOn thresholdView) := by
  have hread {α : Type} (f : Firmware → α) : (read f : Code α).Keeps (SameOn thresholdView) :=
    Keeps.atomic fun _ _ => rfl
  refine Keeps.bind (hread _) fun threshold => ?_
  refine Keeps.bind (adcRead_keeps (fun _ _ => rfl) _ _) fun a => ?_
  refine Keeps.ite (Keeps.bind ?_ fun _ => Keeps.ret _) (Keeps.bind ?_ fun _ => Keeps.ret _)
  · refine Keeps.bind (hread _) fun applied => ?_
    refine Keeps.bind (Keeps.when ?_) fun _ => ?_
    · exact Keeps.bind (Keeps.act fun _ => rfl) fun _ => Keeps.act fun _ => rfl
    refine Keeps.bind (critical_keeps (fun _ _ _ => rfl) ?_) fun _ => Keeps.act fun _ => rfl
    refine Keeps.bind (Keeps.act fun _ => rfl) fun _ => Keeps.bind (hread _) fun _ => ?_
    refine Keeps.bind (Keeps.when (Keeps.act fun _ => rfl)) fun _ => ?_
    exact Keeps.bind (Keeps.act fun _ => rfl) fun _ => Keeps.act fun _ => rfl
  · refine Keeps.bind (hread _) fun applied => ?_
    refine Keeps.bind (Keeps.when ?_) fun _ => critical_keeps (fun _ _ _ => rfl) ?_
    · exact Keeps.bind (Keeps.act fun _ => rfl) fun _ => Keeps.act fun _ => rfl
    · exact Keeps.bind (Keeps.act fun _ => rfl) fun _ => Keeps.act fun _ => rfl

theorem thresholdView_approaches : Approaches (SameOn thresholdView) where
  iflag _ _ := rfl
  mux _ _ := rfl
  r2r _ _ := rfl
  region _ _ _ := rfl
  elite _ _ _ _ := rfl

theorem scanRest_threshold (i pad : Nat) :
    Spec calmAvr thresholdView v (scanRest i pad) fun _ w => Balanced v w := by
  refine thresholdView_approaches.scanRest_spec i (Spec.ite (fun hpad => ?_) fun _ => ?_)
  · exact scanVelocityPad_threshold hpad
  · exact Spec.keeps (scanPressurePad_keeps pad) fun _ => Balanced.refl v

theorem resetButton_threshold :
    Spec calmAvr thresholdView v resetButton fun codes w => codes = none → w = v := by
  refine Spec.keeps_bind (Keeps.atomic fun _ _ => rfl) fun up => ?_
  refine Spec.ite (fun _ => ?_) fun _ => ?_
  · exact Spec.keeps_bind (Keeps.act fun _ => rfl) fun _ => Spec.ret fun _ => rfl
  · refine Spec.keeps_bind (Keeps.act fun _ => rfl) fun _ => ?_
    exact Spec.bind Spec.top fun codes w _ => Spec.ret fun h => absurd h (by simp)

theorem scanPad_threshold (i : Nat) :
    Spec calmAvr thresholdView v (scanPad i) fun o w => o.recalibrated = none → Balanced v w := by
  refine Spec.keeps_bind (Keeps.atomic fun _ _ => rfl) fun pad => ?_
  refine Spec.bind resetButton_threshold ?_
  intro codes w hw
  -- after a calibration the accounts start anew, so nothing is claimed of it
  cases codes with
  | none =>
    obtain rfl : w = v := hw rfl
    exact Spec.bind (scanRest_threshold i pad) fun r u hu => Spec.ret fun _ => hu
  | some codes => exact Spec.bind Spec.top fun r u _ => Spec.ret fun h => absurd h (by simp)

theorem endPass_threshold : Spec calmAvr thresholdView v endPass fun _ w => w = v := by
  refine Spec.keeps (Keeps.mono (fun s t h => ?_) endPass_keeps) fun _ => rfl
  simp only [SameOn, passView, Prod.mk.injEq, Pads.mk.injEq] at h
  obtain ⟨⟨-, -, -, -, h₅, -, h₇, -, -, -, -⟩, hstandby, -, -, -, -, -, -, -, -, hl⟩ := h
  simp only [SameOn, thresholdView, h₅, h₇, hstandby, hl]

/-! ## Runs without a calibration -/

/-- What main does between two calibrations: an iteration, the rest of one, the end of a pass. -/
inductive QuietStep (M : Machine Firmware Input) (s : Firmware) : Firmware → Prop where
  | iteration {o : Outcome} {t : Firmware} (i : Nat) (sched : Sched Input)
      (hrun : (scanPad i).run M sched s = some (o, t)) (ho : o.recalibrated = none) :
      QuietStep M s t
  | rest {r : List Sample × PadEvent} {t : Firmware} (i pad : Nat) (sched : Sched Input)
      (hrun : (scanRest i pad).run M sched s = some (r, t)) : QuietStep M s t
  | pass {t : Firmware} (sched : Sched Input) (hrun : endPass.run M sched s = some ((), t)) :
      QuietStep M s t

/-- What happens without harmful ticks can happen. -/
theorem QuietStep.of_calm {s t : Firmware} (h : QuietStep calmAvr s t) : QuietStep avr s t := by
  have hrestricts : calmAvr.Restricts avr := avr.restrict_restricts tickHarmless
  cases h with
  | iteration i sched hrun ho =>
    exact .iteration i sched (run_of_restricts hrestricts sched _ s _ hrun) ho
  | rest i pad sched hrun =>
    exact .rest i pad sched (run_of_restricts hrestricts sched _ s _ hrun)
  | pass sched hrun => exact .pass sched (run_of_restricts hrestricts sched _ s _ hrun)

/-- The step lemma. -/
theorem QuietStep.balanced {s t : Firmware} (h : QuietStep calmAvr s t) :
    Balanced (thresholdView s) (thresholdView t) := by
  cases h with
  | iteration i sched hrun ho => exact (scanPad_threshold i).run thresholdView_sound hrun ho
  | rest i pad sched hrun => exact (scanRest_threshold i pad).run thresholdView_sound hrun
  | pass sched hrun =>
    have hsame : thresholdView t = thresholdView s :=
      endPass_threshold.run thresholdView_sound hrun
    rw [hsame]
    exact Balanced.refl _

theorem balanced_of_run {s t : Firmware} (h : Relation.ReflTransGen (QuietStep calmAvr) s t) :
    Balanced (thresholdView s) (thresholdView t) := by
  induction h with
  | refl => exact Balanced.refl _
  | tail _ hstep ih => exact ih.trans hstep.balanced

/-- Word arithmetic that does not overflow. -/
theorem toInt_offsets {c r k h : BitVec 16} (hr : 0 ≤ r.toInt ∧ r.toInt ≤ 100)
    (hk : 0 ≤ k.toInt ∧ k.toInt ≤ 50) (hh : 0 ≤ h.toInt ∧ h.toInt ≤ 35)
    (h₁ : -32733 ≤ c.toInt) (h₂ : c.toInt ≤ 32617) :
    (c + r + k - h).toInt = c.toInt + r.toInt + k.toInt - h.toInt := by
  have hbmod (x : Int) (h₁ : -32768 ≤ x) (h₂ : x ≤ 32767) : x.bmod (2 ^ 16) = x :=
    Int.bmod_eq_of_le (by omega) (by omega)
  rw [BitVec.toInt_sub, BitVec.toInt_add, BitVec.toInt_add,
    hbmod (c.toInt + r.toInt) (by omega) (by omega),
    hbmod (c.toInt + r.toInt + k.toInt) (by omega) (by omega), hbmod _ (by omega) (by omega)]

theorem toInt_accounting (c : BitVec 16) (raised sticky sent : Bool) (p : Nat)
    (h₁ : -32733 ≤ c.toInt) (h₂ : c.toInt ≤ 32617) :
    (c + (if raised then 100 else 0) + (if sticky then 50 else 0)
        - (if sent then (if p < 16 then 35 else 25) else 0)).toInt
      = c.toInt + (if raised then 100 else 0) + (if sticky then 50 else 0)
        - (if sent then (if p < 16 then 35 else 25) else 0) := by
  rw [toInt_offsets (by cases raised <;> decide) (by cases sticky <;> decide) ?_ h₁ h₂]
  · cases raised <;> cases sticky <;> cases sent <;> by_cases hp : p < 16 <;> simp [hp]
  · cases sent <;> by_cases hp : p < 16 <;> simp [hp]

/--
**Threshold accounting.** In every run after a calibration in which no tick begins or ends standby
between a load and its store, every threshold of a velocity pad is the calibrated one with the
offsets that are in force. The thresholds are words; where the calibrated one leaves room for the
offsets the equation holds of the numbers.
-/
theorem threshold_accounting {s₀ s : Firmware} {codes : Nat → Nat} {sched : Sched Input}
    (hcal : calibrate.run avr sched s₀ = some (codes, s))
    (hraised : s.standby.thresholdsRaised = false) {t : Firmware}
    (hrun : Relation.ReflTransGen (QuietStep calmAvr) s t) {p : Nat} (hp : p < 40) :
    t.standby.initVal p = s.standby.initVal p + (if t.standby.thresholdsRaised then 100 else 0)
        + (if t.pads.antiStickyApplied p then 50 else 0)
        - (if t.pads.velocitySent p then (if p < 16 then 35 else 25) else 0) ∧
      (-32733 ≤ (s.standby.initVal p).toInt → (s.standby.initVal p).toInt ≤ 32617 →
        (t.standby.initVal p).toInt = (s.standby.initVal p).toInt
          + (if t.standby.thresholdsRaised then 100 else 0)
          + (if t.pads.antiStickyApplied p then 50 else 0)
          - (if t.pads.velocitySent p then (if p < 16 then 35 else 25) else 0)) := by
  have hcalibrated := calibrate_spec.run scanView_sound hcal
  have hp48 : p < numPads := Nat.lt_trans hp (by decide)
  have hsent : s.pads.velocitySent p = false := hcalibrated.sent p hp48
  have hsticky : s.pads.antiStickyApplied p = false := hcalibrated.sticky p hp48
  have hbalanced := balanced_of_run hrun p hp
  have hword : t.standby.initVal p
      = s.standby.initVal p + (if t.standby.thresholdsRaised then 100 else 0)
        + (if t.pads.antiStickyApplied p then 50 else 0)
        - (if t.pads.velocitySent p then (if p < 16 then 35 else 25) else 0) := by
    simp only [net, offset, thresholdView, Standby.base, Standby.raised, hp, if_true, hsent,
      hsticky, hraised, hysterisisAdjust, Bool.false_eq_true, if_false] at hbalanced
    grind
  exact ⟨hword, fun h₁ h₂ => hword ▸ toInt_accounting _ _ _ _ p h₁ h₂⟩

def freshlyCalibrated : (Nat → Nat) × Firmware := calibrate.exec (fun _ => Input.quiet) powerOn

theorem freshlyCalibrated_run :
    calibrate.run avr (calibrate.steady (fun _ => Input.quiet) powerOn) powerOn
      = some (freshlyCalibrated.1, freshlyCalibrated.2) :=
  run_steady_mk avr (fun _ => Input.quiet) (fun _ => rfl) calibrate powerOn

theorem freshlyCalibrated_state : freshlyCalibrated.2.pads.anyPlayed = false ∧
    freshlyCalibrated.2.usb.deviceState ≠ .configured ∧
    freshlyCalibrated.2.usb.bank .midiOut = none ∧ freshlyCalibrated.2.standby.count = 0 ∧
    freshlyCalibrated.2.standby.thresholdsRaised = false ∧
    freshlyCalibrated.2.cpu.iflag = true := by
  decide +kernel

/-- A strike right after a calibration. -/
def firstStrike : Outcome × Firmware := iteration 0 firstPadPressed freshlyCalibrated.2

theorem firstStrike_step : QuietStep calmAvr freshlyCalibrated.2 firstStrike.2 := by
  have hrun : (scanPad 0).run calmAvr ((scanPad 0).steady firstPadPressed freshlyCalibrated.2)
      freshlyCalibrated.2 = some (firstStrike.1, firstStrike.2) :=
    run_steady_mk calmAvr firstPadPressed (fun _ => rfl) (scanPad 0) _
  have hreset : firstStrike.1.recalibrated = none := by
    unfold firstStrike
    exact iteration_recalibrated 0 firstPadPressed freshlyCalibrated.2 fun _ => rfl
  exact .iteration 0 _ hrun hreset

theorem threshold_accounting_firstStrike :
    firstStrike.2.standby.initVal 0 = freshlyCalibrated.2.standby.initVal 0
        + (if firstStrike.2.standby.thresholdsRaised then 100 else 0)
        + (if firstStrike.2.pads.antiStickyApplied 0 then 50 else 0)
        - (if firstStrike.2.pads.velocitySent 0 then (if 0 < 16 then 35 else 25) else 0) :=
  (threshold_accounting freshlyCalibrated_run freshlyCalibrated_state.2.2.2.2.1
    (.single firstStrike_step) (by decide)).1

/-! ## A lost offset -/

/-- The state `n` ticks later if nothing is played, received or configured. -/
def idle (n : Nat) (s : Firmware) : Firmware :=
  { s with
    standby := { s.standby with count := s.standby.count + n }
    usb := { s.usb with selected := .midiOut }
    cpu := { s.cpu with iflag := true } }

theorem afterIrq_idle {env : Firmware → Input} (henv : ∀ s, (env s).tick = .quiet) {s : Firmware}
    (hplayed : s.pads.anyPlayed = false) (hcount : s.standby.count + 1 ≤ 20000)
    (hstate : s.usb.deviceState ≠ .configured) (hbank : s.usb.bank .midiOut = none) :
    afterIrq avr env s = idle 1 s := by
  have hbank' : Function.update s.usb.bank .midiOut none = s.usb.bank :=
    (Function.update_eq_self_iff).mpr hbank.symm
  simp [afterIrq, avr, timerHandler, midiRecieveUsbMidi, genericHIDTask, usbUSBTask,
    endpointSelectEndpoint, usbAct, endpointIsOUTReceived, henv, TickInput.quiet, standbyTick,
    Standby.tick, hplayed, hstate, Usb.select, Usb.receive, hbank, hbank', idle,
    show ¬20000 < s.standby.count + 1 by omega]

theorem afterIrqs_idle {env : Firmware → Input} (henv : ∀ s, (env s).tick = .quiet) {s : Firmware}
    (hplayed : s.pads.anyPlayed = false) (hstate : s.usb.deviceState ≠ .configured)
    (hbank : s.usb.bank .midiOut = none) {n : Nat} (hcount : s.standby.count + (n + 1) ≤ 20000) :
    afterIrqs avr env (n + 1) s = idle (n + 1) s := by
  induction n generalizing s with
  | zero => exact afterIrq_idle henv hplayed (by omega) hstate hbank
  | succ n ih =>
    have hcount' : (idle (n + 1) s).standby.count + 1 ≤ 20000 := by
      show s.standby.count + ((n + 1 : Nat) : Int) + 1 ≤ 20000
      omega
    rw [afterIrqs_succ, ih hplayed hstate hbank (by omega),
      afterIrq_idle (s := idle (n + 1) s) henv hplayed hcount' hstate hbank]
    simp only [idle, Firmware.mk.injEq, Standby.mk.injEq, true_and, and_true]
    omega

/-- Standby begins, at the tick 20001 after the calibration. -/
def inStandby : Firmware := afterIrq avr firstPadPressed (idle 20000 freshlyCalibrated.2)

/-- Main is between a load and its store. -/
def betweenLoadAndStore (s : Firmware) : Bool := s.cpu.loaded.isSome && s.cpu.iflag

/-- The iteration that ends standby, with the tick that does so before the store of the strike. -/
def offsetLost : Outcome × Firmware :=
  (scanPad 0).execIrq avr firstPadPressed betweenLoadAndStore inStandby

theorem offsetLost_run : ∃ sched,
    (scanPad 0).run avr sched freshlyCalibrated.2 = some (offsetLost.1, offsetLost.2) := by
  obtain ⟨hplayed, hstate, hbank, hcount, -, hflag⟩ := freshlyCalibrated_state
  have hidle (n : Nat) (hn : n + 1 ≤ 20000) :
      afterIrqs avr firstPadPressed (n + 1) freshlyCalibrated.2
        = idle (n + 1) freshlyCalibrated.2 :=
    afterIrqs_idle (fun _ => rfl) hplayed hstate hbank (by omega)
  have hraised : afterIrqs avr firstPadPressed (20000 + 1) freshlyCalibrated.2 = inStandby := by
    rw [afterIrqs_succ, hidle 19999 (by omega)]
    rfl
  refine ⟨irqs avr firstPadPressed (20000 + 1)
    ((scanPad 0).steadyIrq avr firstPadPressed betweenLoadAndStore) freshlyCalibrated.2, ?_⟩
  rw [Prod.mk.eta, run_irqs avr firstPadPressed (fun _ => rfl), hraised]
  · refine run_steadyIrq avr firstPadPressed (fun _ => rfl) (fun s hs => ?_) _ _
    exact (Bool.and_eq_true_iff.mp hs).2
  · intro k hk
    cases k with
    | zero =>
      rw [afterIrqs, avr_enabled, hflag]
    | succ k =>
      rw [hidle k (by omega)]
      rfl

theorem offsetLost_state : offsetLost.1.recalibrated = none ∧
    offsetLost.2.standby.initVal 0 ≠ freshlyCalibrated.2.standby.initVal 0
      + (if offsetLost.2.standby.thresholdsRaised then 100 else 0)
      + (if offsetLost.2.pads.antiStickyApplied 0 then 50 else 0)
      - (if offsetLost.2.pads.velocitySent 0 then (if 0 < 16 then 35 else 25) else 0) := by
  decide +kernel

/-- The threshold of pad 0 is then 100 too high for good. -/
theorem not_threshold_accounting :
    ¬∀ (s₀ s : Firmware) (codes : Nat → Nat) (sched : Sched Input),
      calibrate.run avr sched s₀ = some (codes, s) → s.standby.thresholdsRaised = false →
      ∀ t, Relation.ReflTransGen (QuietStep avr) s t → ∀ p < 40,
        t.standby.initVal p = s.standby.initVal p + (if t.standby.thresholdsRaised then 100 else 0)
          + (if t.pads.antiStickyApplied p then 50 else 0)
          - (if t.pads.velocitySent p then (if p < 16 then 35 else 25) else 0) := by
  intro h
  obtain ⟨sched, hrun⟩ := offsetLost_run
  obtain ⟨-, -, -, -, hraised, -⟩ := freshlyCalibrated_state
  have hstep : QuietStep avr freshlyCalibrated.2 offsetLost.2 :=
    .iteration 0 sched hrun offsetLost_state.1
  have hpad := h powerOn freshlyCalibrated.2 freshlyCalibrated.1 _ freshlyCalibrated_run hraised
    offsetLost.2 (.single hstep) 0 (by decide)
  exact offsetLost_state.2 hpad

end SphereWare
