import SphereWare.Spec.MainFrame
import SphereWare.Spec.ScanPad

/-!
# The pressures and their sum

Main keeps a pressure for every pad and adds it to `led_sum` when the pad is pressed. Interrupts
leave alone what this depends on (`pressureView`). A pressure is at most 511, so in a pass of 48
iterations the sum stays far below the 65536 at which it would wrap around.
-/

namespace SphereWare

open Interrupt Prog

/-! ## The view -/

structure PressureView where
  filtered : Nat → Int
  initValSe : Nat → Int
  hysterisis : Nat → Bool
  ledSum : Nat
  prevLedSum : Nat

def Pads.pressures (p : Pads) : PressureView :=
  ⟨p.filteredVal, p.initValSe, p.hysterisisApplied, p.ledSum, p.prevLedSum⟩

def pressureView (s : Firmware) : PressureView := s.pads.pressures

theorem pressureView_of_pads {s t : Firmware} (h : t.pads = s.pads) : SameOn pressureView s t := by
  simp only [SameOn, pressureView, h]

/-- **The timer interrupt changes no variable of the pads.** -/
theorem timerHandler_pads : timerHandler.Keeps (SameOn Firmware.pads) := by
  refine Keeps.mono (fun s t h => ?_) timerHandler_keeps
  simp only [SameOn, handlerView, Prod.mk.injEq] at h
  exact h.1

theorem timerHandler_pressure : timerHandler.Keeps (SameOn pressureView) :=
  Keeps.mono (fun _ _ h => pressureView_of_pads h) timerHandler_pads

theorem pads_sound : (Rely.ofView Firmware.pads).Sound avr :=
  Rely.ofView_sound (fun _ => rfl) (fun _ => rfl) timerHandler_pads

theorem pressureView_sound : (Rely.ofView pressureView).Sound avr :=
  Rely.ofView_sound (fun _ => rfl) (fun _ => rfl) timerHandler_pressure

variable {v : PressureView} {pad : Nat}

/-! ## Pads below 40 -/

/-- The pressure of a pad becomes `f` and is added to the sum. -/
def PressureView.add (v : PressureView) (pad : Nat) (f : Int) : PressureView :=
  { v with
    filtered := Function.update v.filtered pad f
    ledSum := ((v.ledSum + f) % 65536).toNat }

/-- One pressure, of at most 511, has been added. -/
def Adds (pad : Nat) (v w : PressureView) : Prop := ∃ f, 0 ≤ f ∧ f ≤ 511 ∧ w = v.add pad f

theorem hidAct_pressure (f : Firmware → Hid) :
    (act fun s => { s with hid := f s } : Code Unit).Keeps (SameOn pressureView) :=
  Keeps.act fun _ => rfl

theorem peakLoop_le (pad n : Nat) (p : Int) :
    Spec avr pressureView v (peakLoop pad n p) fun r w => w = v ∧ p ≤ r.1 := by
  induction n generalizing p with
  | zero => exact Spec.ret ⟨rfl, le_refl p⟩
  | succ n ih =>
    refine Spec.keeps_bind (sampleVelocityPad_keeps (fun _ _ => rfl) pad) fun x => ?_
    refine Spec.bind (ih _) ?_
    rintro r w ⟨rfl, hr⟩
    refine Spec.ret ⟨rfl, le_trans ?_ hr⟩
    split
    · next hlt => exact hlt.le
    · exact le_refl p

/-- A pad that is set to `f` and then added to the sum. -/
theorem addLedSum_pressure (f : Int) (hf : v.filtered pad = f) :
    Spec avr pressureView v (padsAct fun p => p.addLedSum pad) fun _ w => w = v.add pad f := by
  refine Spec.map (fun v => { v with ledSum := ((v.ledSum + v.filtered pad) % 65536).toNat })
    (fun _ => rfl) ?_
  rw [PressureView.add, ← hf, Function.update_eq_self]

theorem adjustInitVal_pressure (pad : Nat) (d : BitVec 16) :
    (adjustInitVal pad d).Keeps (SameOn pressureView) :=
  Keeps.bind (Keeps.act fun _ => rfl) fun _ => Keeps.act fun _ => rfl

theorem strike_pressure {val : Int} (hval : 0 < val) :
    Spec avr pressureView v (strike pad val) fun _ w => Adds pad v w := by
  refine Spec.bind (peakLoop_le pad 200 val) ?_
  rintro r w ⟨rfl, hr⟩
  obtain ⟨hvel₀, hvel₁⟩ := velocityOf_range (le_trans hval.le hr)
  refine Spec.keeps_bind (critical_keeps (fun _ _ _ => rfl) ?_) fun _ => ?_
  · exact Keeps.bind (hidAct_pressure _) fun _ => Keeps.act fun _ => rfl
  refine Spec.keeps_bind (Keeps.act fun _ => rfl) fun _ => ?_
  refine Spec.map_bind
    (fun v => { v with filtered := Function.update v.filtered pad (velocityOf r.1) })
    (fun _ => rfl) ?_
  refine Spec.bind (addLedSum_pressure _ (Function.update_self _ _ _)) ?_
  rintro - u rfl
  refine Spec.keeps_bind (adjustInitVal_pressure _ _) fun _ => Spec.ret ?_
  refine ⟨velocityOf r.1, hvel₀, by omega, ?_⟩
  simp only [PressureView.add, Function.update_idem]

/-- The anti-sticky branch sets the pressure to its maximum. -/
theorem antiSticky_pressure : Spec avr pressureView v (antiSticky pad) fun _ w =>
    w = { v with filtered := Function.update v.filtered pad 511 } := by
  unfold antiSticky
  refine Spec.map_bind (fun v => { v with filtered := Function.update v.filtered pad 511 })
    (fun _ => rfl) ?_
  refine Spec.keeps_bind (Keeps.atomic fun _ _ => rfl) fun applied => ?_
  refine Spec.when (fun _ => Spec.keeps (critical_keeps (fun _ _ _ => rfl) ?_) fun _ => rfl)
    fun _ => rfl
  exact Keeps.bind (Keeps.act fun _ => rfl) fun _ => Keeps.act fun _ => rfl

theorem pressureUpdate_pressure {val : Int} (hval : 0 < val) (hfiltered : 0 ≤ v.filtered pad) :
    Spec avr pressureView v (pressureUpdate pad val) fun _ w => Adds pad v w := by
  obtain ⟨hf₀, hf₁⟩ := nextPressure_range hfiltered hval
  unfold pressureUpdate
  refine Spec.map_bind (fun v =>
    { v with filtered := Function.update v.filtered pad (filter (v.filtered pad) val) })
    (fun _ => rfl) ?_
  refine Spec.read_bind (filter (v.filtered pad) val) (fun t ht => ?_) ?_
  · rw [show t.pads.filteredVal = _ from congrArg PressureView.filtered ht]
    exact Function.update_self _ _ _
  refine Spec.bind (Q := fun _ w => w = { v with
    filtered := Function.update v.filtered pad (nextPressure (v.filtered pad) val) })
    (Spec.when (fun h => Spec.mono antiSticky_pressure ?_) fun h => ?_) ?_
  · rintro - w rfl
    simp only [Function.update_idem, nextPressure, min_eq_left h]
  · rw [nextPressure, min_eq_right (by omega)]
  · rintro - w rfl
    refine Spec.keeps_bind (critical_keeps (fun _ _ _ => rfl) ?_) fun _ => ?_
    · exact Keeps.bind (hidAct_pressure _) fun _ => Keeps.act fun _ => rfl
    refine Spec.mono (addLedSum_pressure _ (Function.update_self _ _ _)) ?_
    rintro - w rfl
    refine ⟨_, hf₀, hf₁, ?_⟩
    simp only [PressureView.add, Function.update_idem]

theorem pressureView_stickyTimeout (pad : Nat) (s : Firmware) :
    SameOn pressureView s (stickyTimeout pad s) := by
  obtain ⟨applied, count, h⟩ := scanView_stickyTimeout pad s
  have hpads : (stickyTimeout pad s).pads
      = { s.pads with antiStickyApplied := applied, stickyCount := count } :=
    congrArg ScanView.pads h
  rw [SameOn, pressureView, hpads]
  rfl

theorem release_pressure (pad : Nat) : (release pad).Keeps (SameOn pressureView) := by
  refine Keeps.bind (critical_keeps (fun _ _ _ => rfl) ?_) fun _ => ?_
  · refine Keeps.bind (Keeps.act fun s => pressureView_stickyTimeout pad s) fun _ => ?_
    exact Keeps.bind (hidAct_pressure _) fun _ => Keeps.act fun _ => rfl
  · exact Keeps.bind (Keeps.act fun _ => rfl) fun _ => adjustInitVal_pressure _ _

theorem scanVelocityPad_pressure (hfiltered : 0 ≤ v.filtered pad) :
    Spec avr pressureView v (scanVelocityPad pad) fun _ w => w = v ∨ Adds pad v w := by
  refine Spec.keeps_bind (sampleVelocityPad_keeps (fun _ _ => rfl) pad) fun x => ?_
  refine Spec.keeps_bind (Keeps.atomic fun _ _ => rfl) fun sent => ?_
  refine Spec.ite (fun hval => Spec.ite (fun _ => ?_) fun _ => ?_) fun _ =>
    Spec.ite (fun _ => ?_) fun _ => Spec.ret (.inl rfl)
  · exact Spec.bind (pressureUpdate_pressure hval hfiltered) fun _ w hw => Spec.ret (.inr hw)
  · exact Spec.bind (strike_pressure hval) fun _ w hw => Spec.ret (.inr hw)
  · exact Spec.keeps_bind (release_pressure pad) fun _ => Spec.ret (.inl rfl)

/-! ## Single-ended pads -/

/-- The threshold of a single-ended pad without its hysteresis offset. -/
def PressureView.rest (v : PressureView) (p : Nat) : Int :=
  v.initValSe p - if v.hysterisis p then 10 else 0

/-- A reading of a single-ended pad, less 40. -/
def PressureView.Calm (v : PressureView) (p : Nat) : Prop := -40 ≤ v.rest p ∧ v.rest p ≤ 983

theorem adcResult_singleEnded (raw : BitVec 10) :
    0 ≤ adcResult .singleEnded raw ∧ adcResult .singleEnded raw ≤ 1023 := by
  have hraw := raw.isLt
  have hor : raw.toNat % 256 ||| (raw.toNat / 256) <<< 8 < 2 ^ 10 :=
    Nat.or_lt_two_pow (by omega) (by rw [Nat.shiftLeft_eq]; omega)
  have hmode : adcResult .singleEnded raw
      = ((raw.toNat % 256 ||| (raw.toNat / 256) <<< 8 : Nat) : Int) := by
    unfold adcResult
    dsimp only
    rw [if_neg fun h => absurd h.1 (by decide)]
  omega

theorem adcRead_pressure (chan : AdcChannel) :
    Spec avr pressureView v (adcRead .singleEnded chan) fun a w => w = v ∧ 0 ≤ a ∧ a ≤ 1023 := by
  refine Spec.keeps_bind (Keeps.act fun _ => rfl) fun _ => ?_
  refine Spec.atomic_bind fun i t ht => Spec.ret ⟨ht, adcResult_singleEnded i.adc⟩

/-- A press or a release leaves the thresholds without offsets alone. -/
structure SameRest (v w : PressureView) : Prop where
  rest : ∀ p, w.rest p = v.rest p
  filtered : w.filtered = v.filtered
  ledSum : w.ledSum = v.ledSum
  prevLedSum : w.prevLedSum = v.prevLedSum

theorem hysterisisOn_pressure (hv : v.Calm pad) (happlied : v.hysterisis pad = false) :
    SameRest v { v with
      initValSe := Function.update v.initValSe pad (i16 (v.initValSe pad + 10))
      hysterisis := Function.update v.hysterisis pad true } := by
  refine ⟨fun p => ?_, rfl, rfl, rfl⟩
  by_cases hp : p = pad
  · subst hp
    simp only [PressureView.Calm, PressureView.rest, happlied, Bool.false_eq_true, if_false] at hv
    simp only [PressureView.rest, Function.update_self, happlied, if_true, Bool.false_eq_true,
      if_false, i16]
    omega
  · simp only [PressureView.rest, Function.update_of_ne hp]

theorem hysterisisOff_pressure (hv : v.Calm pad) (happlied : v.hysterisis pad = true) :
    SameRest v { v with
      initValSe := Function.update v.initValSe pad (i16 (v.initValSe pad - 10))
      hysterisis := Function.update v.hysterisis pad false } := by
  refine ⟨fun p => ?_, rfl, rfl, rfl⟩
  by_cases hp : p = pad
  · subst hp
    simp only [PressureView.Calm, PressureView.rest, happlied, if_true] at hv
    simp only [PressureView.rest, Function.update_self, happlied, if_true, Bool.false_eq_true,
      if_false, i16]
    omega
  · simp only [PressureView.rest, Function.update_of_ne hp]

theorem singleEndedPress_pressure (hv : v.Calm pad) (hfiltered : 0 ≤ v.filtered pad) {val : Int}
    (hval₀ : 0 < val) (hval₁ : val ≤ 993) :
    Spec avr pressureView v (singleEndedPress pad val) fun _ w =>
      ∃ u, SameRest v u ∧ Adds pad u w := by
  have hdouble : i16 (val * 2) = val * 2 := by
    unfold i16
    omega
  obtain ⟨hf₀, hf₁⟩ := nextPressure_range hfiltered (show 0 < val * 2 by omega)
  unfold singleEndedPress
  refine Spec.read_bind (v.hysterisis pad) (by rintro t rfl; rfl) ?_
  refine Spec.bind (Q := fun _ u => SameRest v u) (Spec.when (fun happlied => ?_) fun _ => ?_) ?_
  · refine Spec.map_bind (fun v =>
      { v with initValSe := Function.update v.initValSe pad (i16 (v.initValSe pad + 10)) })
      (fun _ => rfl) ?_
    refine Spec.map (fun v => { v with hysterisis := Function.update v.hysterisis pad true })
      (fun _ => rfl) ?_
    exact hysterisisOn_pressure hv (by simpa using happlied)
  · exact ⟨fun _ => rfl, rfl, rfl, rfl⟩
  intro _ u hu
  refine Spec.bind (Q := fun _ w => w = { u with
    filtered := Function.update u.filtered pad (nextPressure (v.filtered pad) (val * 2)) })
    (spec_critical_of (fun _ _ _ => rfl) ?_) ?_
  · refine Spec.map_bind (fun v => { v with
      filtered := Function.update v.filtered pad (filter (v.filtered pad) (i16 (val * 2))) })
      (fun _ => rfl) ?_
    rw [hdouble, hu.filtered]
    refine Spec.read_bind (filter (v.filtered pad) (val * 2)) (fun t ht => ?_) ?_
    · rw [show t.pads.filteredVal = _ from congrArg PressureView.filtered ht]
      exact Function.update_self _ _ _
    refine Spec.bind (Q := fun _ w => w = { u with
      filtered := Function.update v.filtered pad (nextPressure (v.filtered pad) (val * 2)) })
      (Spec.when (fun h => ?_) fun h => ?_) ?_
    · refine Spec.map (fun v => { v with filtered := Function.update v.filtered pad 511 })
        (fun _ => rfl) ?_
      simp only [Function.update_idem, nextPressure, min_eq_left h]
    · rw [nextPressure, min_eq_right (by omega)]
    · rintro - w rfl
      exact Spec.keeps_bind (hidAct_pressure _) fun _ => Spec.keeps (Keeps.act fun _ => rfl)
        fun _ => rfl
  · rintro - w rfl
    refine Spec.mono (addLedSum_pressure _ (Function.update_self _ _ _)) ?_
    rintro - w rfl
    refine ⟨u, hu, _, hf₀, hf₁, ?_⟩
    simp only [PressureView.add, Function.update_idem]

theorem singleEndedRelease_pressure (hv : v.Calm pad) :
    Spec avr pressureView v (singleEndedRelease pad) fun _ w => SameRest v w := by
  unfold singleEndedRelease
  refine Spec.read_bind (v.hysterisis pad) (by rintro t rfl; rfl) ?_
  refine Spec.bind (Q := fun _ u => SameRest v u) (Spec.when (fun happlied => ?_) fun _ => ?_) ?_
  · refine Spec.map_bind (fun v =>
      { v with initValSe := Function.update v.initValSe pad (i16 (v.initValSe pad - 10)) })
      (fun _ => rfl) ?_
    refine Spec.map (fun v => { v with hysterisis := Function.update v.hysterisis pad false })
      (fun _ => rfl) ?_
    exact hysterisisOff_pressure hv happlied
  · exact ⟨fun _ => rfl, rfl, rfl, rfl⟩
  intro _ u hu
  refine Spec.keeps (critical_keeps (fun _ _ _ => rfl) ?_) fun _ => hu
  exact Keeps.bind (hidAct_pressure _) fun _ => Keeps.act fun _ => rfl

theorem scanPressurePad_pressure (hv : v.Calm pad) (hfiltered : 0 ≤ v.filtered pad) :
    Spec avr pressureView v (scanPressurePad pad) fun _ w =>
      ∃ u, SameRest v u ∧ (w = u ∨ Adds pad u w) := by
  refine Spec.read_bind (v.initValSe pad) (by rintro t rfl; rfl) ?_
  refine Spec.bind (adcRead_pressure _) ?_
  rintro a w ⟨rfl, ha₀, ha₁⟩
  have hval : i16 (w.initValSe pad - a) ≤ 993 := by
    have hse : -40 ≤ w.initValSe pad ∧ w.initValSe pad ≤ 993 := by
      unfold PressureView.Calm PressureView.rest at hv
      split at hv <;> omega
    unfold i16
    omega
  refine Spec.ite (fun hpos => ?_) fun _ => ?_
  · refine Spec.bind (singleEndedPress_pressure hv hfiltered hpos hval) fun _ x hx => ?_
    obtain ⟨u, hu, hadds⟩ := hx
    exact Spec.ret ⟨u, hu, .inr hadds⟩
  · exact Spec.bind (singleEndedRelease_pressure hv) fun _ u hu => Spec.ret ⟨u, hu, .inl rfl⟩

/-! ## Invariant -/

/-- What holds of the pressures and of the thresholds of the single-ended pads. -/
structure Pressures (v : PressureView) : Prop where
  filtered : ∀ p < numPads, 0 ≤ v.filtered p ∧ v.filtered p ≤ 511
  calm : ∀ p < numPads, 40 ≤ p → v.Calm p

theorem SameRest.pressures {w : PressureView} (h : SameRest v w) (hv : Pressures v) :
    Pressures w where
  filtered p hp := h.filtered ▸ hv.filtered p hp
  calm p hp h40 := by
    rw [PressureView.Calm, h.rest]
    exact hv.calm p hp h40

theorem Adds.pressures {w : PressureView} (h : Adds pad v w) (hv : Pressures v) : Pressures w := by
  obtain ⟨f, hf₀, hf₁, rfl⟩ := h
  refine ⟨fun p hp => ?_, hv.calm⟩
  by_cases hpad : p = pad
  · simp only [PressureView.add, hpad, Function.update_self]
    exact ⟨hf₀, hf₁⟩
  · simp only [PressureView.add, Function.update_of_ne hpad]
    exact hv.filtered p hp

/-- An iteration adds at most one pressure, and the sum does not wrap around. -/
structure Summed (v w : PressureView) : Prop where
  pressures : Pressures w
  prevLedSum : w.prevLedSum = v.prevLedSum
  ledSum : w.ledSum = v.ledSum ∨
    ∃ pad < numPads, w.filtered pad ≤ 511 ∧ (w.ledSum : Int) = v.ledSum + w.filtered pad

theorem Adds.summed {w : PressureView} (h : Adds pad v w) (hpad : pad < numPads) (hv : Pressures v)
    (hsum : v.ledSum + 511 < 65536) : Summed v w := by
  refine ⟨h.pressures hv, ?_, ?_⟩
  · obtain ⟨f, -, -, rfl⟩ := h
    rfl
  · obtain ⟨f, hf₀, hf₁, rfl⟩ := h
    refine .inr ⟨pad, hpad, ?_, ?_⟩
    · simp only [PressureView.add, Function.update_self]
      exact hf₁
    · simp only [PressureView.add, Function.update_self]
      omega

theorem SameRest.summed {u w : PressureView} (h : SameRest v u) (hw : Summed u w) :
    Summed v w where
  pressures := hw.pressures
  prevLedSum := hw.prevLedSum.trans h.prevLedSum
  ledSum := h.ledSum ▸ hw.ledSum

theorem Pressures.summed (hv : Pressures v) : Summed v v := ⟨hv, rfl, .inl rfl⟩

theorem scanSelected_pressure (hpad : pad < numPads) (hv : Pressures v)
    (hsum : v.ledSum + 511 < 65536) :
    Spec avr pressureView v (scanSelected pad) fun _ w => Summed v w := by
  obtain ⟨hfiltered, -⟩ := hv.filtered pad hpad
  refine Spec.ite (fun _ => ?_) fun h40 => ?_
  · refine Spec.mono (scanVelocityPad_pressure hfiltered) ?_
    rintro - w (rfl | hadds)
    · exact hv.summed
    · exact hadds.summed hpad hv hsum
  · refine Spec.mono (scanPressurePad_pressure (hv.calm pad hpad (by omega)) hfiltered) ?_
    rintro - w ⟨u, hu, rfl | hadds⟩
    · exact hu.summed (hu.pressures hv).summed
    · exact hu.summed (hadds.summed hpad (hu.pressures hv) (by rw [hu.ledSum]; exact hsum))

/-! ## Calibration -/

/-- The sums are the same. -/
def SameSums (v w : PressureView) : Prop := w.ledSum = v.ledSum ∧ w.prevLedSum = v.prevLedSum

theorem pressureView_biases : Biases (SameOn pressureView) where
  iflag _ _ := rfl
  mux _ _ := rfl
  r2r _ _ := rfl
  adc _ _ := rfl
  order _ _ _ := rfl
  threshold _ _ := rfl

theorem calibrateVelocityPad_pressure (pad : Nat) :
    Spec avr pressureView v (calibrateVelocityPad pad) fun _ w =>
      w = { v with filtered := Function.update v.filtered pad 0 } := by
  refine Spec.keeps_bind (Keeps.act fun _ => rfl) fun _ => ?_
  refine Spec.keeps_bind (Keeps.act fun _ => rfl) fun _ => ?_
  refine Spec.keeps_bind (delay_keeps (fun _ _ => rfl) pad) fun _ => ?_
  refine Spec.map_bind (fun v => { v with filtered := Function.update v.filtered pad 0 })
    (fun _ => rfl) ?_
  refine Spec.keeps_bind (pressureView_biases.findBias_keeps pad _) fun _ => ?_
  exact Spec.keeps (Keeps.act fun _ => rfl) fun _ => rfl

theorem calibratePressurePad_pressure (pad : Nat) :
    Spec avr pressureView v (calibratePressurePad pad) fun _ w => ∃ se, -40 ≤ se ∧ se ≤ 983 ∧
      w = { v with initValSe := Function.update v.initValSe pad se } := by
  refine Spec.keeps_bind (Keeps.act fun _ => rfl) fun _ => ?_
  refine Spec.keeps_bind (delay_keeps (fun _ _ => rfl) pad) fun _ => Spec.bind (adcRead_pressure _) ?_
  rintro a w ⟨rfl, ha₀, ha₁⟩
  refine Spec.map_bind
    (fun v => { v with initValSe := Function.update v.initValSe pad (i16 (a - 40)) })
    (fun _ => rfl) ?_
  refine Spec.keeps (Keeps.act fun _ => rfl) fun _ => ⟨_, ?_, ?_, rfl⟩
  · unfold i16
    omega
  · unfold i16
    omega

/-- The thresholds of the single-ended pads are readings, less 40. -/
def Rested (n : Nat) (v : PressureView) : Prop :=
  ∀ p < n, 40 ≤ p → -40 ≤ v.initValSe p ∧ v.initValSe p ≤ 983

theorem calibrateThresholds_pressure :
    Spec avr pressureView v (forEach (List.range' 40 8) calibratePressurePad) fun _ w =>
      Rested numPads w ∧ SameSums v w := by
  refine Spec.forEach_range' (fun n w => Rested n w ∧ SameSums v w) (fun pad h40 _ w hw => ?_)
    ⟨fun p hp h40 => by omega, rfl, rfl⟩
  refine Spec.mono (calibratePressurePad_pressure pad) ?_
  rintro - u ⟨se, hlow, hhigh, rfl⟩
  refine ⟨fun p hp hp40 => ?_, hw.2⟩
  by_cases hpad : p = pad
  · simp only [hpad, Function.update_self]
    exact ⟨hlow, hhigh⟩
  · simp only [Function.update_of_ne hpad]
    exact hw.1 p (by omega) hp40

/-- The end of `Calibrate` zeroes the pressures and takes the hysteresis offsets off. -/
theorem calibrateReset_pressure (hv : Rested numPads v) :
    Spec avr pressureView v calibrateReset fun _ w => Pressures w ∧ SameSums v w := by
  refine Spec.keeps_bind (genericHIDClear_keeps fun _ _ _ _ => rfl) fun _ => ?_
  refine Spec.keeps_bind (Keeps.act fun _ => rfl) fun _ => ?_
  refine Spec.keeps_bind (Keeps.act fun _ => rfl) fun _ => ?_
  refine Spec.map_bind (fun v => { v with hysterisis := zeroed v.hysterisis numPads false })
    (fun _ => rfl) ?_
  refine Spec.keeps_bind (Keeps.act fun _ => rfl) fun _ => ?_
  refine Spec.map (fun v => { v with filtered := zeroed v.filtered numPads 0 }) (fun _ => rfl) ?_
  refine ⟨⟨fun p hp => ?_, fun p hp h40 => ?_⟩, rfl, rfl⟩
  · simp only [zeroed, hp, if_true]
    decide
  · simp only [PressureView.Calm, PressureView.rest, zeroed, hp, if_true, Bool.false_eq_true,
      if_false, sub_zero]
    exact hv p hp h40

theorem Pads.pressures_bubbleSort (p : Pads) (arraySize : Nat) :
    (p.bubbleSort arraySize).pressures = p.pressures := rfl

theorem calibrate_pressure :
    Spec avr pressureView v calibrate fun _ w => Pressures w ∧ SameSums v w := by
  refine Spec.bind (Spec.forEach (I := fun w => SameSums v w) (fun pad _ w hw => ?_) ⟨rfl, rfl⟩)
    fun _ w hw => ?_
  · refine Spec.mono (calibrateVelocityPad_pressure pad) ?_
    rintro - u rfl
    exact hw
  refine Spec.bind calibrateThresholds_pressure fun _ u hu => ?_
  refine Spec.keeps_bind (Keeps.atomic fun _ _ => rfl) fun codes => ?_
  refine Spec.keeps_bind (Keeps.act fun s => s.pads.pressures_bubbleSort 40) fun _ => ?_
  refine Spec.bind (calibrateReset_pressure hu.1) fun _ x hx => Spec.ret ⟨hx.1, ?_⟩
  exact ⟨hx.2.1.trans (hu.2.1.trans hw.1), hx.2.2.trans (hu.2.2.trans hw.2)⟩

/-! ## Iterations -/

theorem pressureView_approaches : Approaches (SameOn pressureView) where
  iflag _ _ := rfl
  mux _ _ := rfl
  r2r _ _ := rfl
  region _ _ _ := rfl
  elite _ _ _ _ := rfl

theorem resetButton_pressure (hv : Pressures v) :
    Spec avr pressureView v resetButton fun _ w => Pressures w ∧ SameSums v w := by
  refine Spec.keeps_bind (Keeps.atomic fun _ _ => rfl) fun up => Spec.ite (fun _ => ?_) fun _ => ?_
  · exact Spec.keeps_bind (Keeps.act fun _ => rfl) fun _ => Spec.ret ⟨hv, rfl, rfl⟩
  · refine Spec.keeps_bind (Keeps.act fun _ => rfl) fun _ => ?_
    refine Spec.bind (spec_critical_of (fun _ _ _ => rfl) ?_) fun _ w hw => Spec.ret hw
    exact Spec.keeps_bind (Keeps.act fun _ => rfl) fun _ => calibrate_pressure

theorem SameSums.summed {u w : PressureView} (h : SameSums v u) (hw : Summed u w) :
    Summed v w where
  pressures := hw.pressures
  prevLedSum := hw.prevLedSum.trans h.2
  ledSum := h.1 ▸ hw.ledSum

theorem scanRest_pressure (i : Nat) (hpad : pad < numPads) (hv : Pressures v)
    (hsum : v.ledSum + 511 < 65536) :
    Spec avr pressureView v (scanRest i pad) fun _ w => Summed v w :=
  pressureView_approaches.scanRest_spec i (scanSelected_pressure hpad hv hsum)

/-- **An iteration adds at most one pressure to the sum.** -/
theorem scanPad_pressure {p : Pads} {i : Nat} (hpad : p.padOrder i < numPads)
    (hv : Pressures p.pressures) (hsum : p.ledSum + 511 < 65536) :
    Spec avr Firmware.pads p (scanPad i) fun _ q => Summed p.pressures q.pressures := by
  refine Spec.read_bind (p.padOrder i) (by rintro t rfl; rfl) ?_
  have hpart (s : Firmware) : pressureView s = Pads.pressures s.pads := rfl
  refine Spec.of_part hpart (Spec.bind (resetButton_pressure hv) fun _ u hu => ?_)
  refine Spec.bind (scanRest_pressure i hpad hu.1 (by rw [hu.2.1]; exact hsum)) fun _ w hw => ?_
  exact Spec.ret (hu.2.summed hw)

end SphereWare
