import SphereWare.Spec.Sticky

/-!
# Constant readings

While the converter keeps to one reading and the reset button is up, the reading and the threshold
decide on the deflection of a velocity pad, and the deflection on the branch (`scanPad_held`).
-/

namespace SphereWare

open Interrupt Prog

/-- The converter gives the reading, and the reset button is up. -/
def held (raw : BitVec 10) : Machine Firmware Input :=
  { avr with admits := fun _ i => i.adc == raw && i.pinE2 }

/-- The reading, and nothing else happens. -/
def heldInput (raw : BitVec 10) (_ : Firmware) : Input := { Input.quiet with adc := raw }

theorem held_admits (raw : BitVec 10) (s : Firmware) :
    (held raw).admits s (heldInput raw s) = true := by
  simp [held, heldInput, Input.quiet]

/-- What decides on the deflection and the branch, and what the pressure branch makes of it. -/
structure HeldView where
  initVal : Nat → BitVec 16
  sent : Nat → Bool
  applied : Nat → Bool
  filtered : Nat → Int

def heldView (s : Firmware) : HeldView :=
  ⟨s.standby.initVal, s.pads.velocitySent, s.pads.antiStickyApplied, s.pads.filteredVal⟩

variable {raw : BitVec 10} {v : HeldView} {pad : Nat}

/-- The deflection of a pad at the reading. -/
def HeldView.deflection (v : HeldView) (raw : BitVec 10) (pad : Nat) : Int :=
  i16 (-adcResult .diff1X10 raw - (v.initVal pad).toInt)

theorem sampleVelocityPad_held : Spec (held raw) heldView v (sampleVelocityPad pad) fun x w =>
    x.val = v.deflection raw pad ∧ w = v := by
  refine Spec.keeps_bind (Keeps.atomic fun _ _ => rfl) fun dac => ?_
  refine Spec.bind (Q := fun a w => a = adcResult .diff1X10 raw ∧ w = v) ?_ ?_
  · refine Spec.act_bind v (fun t ht => ht) (Spec.atomic_bind_of_admits ?_)
    rintro i t rfl hi
    have hadc : i.adc = raw := eq_of_beq (Bool.and_eq_true_iff.mp hi).1
    refine Spec.ret ⟨?_, rfl⟩
    rw [← hadc]
  · rintro a w ⟨rfl, rfl⟩
    exact Spec.read_bind (w.initVal pad) (by rintro t rfl; rfl) (Spec.ret ⟨rfl, rfl⟩)

/-- What the pressure branch makes of the pressure and of the offset. -/
structure PressureStep (pad : Nat) (val : Int) (v w : HeldView) : Prop where
  applied : w.applied pad = (v.applied pad || decide (511 ≤ filter (v.filtered pad) val))
  filtered : w.filtered pad = min 511 (filter (v.filtered pad) val)

theorem pressureUpdate_held (val : Int) : Spec (held raw) heldView v (pressureUpdate pad val)
    fun _ w => PressureStep pad val v w := by
  refine Spec.map_bind
    (fun v => { v with filtered := Function.update v.filtered pad (filter (v.filtered pad) val) })
    (fun _ => rfl) ?_
  refine Spec.read_bind (filter (v.filtered pad) val) (fun t ht => ?_) ?_
  · have hfiltered : t.pads.filteredVal = Function.update v.filtered pad _ :=
      congrArg HeldView.filtered ht
    rw [hfiltered, Function.update_self]
  refine Spec.bind (Q := fun _ w => PressureStep pad val v w) (Spec.when (fun hfull => ?_)
    fun hfull => ?_) fun _ w hw => ?_
  · refine Spec.map_bind (fun v => { v with filtered := Function.update v.filtered pad 511 })
      (fun _ => rfl) ?_
    refine Spec.read_bind (v.applied pad) (fun t ht => ?_) ?_
    · exact congrArg (fun w => HeldView.applied w pad) ht
    refine Spec.when (fun _ => ?_) fun happlied => ?_
    · refine spec_critical_of (fun _ _ _ => rfl) ?_
      refine Spec.map_bind (fun v => { v with
        initVal := Function.update v.initVal pad (v.initVal pad + 50) }) (fun _ => rfl) ?_
      refine Spec.map (fun v => { v with applied := Function.update v.applied pad true })
        (fun _ => rfl) ⟨?_, ?_⟩
      · simp [hfull]
      · simp [min_eq_left hfull]
    · have htrue : v.applied pad = true := by simpa using happlied
      constructor
      · simp [htrue]
      · simp [min_eq_left hfull]
  · constructor
    · simp [hfull]
    · simp [min_eq_right (Int.le_of_lt (Int.not_le.mp hfull))]
  · refine Spec.keeps_bind (critical_keeps (fun _ _ _ => rfl) ?_) fun _ => ?_
    · exact Keeps.bind (Keeps.act fun _ => rfl) fun _ => Keeps.act fun _ => rfl
    · exact Spec.keeps (Keeps.act fun _ => rfl) fun _ => hw

/-- What main does at a velocity pad with the deflection. -/
structure HeldStep (pad : Nat) (val : Int) (samples : List Sample) (event : PadEvent)
    (v w : HeldView) : Prop where
  sample : ∃ x rest, samples = x :: rest ∧ x.val = val ∧ (val ≤ 0 → rest = [])
  strike : 0 < val → v.sent pad = false → event = .strike
  pressure : 0 < val → v.sent pad = true → event = .pressure ∧ PressureStep pad val v w

theorem scanVelocityPad_held : Spec (held raw) heldView v (scanVelocityPad pad) fun r w =>
    HeldStep pad (v.deflection raw pad) r.1 r.2 v w := by
  refine Spec.bind sampleVelocityPad_held ?_
  rintro x w ⟨hx, rfl⟩
  refine Spec.read_bind (w.sent pad) (by rintro t rfl; rfl) ?_
  rw [← hx]
  refine Spec.ite (fun hval => Spec.ite (fun hsent => ?_) fun hsent => ?_)
    fun hval => Spec.ite (fun hsent => ?_) fun hsent => ?_
  · refine Spec.bind (pressureUpdate_held x.val) fun _ u hu => Spec.ret ?_
    exact ⟨⟨x, [], rfl, rfl, fun _ => rfl⟩, fun _ h => by simp [hsent] at h, fun _ _ => ⟨rfl, hu⟩⟩
  · refine Spec.bind Spec.top fun rest u _ => Spec.ret ?_
    exact ⟨⟨x, rest, rfl, rfl, fun h => absurd hval (by omega)⟩, fun _ _ => rfl,
      fun _ h => absurd h hsent⟩
  · refine Spec.bind Spec.top fun _ u _ => Spec.ret ?_
    exact ⟨⟨x, [], rfl, rfl, fun _ => rfl⟩, fun h => absurd h hval, fun h => absurd h hval⟩
  · refine Spec.ret ?_
    exact ⟨⟨x, [], rfl, rfl, fun _ => rfl⟩, fun h => absurd h hval, fun h => absurd h hval⟩

theorem heldView_approaches : Approaches (SameOn heldView) where
  iflag _ _ := rfl
  mux _ _ := rfl
  r2r _ _ := rfl
  region _ _ _ := rfl
  elite _ _ _ _ := rfl

theorem resetButton_held : Spec (held raw) heldView v resetButton fun codes w =>
    codes = none ∧ w = v := by
  refine Spec.atomic_bind_of_admits ?_
  rintro i t rfl hi
  have hup : i.pinE2 = true := (Bool.and_eq_true_iff.mp hi).2
  refine Spec.ite (fun _ => ?_) fun hdown => absurd hup hdown
  exact Spec.keeps_bind (Keeps.act fun _ => rfl) fun _ => Spec.ret ⟨rfl, rfl⟩

/-- **An iteration with a constant reading.** -/
theorem scanPad_held (i : Nat) : Spec (held raw) heldView v (scanPad i) fun o w =>
    o.recalibrated = none ∧
      (o.pad < 40 → HeldStep o.pad (v.deflection raw o.pad) o.samples o.event v w) := by
  refine Spec.keeps_bind (Keeps.atomic fun _ _ => rfl) fun pad => ?_
  refine Spec.bind resetButton_held ?_
  rintro codes w ⟨rfl, rfl⟩
  refine Spec.bind (Q := fun r u => pad < 40 →
    HeldStep pad (w.deflection raw pad) r.1 r.2 w u) ?_ fun r u hu => Spec.ret ⟨rfl, hu⟩
  refine heldView_approaches.scanRest_spec i (Spec.ite (fun _ => ?_) fun hpad => ?_)
  · exact Spec.mono scanVelocityPad_held fun r u hu _ => hu
  · exact Spec.mono Spec.top fun r u _ h => absurd h hpad

end SphereWare
