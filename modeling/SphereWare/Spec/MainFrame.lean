import SphereWare.Interrupt.View
import SphereWare.Firmware.Frame

/-!
# What main leaves alone

`Selects`, `Biases`, `Calibrates` and `Approaches` name the changes main makes on its way to a
measurement. What it does there changes the state within any relation that allows them. The rest of
an iteration is taken apart in `Worked`, for any property of programs.
-/

namespace SphereWare

open Interrupt Prog

variable {R : Firmware → Firmware → Prop} {τ : Type} {pad : Nat}

/-! ## Selecting a pad -/

/-- What selecting a pad and waiting for it changes. -/
structure Selects (R : Firmware → Firmware → Prop) : Prop where
  iflag : ∀ s b, R s { s with cpu := { s.cpu with iflag := b } }
  mux : ∀ s n, R s { s with ports := s.ports.muxSelect n }
  r2r : ∀ s n, R s { s with ports := s.ports.r2rWrite n }

theorem Selects.refl (h : Selects R) (s : Firmware) : R s s := h.iflag s s.cpu.iflag

/-! ## Calibration -/

/-- What looking for a bias changes. -/
structure Biases (R : Firmware → Firmware → Prop) : Prop extends Selects R where
  adc : ∀ s a, R s { s with adc := a }
  order : ∀ s r o, R s { s with pads := { s.pads with r2rVal := r, padOrder := o } }
  threshold : ∀ s v, R s { s with standby := { s.standby with initVal := v } }

theorem Biases.findBias_keeps (h : Biases R) (pad : Nat) (l : List Nat) :
    (findBias pad l).Keeps R := by
  induction l with
  | nil => exact Keeps.ret _
  | cons i l ih =>
    refine Keeps.bind (Keeps.act fun s => h.r2r s i) fun _ => ?_
    refine Keeps.bind (delay_keeps h.iflag pad) fun _ => ?_
    refine Keeps.bind (adcRead_keeps h.adc _ _) fun a => Keeps.ite ?_ ih
    refine Keeps.bind (Keeps.act fun s => h.order s _ s.pads.padOrder) fun _ => ?_
    exact Keeps.act fun s => h.threshold s _

/-- What calibrating the pads one by one changes. -/
structure Calibrates (R : Firmware → Firmware → Prop) : Prop extends Biases R where
  filtered : ∀ s f, R s { s with pads := { s.pads with filteredVal := f } }
  thresholdSe : ∀ s v, R s { s with pads := { s.pads with initValSe := v } }

theorem Calibrates.mono {S : Firmware → Firmware → Prop} (h : Calibrates R)
    (hS : ∀ s t, R s t → S s t) : Calibrates S where
  iflag s b := hS _ _ (h.iflag s b)
  mux s n := hS _ _ (h.mux s n)
  r2r s n := hS _ _ (h.r2r s n)
  adc s a := hS _ _ (h.adc s a)
  order s r o := hS _ _ (h.order s r o)
  threshold s v := hS _ _ (h.threshold s v)
  filtered s f := hS _ _ (h.filtered s f)
  thresholdSe s v := hS _ _ (h.thresholdSe s v)

theorem Calibrates.calibrateVelocityPad_keeps (h : Calibrates R) (pad : Nat) :
    (calibrateVelocityPad pad).Keeps R := by
  refine Keeps.bind (Keeps.act fun s => h.order s _ s.pads.padOrder) fun _ => ?_
  refine Keeps.bind (Keeps.act fun s => h.mux s pad) fun _ => ?_
  refine Keeps.bind (delay_keeps h.iflag pad) fun _ => ?_
  refine Keeps.bind (Keeps.act fun s => h.filtered s _) fun _ => ?_
  refine Keeps.bind (h.findBias_keeps pad _) fun _ => ?_
  exact Keeps.act fun s => h.order s s.pads.r2rVal _

theorem Calibrates.calibratePressurePad_keeps (h : Calibrates R) (pad : Nat) :
    (calibratePressurePad pad).Keeps R := by
  refine Keeps.bind (Keeps.act fun s => h.mux s pad) fun _ => ?_
  refine Keeps.bind (delay_keeps h.iflag pad) fun _ => ?_
  refine Keeps.bind (adcRead_keeps h.adc _ _) fun a => ?_
  refine Keeps.bind (Keeps.act fun s => h.thresholdSe s _) fun _ => ?_
  exact Keeps.act fun s => h.order s s.pads.r2rVal _

theorem genericHIDClear_keeps
    (h : ∀ s j, 1 ≤ j → j < 96 → R s { s with hid := s.hid.fill j 1 0 }) :
    genericHIDClear.Keeps R := by
  refine Keeps.forEach fun j hj => Keeps.act fun s => ?_
  have hj := List.mem_range'_1.mp hj
  exact h s j (by omega) (by omega)

theorem calibrateReset_keeps (hclear : genericHIDClear.Keeps R)
    (hpads : ∀ s p, R s { s with pads := p }) : calibrateReset.Keeps R := by
  refine Keeps.bind hclear fun _ => ?_
  iterate 4 refine Keeps.bind (Keeps.act fun s => hpads s _) fun _ => ?_
  exact Keeps.act fun s => hpads s _

/-- **Calibration stays within what its parts allow.** -/
theorem Calibrates.calibrate_keeps (h : Calibrates R) (hreset : calibrateReset.Keeps R) :
    calibrate.Keeps R := by
  refine Keeps.bind (Keeps.forEach fun pad _ => h.calibrateVelocityPad_keeps pad) fun _ => ?_
  refine Keeps.bind (Keeps.forEach fun pad _ => h.calibratePressurePad_keeps pad) fun _ => ?_
  refine Keeps.bind (Keeps.atomic fun _ s => h.refl s) fun codes => ?_
  refine Keeps.bind (Keeps.act fun s => h.order s _ _) fun _ => ?_
  exact Keeps.bind hreset fun _ => Keeps.ret _

/-- Of a view its parts keep, calibration makes what its end makes of it. -/
theorem Calibrates.calibrate_spec {M : Machine Firmware Input} {f : Firmware → τ} {v : τ}
    {Q : τ → Prop} (h : Calibrates (SameOn f))
    (hreset : Spec M f v calibrateReset fun _ w => Q w) : Spec M f v calibrate fun _ w => Q w := by
  refine Spec.keeps_bind (Keeps.forEach fun pad _ => h.calibrateVelocityPad_keeps pad) fun _ => ?_
  refine Spec.keeps_bind (Keeps.forEach fun pad _ => h.calibratePressurePad_keeps pad) fun _ => ?_
  refine Spec.keeps_bind (Keeps.atomic fun _ s => h.refl s) fun codes => ?_
  refine Spec.keeps_bind (Keeps.act fun s => h.order s _ _) fun _ => ?_
  exact Spec.bind hreset fun _ w hw => Spec.ret hw

/-! ## On the way to a pad -/

/-- What main changes on its way to a pad, reading the buttons and the dials. -/
structure Approaches (R : Firmware → Firmware → Prop) : Prop extends Selects R where
  region : ∀ s b c, R s { s with cpu := { s.cpu with iflag := b, region := c } }
  elite : ∀ s e h b, R s { s with elite := e, hid := h, pads := { s.pads with beingPlayed := b } }

theorem Approaches.mono {S : Firmware → Firmware → Prop} (h : Approaches R)
    (hS : ∀ s t, R s t → S s t) : Approaches S where
  iflag s b := hS _ _ (h.iflag s b)
  mux s n := hS _ _ (h.mux s n)
  r2r s n := hS _ _ (h.r2r s n)
  region s b c := hS _ _ (h.region s b c)
  elite s e d b := hS _ _ (h.elite s e d b)

theorem Approaches.eliteScan_keeps (h : Approaches R) (pad : Nat) : (eliteScan pad).Keeps R := by
  refine critical_keeps h.region (Keeps.forEach fun i _ => ?_)
  exact Keeps.bind (Keeps.act fun s => h.mux s _) fun _ => Keeps.atomic fun _ s => h.elite s _ _ _

theorem Approaches.scanRest_keeps (h : Approaches R) (i : Nat) (hpad : (scanSelected pad).Keeps R) :
    (scanRest i pad).Keeps R := by
  refine Keeps.bind (Keeps.atomic fun _ s => h.refl s) fun bias => ?_
  refine Keeps.bind (Keeps.act fun s => h.r2r s bias) fun _ => ?_
  refine Keeps.bind (h.eliteScan_keeps pad) fun _ => ?_
  refine Keeps.bind (Keeps.act fun s => h.mux s pad) fun _ => ?_
  exact Keeps.bind (delay_keeps h.iflag pad) fun _ => hpad

/-- **A view that main keeps on its way to a pad.** -/
theorem Approaches.scanRest_spec {M : Machine Firmware Input} {f : Firmware → τ} {v : τ}
    {Q : List Sample × PadEvent → τ → Prop} (h : Approaches (SameOn f)) (i : Nat)
    (hpad : Spec M f v (scanSelected pad) Q) : Spec M f v (scanRest i pad) Q := by
  refine Spec.keeps_bind (Keeps.atomic fun _ _ => rfl) fun bias => ?_
  refine Spec.keeps_bind (Keeps.act fun s => h.r2r s bias) fun _ => ?_
  refine Spec.keeps_bind (h.eliteScan_keeps pad) fun _ => ?_
  refine Spec.keeps_bind (Keeps.act fun s => h.mux s pad) fun _ => ?_
  exact Spec.keeps_bind (delay_keeps h.iflag pad) fun _ => hpad

/-! ## At the pad -/

/-- What main leaves alone at a pad, within its critical sections and between them. -/
def workView (s : Firmware) :=
  (s.standby.count, s.standby.thresholdsRaised, s.led, s.ports.portC, s.ports.portE, s.cpu.iflag,
    s.cpu.region, s.cpu.isrDepth, s.midi, s.usb)

theorem read_work {α : Type} (f : Firmware → α) : (read f : Code α).Keeps (SameOn workView) :=
  Keeps.atomic fun _ _ => rfl

theorem padsAct_work (f : Pads → Pads) : (padsAct f).Keeps (SameOn workView) := Keeps.act fun _ => rfl

theorem hidAct_work (f : Firmware → Hid) :
    (act fun s => { s with hid := f s } : Code Unit).Keeps (SameOn workView) := Keeps.act fun _ => rfl

theorem adjustInitVal_work (pad : Nat) (d : BitVec 16) :
    (adjustInitVal pad d).Keeps (SameOn workView) :=
  Keeps.bind (Keeps.act fun _ => rfl) fun _ => Keeps.act fun _ => rfl

theorem stickyTimeout_work (pad : Nat) (s : Firmware) : SameOn workView s (stickyTimeout pad s) := by
  unfold stickyTimeout
  dsimp only
  split
  · split
    · rfl
    · rfl
  · rfl

/-- A property of programs that an iteration has if its parts have it. -/
structure Worked (P : ∀ {α : Type}, Code α → Prop) : Prop where
  keeps : ∀ {α : Type} {p : Code α}, p.Keeps (SameOn workView) → P p
  bind : ∀ {α β : Type} {p : Code α} {q : α → Code β}, P p → (∀ a, P (q a)) → P (p.bind q)
  critical : ∀ {α : Type} {r : Region} {body : Code α}, body.Keeps (SameOn workView) →
    P (critical r body)
  delay : ∀ pad, P (delay pad)

namespace Worked

variable {P : ∀ {α : Type}, Code α → Prop} (h : Worked P)

include h

theorem ret {α : Type} (a : α) : P (Prog.ret a : Code α) := h.keeps (Keeps.ret a)

omit h in
theorem ite {α : Type} {c : Prop} [Decidable c] {p q : Code α} (hp : P p) (hq : P q) :
    P (if c then p else q) := by
  split
  · exact hp
  · exact hq

theorem when {c : Prop} [Decidable c] {p : Code Unit} (hp : P p) : P (Prog.when c p) :=
  ite hp (h.ret ())

theorem of_strike (pad : Nat) (val : Int) : P (strike pad val) := by
  refine h.bind (h.keeps (peakLoop_keeps (fun _ _ => rfl) pad 200 val)) fun r => ?_
  refine h.bind (h.critical ?_) fun _ => h.keeps ?_
  · exact Keeps.bind (hidAct_work _) fun _ => padsAct_work _
  · iterate 3 refine Keeps.bind (padsAct_work _) fun _ => ?_
    exact Keeps.bind (adjustInitVal_work _ _) fun _ => Keeps.ret _

theorem of_antiSticky (pad : Nat) : P (antiSticky pad) := by
  refine h.bind (h.keeps (padsAct_work _)) fun _ => h.bind (h.keeps (read_work _)) fun applied => ?_
  refine h.when (h.critical ?_)
  exact Keeps.bind (Keeps.act fun _ => rfl) fun _ => padsAct_work _

theorem of_pressureUpdate (pad : Nat) (val : Int) : P (pressureUpdate pad val) := by
  refine h.bind (h.keeps (padsAct_work _)) fun _ => h.bind (h.keeps (read_work _)) fun filtered => ?_
  refine h.bind (h.when (h.of_antiSticky pad)) fun _ => ?_
  refine h.bind (h.critical ?_) fun _ => h.keeps (padsAct_work _)
  exact Keeps.bind (hidAct_work _) fun _ => padsAct_work _

theorem of_release (pad : Nat) : P (release pad) := by
  refine h.bind (h.critical ?_) fun _ => h.keeps ?_
  · refine Keeps.bind (Keeps.act fun s => stickyTimeout_work pad s) fun _ => ?_
    exact Keeps.bind (hidAct_work _) fun _ => padsAct_work _
  · exact Keeps.bind (padsAct_work _) fun _ => adjustInitVal_work _ _

theorem of_scanVelocityPad (pad : Nat) : P (scanVelocityPad pad) := by
  refine h.bind (h.keeps (sampleVelocityPad_keeps (fun _ _ => rfl) pad)) fun x => ?_
  refine h.bind (h.keeps (read_work _)) fun sent => ite (ite ?_ ?_) (ite ?_ (h.ret _))
  · exact h.bind (h.of_pressureUpdate pad _) fun _ => h.ret _
  · exact h.bind (h.of_strike pad _) fun _ => h.ret _
  · exact h.bind (h.of_release pad) fun _ => h.ret _

theorem of_singleEndedPress (pad : Nat) (val : Int) : P (singleEndedPress pad val) := by
  refine h.bind (h.keeps (read_work _)) fun applied => h.bind (h.when (h.keeps ?_)) fun _ => ?_
  · exact Keeps.bind (padsAct_work _) fun _ => padsAct_work _
  refine h.bind (h.critical ?_) fun _ => h.keeps (padsAct_work _)
  refine Keeps.bind (padsAct_work _) fun _ => Keeps.bind (read_work _) fun filtered => ?_
  refine Keeps.bind (Keeps.when (padsAct_work _)) fun _ => ?_
  exact Keeps.bind (hidAct_work _) fun _ => padsAct_work _

theorem of_singleEndedRelease (pad : Nat) : P (singleEndedRelease pad) := by
  refine h.bind (h.keeps (read_work _)) fun applied => h.bind (h.when (h.keeps ?_)) fun _ => ?_
  · exact Keeps.bind (padsAct_work _) fun _ => padsAct_work _
  · exact h.critical (Keeps.bind (hidAct_work _) fun _ => padsAct_work _)

theorem of_scanPressurePad (pad : Nat) : P (scanPressurePad pad) := by
  refine h.bind (h.keeps (read_work _)) fun threshold => ?_
  refine h.bind (h.keeps (adcRead_keeps (fun _ _ => rfl) _ _)) fun a => ite ?_ ?_
  · exact h.bind (h.of_singleEndedPress pad _) fun _ => h.ret _
  · exact h.bind (h.of_singleEndedRelease pad) fun _ => h.ret _

theorem of_scanRest (i pad : Nat) : P (scanRest i pad) := by
  refine h.bind (h.keeps (read_work _)) fun bias => ?_
  refine h.bind (h.keeps (Keeps.act fun _ => rfl)) fun _ => ?_
  refine h.bind (h.critical (Keeps.forEach fun i _ => ?_)) fun _ => ?_
  · exact Keeps.bind (Keeps.act fun _ => rfl) fun _ => Keeps.atomic fun _ _ => rfl
  refine h.bind (h.keeps (Keeps.act fun _ => rfl)) fun _ => h.bind (h.delay pad) fun _ => ?_
  exact ite (h.of_scanVelocityPad pad) (h.of_scanPressurePad pad)

/-- The reset button, with what it does when it is held down. -/
theorem of_resetButton
    (hdown : P (SphereWare.critical .recalibration
      ((standbyAct fun b => { b with thresholdsRaised := false }).bind fun _ => calibrate))) :
    P resetButton := by
  refine h.bind (h.keeps (Keeps.atomic fun _ _ => rfl)) fun up => ite ?_ ?_
  · exact h.bind (h.keeps (padsAct_work _)) fun _ => h.ret _
  · exact h.bind (h.keeps (padsAct_work _)) fun _ => h.bind hdown fun codes => h.ret _

/-- **An iteration has what its parts have.** -/
theorem of_scanPad
    (hdown : P (SphereWare.critical .recalibration
      ((standbyAct fun b => { b with thresholdsRaised := false }).bind fun _ => calibrate)))
    (i : Nat) : P (scanPad i) := by
  refine h.bind (h.keeps (read_work _)) fun pad => h.bind (h.of_resetButton hdown) fun codes => ?_
  exact h.bind (h.of_scanRest i pad) fun r => h.ret _

end Worked

end SphereWare
