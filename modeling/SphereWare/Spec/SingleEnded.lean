import SphereWare.Blend.Halfway
import SphereWare.Properties.Conversions
import SphereWare.Spec.MainFrame
import SphereWare.Spec.ScanRun
import SphereWare.Trigger.Hysteresis

/-!
# Single-ended pads

A single-ended pad on its own. It has a threshold that calibration finds, a touch moves the
threshold by the hysteresis, and the pressure goes halfway to each deflection. The last pad is left
out: calibration does not clear its entry (`clearedTo_end`).
-/

namespace SphereWare

open Interrupt Prog

/-! ## The machine -/

structure SePad where
  threshold : Int
  touched : Bool
  /-- `filtered_val`, which outlives the touch. -/
  pressure : Int

namespace SePad

/-- After a calibration at which the converter reads `a`. -/
def calibrated (a : Int) : SePad := ⟨a - 40, false, 0⟩

/-- `init_val_se`. -/
def initValSe (t : SePad) : Int := t.threshold + if t.touched then 10 else 0

/-- The next state when the converter reads `a`. -/
def next (t : SePad) (a : Int) : SePad :=
  if 0 < t.initValSe - a then
    { t with touched := true, pressure := Blend.halfway 511 t.pressure ((t.initValSe - a) * 2) }
  else { t with touched := false }

/-- The branch that goes with the step. -/
def event (t : SePad) (a : Int) : PadEvent := if 0 < t.initValSe - a then .pressure else .release

/-- What the host reads: a touched pad has the highest velocity. -/
def entry (t : SePad) : Nat × Nat := if t.touched then (t.pressure.toNat, 127) else (0, 0)

structure Valid (t : SePad) : Prop where
  threshold : -40 ≤ t.threshold ∧ t.threshold ≤ 983
  pressure : 0 ≤ t.pressure ∧ t.pressure ≤ 511

theorem Valid.initValSe {t : SePad} (h : t.Valid) : -40 ≤ t.initValSe ∧ t.initValSe ≤ 993 := by
  have hthreshold := h.threshold
  unfold SePad.initValSe
  split <;> omega

theorem calibrated_valid (raw : BitVec 10) : (calibrated raw.toNat).Valid := by
  have hraw := raw.isLt
  exact ⟨by simp only [calibrated]; omega, by simp [calibrated]⟩

theorem Valid.next {t : SePad} (h : t.Valid) (a : Int) : (t.next a).Valid := by
  unfold SePad.next
  split
  · refine ⟨h.threshold, Blend.halfway_nonneg (by decide) h.pressure.1 (by omega), ?_⟩
    exact Int.min_le_left _ _
  · exact ⟨h.threshold, h.pressure⟩

/-- The pad is a trigger. -/
theorem touched_next (t : SePad) (a : Int) :
    (t.next a).touched = Hysteresis.next t.threshold (t.threshold + 10) t.touched a := by
  have hnext : (t.next a).touched = decide (0 < t.initValSe - a) := by
    unfold SePad.next
    split
    · next h => exact (decide_eq_true h).symm
    · next h => exact (decide_eq_false h).symm
  rw [hnext, initValSe, Hysteresis.next]
  split <;> exact decide_eq_decide.mpr (by omega)

theorem threshold_next (t : SePad) (a : Int) : (t.next a).threshold = t.threshold := by
  unfold SePad.next
  split <;> rfl

end SePad

/-! ## What main keeps of it -/

/-- What main keeps of a single-ended pad, and what the host sees of it. -/
structure SeReport where
  initValSe : Int
  hysterisisApplied : Bool
  filtered : Int
  played : Bool
  entry : Nat × Nat

def seReport (p : Nat) (s : Firmware) : SeReport :=
  ⟨s.pads.initValSe p, s.pads.hysterisisApplied p, s.pads.filteredVal p, s.pads.beingPlayed p,
    s.hid.entry p⟩

/-- What main and the host know of a pad is the state of its machine. -/
def SeReport.Shows (r : SeReport) (t : SePad) : Prop :=
  t.Valid ∧ r = ⟨t.initValSe, t.touched, t.pressure, t.touched, t.entry⟩

structure SeView where
  report : SeReport
  channel : Nat

def seView (p : Nat) (s : Firmware) : SeView := ⟨seReport p s, s.ports.channel⟩

/-- The processor, where the conversions of the pad `p` give readings that are `ok`. -/
def sensedPad (p : Nat) (ok : BitVec 10 → Bool) : Machine Firmware Input :=
  { avr with admits := fun s i => s.ports.channel != p || ok i.adc }

theorem sensedPad_any (p : Nat) : sensedPad p (fun _ => true) = avr := by
  simp only [sensedPad, Bool.or_true]
  rfl

variable {p pad : Nat} {ok : BitVec 10 → Bool} {v : SeView}

theorem seReport_of_buffer {s t : Firmware} (hp : p < numPads) (hpads : t.pads = s.pads)
    (hbuffer : ∀ j < 97, t.hid.buffer j = s.hid.buffer j) : seReport p t = seReport p s := by
  have hlt : p < 48 := hp
  rw [seReport, seReport, hpads, Hid.entry, Hid.entry, hbuffer _ (by omega), hbuffer _ (by omega)]

theorem seView_of_handlerView (hp : p < numPads) {s t : Firmware} (h : SameOn handlerView s t) :
    SameOn (seView p) s t := by
  simp only [SameOn, handlerView, Prod.mk.injEq] at h
  obtain ⟨hpads, hbuffer, -, -, -, hchannel, -⟩ := h
  have hreport := seReport_of_buffer hp hpads fun j hj => congrFun hbuffer ⟨j, hj⟩
  rw [SameOn, seView, seView, hreport, hchannel]

/-- **Interrupts leave the pad alone.** -/
theorem seView_sound (hp : p < numPads) : (Rely.ofView (seView p)).Sound (sensedPad p ok) :=
  Rely.ofView_sound (fun _ => rfl) (fun _ => rfl)
    (Keeps.mono (fun _ _ => seView_of_handlerView hp) timerHandler_keeps)

/-! ## The other pads -/

/-- A program that leaves the pad alone, but may select another. -/
abbrev KeepsSe (p : Nat) {α : Type} (q : Code α) : Prop := q.Keeps (SameOn (seReport p))

theorem spec_of_keepsSe {α : Type} {q : Code α} (h : KeepsSe p q) :
    Spec (sensedPad p ok) (seView p) v q fun _ w => w.report = v.report :=
  Spec.of_keeps (S := fun v w : SeView => w.report = v.report) (fun _ => rfl)
    (fun _ _ _ h₁ h₂ => h₂.trans h₁) (Keeps.mono (fun _ _ h => h) h)

theorem read_keepsSe {α : Type} (f : Firmware → α) : KeepsSe p (read f) :=
  Keeps.atomic fun _ _ => rfl

theorem padsAct_keepsSe {f : Pads → Pads}
    (h : ∀ q, (f q).initValSe p = q.initValSe p ∧
      (f q).hysterisisApplied p = q.hysterisisApplied p ∧
      (f q).filteredVal p = q.filteredVal p ∧ (f q).beingPlayed p = q.beingPlayed p) :
    KeepsSe p (padsAct f) := by
  refine Keeps.act fun s => ?_
  obtain ⟨h₁, h₂, h₃, h₄⟩ := h s.pads
  simp only [SameOn, seReport, h₁, h₂, h₃, h₄]

theorem critical_keepsSe {α : Type} {r : Region} {body : Code α} (h : KeepsSe p body) :
    KeepsSe p (critical r body) := critical_keeps (fun _ _ _ => rfl) h

theorem writePadData_keepsSe (hpad : pad ≠ p) (value : Firmware → Int) (velocity : UInt8) :
    KeepsSe p (act fun s => { s with hid := s.hid.writePadData pad (value s) velocity }) := by
  refine Keeps.act fun s => ?_
  have hentry : (s.hid.writePadData pad (value s) velocity).entry p = s.hid.entry p := by
    rw [Hid.entry, Hid.entry, Hid.buffer_writePadData_of_ne _ _ _ (by omega) (by omega),
      Hid.buffer_writePadData_of_ne _ _ _ (by omega) (by omega)]
  simp only [SameOn, seReport, hentry]

theorem writePressureOnly_keepsSe (hpad : pad ≠ p) (value : Firmware → Int) :
    KeepsSe p (act fun s => { s with hid := s.hid.writePressureOnly pad (value s) }) := by
  refine Keeps.act fun s => ?_
  have hentry : (s.hid.writePressureOnly pad (value s)).entry p = s.hid.entry p := by
    rw [Hid.entry, Hid.entry, Hid.buffer_writePressureOnly_of_ne _ _ (by omega) (by omega),
      Hid.buffer_writePressureOnly_of_ne _ _ (by omega) (by omega)]
  simp only [SameOn, seReport, hentry]

theorem setPlayed_keepsSe (hpad : pad ≠ p) (b : Bool) :
    KeepsSe p (padsAct fun q => q.setPlayed pad b) :=
  padsAct_keepsSe fun _ => ⟨rfl, rfl, rfl, Function.update_of_ne hpad.symm _ _⟩

theorem setFiltered_keepsSe (hpad : pad ≠ p) (f : Pads → Int) :
    KeepsSe p (padsAct fun q => q.setFiltered pad (f q)) :=
  padsAct_keepsSe fun _ => ⟨rfl, rfl, Function.update_of_ne hpad.symm _ _, rfl⟩

theorem addLedSum_keepsSe (pad : Nat) : KeepsSe p (padsAct fun q => q.addLedSum pad) :=
  Keeps.act fun _ => rfl

theorem adjustInitVal_keepsSe (pad : Nat) (d : BitVec 16) : KeepsSe p (adjustInitVal pad d) :=
  Keeps.bind (Keeps.act fun _ => rfl) fun _ => Keeps.act fun _ => rfl

theorem strike_keepsSe (hpad : pad ≠ p) (val : Int) : KeepsSe p (strike pad val) := by
  refine Keeps.bind (peakLoop_keeps (fun _ _ => rfl) pad 200 val) fun r => ?_
  refine Keeps.bind (critical_keepsSe ?_) fun _ => ?_
  · exact Keeps.bind (writePadData_keepsSe hpad _ _) fun _ => setPlayed_keepsSe hpad true
  refine Keeps.bind (Keeps.act fun _ => rfl) fun _ => ?_
  refine Keeps.bind (setFiltered_keepsSe hpad _) fun _ => ?_
  refine Keeps.bind (addLedSum_keepsSe pad) fun _ => ?_
  exact Keeps.bind (adjustInitVal_keepsSe pad _) fun _ => Keeps.ret _

theorem pressureUpdate_keepsSe (hpad : pad ≠ p) (val : Int) :
    KeepsSe p (pressureUpdate pad val) := by
  refine Keeps.bind (setFiltered_keepsSe hpad _) fun _ => ?_
  refine Keeps.bind (read_keepsSe _) fun filtered => ?_
  refine Keeps.bind (Keeps.when (Keeps.bind (setFiltered_keepsSe hpad _) fun _ => ?_)) fun _ => ?_
  · refine Keeps.bind (read_keepsSe _) fun applied => Keeps.when (critical_keepsSe ?_)
    exact Keeps.bind (Keeps.act fun _ => rfl) fun _ => Keeps.act fun _ => rfl
  refine Keeps.bind (critical_keepsSe ?_) fun _ => addLedSum_keepsSe pad
  exact Keeps.bind (writePressureOnly_keepsSe hpad _) fun _ => setPlayed_keepsSe hpad true

theorem release_keepsSe (hpad : pad ≠ p) : KeepsSe p (release pad) := by
  have hsticky (s : Firmware) : SameOn (seReport p) s (stickyTimeout pad s) := by
    unfold stickyTimeout
    dsimp only
    repeat' split
    all_goals rfl
  refine Keeps.bind (critical_keepsSe (Keeps.bind (Keeps.act hsticky) fun _ => ?_)) fun _ => ?_
  · exact Keeps.bind (writePadData_keepsSe hpad _ _) fun _ => setPlayed_keepsSe hpad false
  refine Keeps.bind (Keeps.act fun _ => rfl) fun _ => ?_
  exact adjustInitVal_keepsSe pad _

theorem scanVelocityPad_keepsSe (hpad : pad ≠ p) : KeepsSe p (scanVelocityPad pad) := by
  refine Keeps.bind (sampleVelocityPad_keeps (fun _ _ => rfl) pad) fun x => ?_
  refine Keeps.bind (read_keepsSe _) fun sent => Keeps.ite (Keeps.ite ?_ ?_) (Keeps.ite ?_ ?_)
  · exact Keeps.bind (pressureUpdate_keepsSe hpad _) fun _ => Keeps.ret _
  · exact Keeps.bind (strike_keepsSe hpad _) fun _ => Keeps.ret _
  · exact Keeps.bind (release_keepsSe hpad) fun _ => Keeps.ret _
  · exact Keeps.ret _

/-- The hysteresis of another pad. -/
theorem setHysterisis_keepsSe (hpad : pad ≠ p) (d : Int) (b : Bool) :
    KeepsSe p (do
      padsAct fun q =>
        { q with initValSe := Function.update q.initValSe pad (i16 (q.initValSe pad + d)) }
      padsAct fun q =>
        { q with hysterisisApplied := Function.update q.hysterisisApplied pad b }) := by
  refine Keeps.bind (padsAct_keepsSe fun q => ?_) fun _ => padsAct_keepsSe fun q => ?_
  · exact ⟨Function.update_of_ne hpad.symm _ _, rfl, rfl, rfl⟩
  · exact ⟨rfl, Function.update_of_ne hpad.symm _ _, rfl, rfl⟩

theorem scanPressurePad_keepsSe (hpad : pad ≠ p) : KeepsSe p (scanPressurePad pad) := by
  refine Keeps.bind (read_keepsSe _) fun threshold => ?_
  refine Keeps.bind (adcRead_keeps (fun _ _ => rfl) _ _) fun a => Keeps.ite ?_ ?_
  · refine Keeps.bind (Keeps.bind (read_keepsSe _) fun applied => ?_) fun _ => Keeps.ret _
    refine Keeps.bind (Keeps.when (setHysterisis_keepsSe hpad 10 true)) fun _ => ?_
    refine Keeps.bind (critical_keepsSe ?_) fun _ => addLedSum_keepsSe pad
    refine Keeps.bind (setFiltered_keepsSe hpad _) fun _ => Keeps.bind (read_keepsSe _) fun _ => ?_
    refine Keeps.bind (Keeps.when (setFiltered_keepsSe hpad _)) fun _ => ?_
    exact Keeps.bind (writePadData_keepsSe hpad _ _) fun _ => setPlayed_keepsSe hpad true
  · refine Keeps.bind (Keeps.bind (read_keepsSe _) fun applied => ?_) fun _ => Keeps.ret _
    refine Keeps.bind (Keeps.when (setHysterisis_keepsSe hpad (-10) false)) fun _ => ?_
    refine critical_keepsSe ?_
    exact Keeps.bind (writePadData_keepsSe hpad _ _) fun _ => setPlayed_keepsSe hpad false

/-- **An iteration for another pad.** -/
theorem scanSelected_keepsSe (hpad : pad ≠ p) : KeepsSe p (scanSelected pad) :=
  Keeps.ite (scanVelocityPad_keepsSe hpad) (scanPressurePad_keepsSe hpad)

/-! ## The pad itself -/

variable {t : SePad} {r : SeReport} {channel : Nat}

/-- A step of main on its own variables. -/
theorem padsAct_se {α : Type} {f : Pads → Pads} (F : SeReport → SeReport)
    (hf : ∀ s : Firmware, seReport p { s with pads := f s.pads } = F (seReport p s))
    {q : Unit → Code α} {Q : α → SeView → Prop}
    (h : Spec (sensedPad p ok) (seView p) ⟨F r, channel⟩ (q ()) Q) :
    Spec (sensedPad p ok) (seView p) ⟨r, channel⟩ ((padsAct f).bind q) Q :=
  Spec.map_bind (fun v => ⟨F v.report, v.channel⟩) (fun s => by rw [seView, hf s]; rfl) h

theorem setPlayed_seReport (b : Bool) (s : Firmware) :
    seReport p { s with pads := s.pads.setPlayed p b } = { seReport p s with played := b } := by
  simp only [seReport, Pads.setPlayed, Function.update_self]

theorem setFiltered_seReport (f : Pads → Int) (s : Firmware) :
    seReport p { s with pads := s.pads.setFiltered p (f s.pads) }
      = { seReport p s with filtered := f s.pads } := by
  simp only [seReport, Pads.setFiltered, Function.update_self]

/-- `init_val_se[pad] += d`, with the flag that says so. -/
theorem setHysterisis_se (d : Int) (b : Bool) :
    Spec (sensedPad p ok) (seView p) ⟨r, channel⟩
      (do
        padsAct fun q =>
          { q with initValSe := Function.update q.initValSe p (i16 (q.initValSe p + d)) }
        padsAct fun q => { q with hysterisisApplied := Function.update q.hysterisisApplied p b })
      fun _ w =>
        w = ⟨{ r with initValSe := i16 (r.initValSe + d), hysterisisApplied := b }, channel⟩ := by
  refine padsAct_se (fun r => { r with initValSe := i16 (r.initValSe + d) }) (fun s => ?_) ?_
  · simp only [seReport, Function.update_self]
  · refine Spec.map (fun v => ⟨{ v.report with hysterisisApplied := b }, v.channel⟩)
      (fun s => ?_) rfl
    simp only [seView, seReport, Function.update_self]

/-- A step of main that writes the entry of the pad in the report. -/
theorem writePadData_se {α : Type} {value : Firmware → Int} {x : Int} {velocity : UInt8}
    (hvalue : ∀ s, seReport p s = r → value s = x) (h₀ : 0 ≤ x) (h₁ : x ≤ 511)
    {q : Unit → Code α} {Q : α → SeView → Prop}
    (h : Spec (sensedPad p ok) (seView p)
      ⟨{ r with entry := (x.toNat, velocity.toNat % 128) }, channel⟩ (q ()) Q) :
    Spec (sensedPad p ok) (seView p) ⟨r, channel⟩
      ((act fun s => { s with hid := s.hid.writePadData p (value s) velocity }).bind q) Q := by
  refine Spec.act_bind _ (fun s hs => ?_) h
  obtain rfl : seReport p s = r := congrArg SeView.report hs
  obtain rfl : s.ports.channel = channel := congrArg SeView.channel hs
  simp only [seView, seReport, hvalue s rfl, Hid.entry_writePadData _ _ h₀ h₁]

/-- The new pressure, limited. -/
theorem limitFiltered_se {f : Int} (hfull : r.filtered = f) :
    Spec (sensedPad p ok) (seView p) ⟨r, channel⟩
      (when (511 ≤ f) (padsAct fun q => q.setFiltered p 511)) fun _ w =>
        w = ⟨{ r with filtered := min 511 f }, channel⟩ := by
  refine Spec.when (fun h => ?_) fun h => ?_
  · refine Spec.map (fun v => ⟨{ v.report with filtered := 511 }, v.channel⟩) (fun s => ?_) ?_
    · rw [seView, setFiltered_seReport fun _ => 511]
      rfl
    · rw [min_eq_left h]
  · rw [min_eq_right (Int.le_of_not_le h), ← hfull]

/-- The region in which main reports a touch. -/
theorem reportTouch_se {val : Int} (h₀ : 0 ≤ Blend.halfway 511 r.filtered val) :
    Spec (sensedPad p ok) (seView p) ⟨r, channel⟩
      (do
        padsAct fun q => q.setFiltered p (filter (q.filteredVal p) val)
        let filtered ← read fun s => s.pads.filteredVal p
        when (511 ≤ filtered) (padsAct fun q => q.setFiltered p 511)
        act fun s => { s with hid := s.hid.writePadData p (s.pads.filteredVal p) 127 }
        padsAct fun q => q.setPlayed p true)
      fun _ w =>
        let f := Blend.halfway 511 r.filtered val
        w = ⟨{ r with filtered := f, played := true, entry := (f.toNat, 127) }, channel⟩ := by
  refine padsAct_se (fun r => { r with filtered := filter r.filtered val })
    (setFiltered_seReport fun q => filter (q.filteredVal p) val) ?_
  refine Spec.read_bind (filter r.filtered val)
    (fun s hs => congrArg (fun v => v.report.filtered) hs) ?_
  refine Spec.bind (limitFiltered_se rfl) ?_
  rintro - w rfl
  refine writePadData_se (x := Blend.halfway 511 r.filtered val)
    (fun s hs => congrArg SeReport.filtered hs) h₀ (Int.min_le_left _ _) ?_
  exact Spec.map (fun v => ⟨{ v.report with played := true }, v.channel⟩)
    (fun s => by rw [seView, setPlayed_seReport]; rfl) rfl

theorem singleEndedPress_se (ht : r.Shows t) {a : Int} (ha : 0 ≤ a)
    (hpress : 0 < t.initValSe - a) :
    Spec (sensedPad p ok) (seView p) ⟨r, channel⟩ (singleEndedPress p (t.initValSe - a)) fun _ w =>
      w.report.Shows (t.next a) := by
  obtain ⟨hvalid, rfl⟩ := ht
  have hrange := hvalid.initValSe
  have hval : i16 ((t.initValSe - a) * 2) = (t.initValSe - a) * 2 := by unfold i16; omega
  have hnext : t.next a = { t with
      touched := true
      pressure := Blend.halfway 511 t.pressure ((t.initValSe - a) * 2) } := if_pos hpress
  have hvalid' := hvalid.next a
  have hpressure := hvalid'.pressure.1
  rw [hnext] at hvalid' hpressure ⊢
  refine Spec.read_bind t.touched
    (fun s hs => congrArg (fun v => v.report.hysterisisApplied) hs) ?_
  refine Spec.bind (Q := fun _ w =>
    w = ⟨⟨t.threshold + 10, true, t.pressure, t.touched, t.entry⟩, channel⟩) ?_ ?_
  · refine Spec.when (fun hnot => Spec.mono (setHysterisis_se 10 true) ?_) fun hnot => ?_
    · rintro - w rfl
      have hrest : t.initValSe = t.threshold := by
        rw [SePad.initValSe, if_neg (by simpa using hnot), Int.add_zero]
      have hthreshold := hvalid.threshold
      have hsum : i16 (t.initValSe + 10) = t.threshold + 10 := by unfold i16; omega
      rw [hsum]
    · have htouched : t.touched = true := by simpa using hnot
      rw [SePad.initValSe, if_pos htouched, htouched]
  · rintro - w rfl
    rw [hval]
    refine Spec.bind (spec_critical_of (fun _ _ _ => rfl) (reportTouch_se hpressure)) ?_
    rintro - w rfl
    refine Spec.act _ (fun s hs => hs) ⟨hvalid', ?_⟩
    simp [SePad.initValSe, SePad.entry]

theorem singleEndedRelease_se (ht : r.Shows t) {a : Int} (hrelease : ¬0 < t.initValSe - a) :
    Spec (sensedPad p ok) (seView p) ⟨r, channel⟩ (singleEndedRelease p) fun _ w =>
      w.report.Shows (t.next a) := by
  obtain ⟨hvalid, rfl⟩ := ht
  have hnext : t.next a = { t with touched := false } := if_neg hrelease
  have hvalid' := hvalid.next a
  rw [hnext] at hvalid' ⊢
  refine Spec.read_bind t.touched
    (fun s hs => congrArg (fun v => v.report.hysterisisApplied) hs) ?_
  refine Spec.bind (Q := fun _ w =>
    w = ⟨⟨t.threshold, false, t.pressure, t.touched, t.entry⟩, channel⟩) ?_ ?_
  · refine Spec.when (fun htouched => Spec.mono (setHysterisis_se (-10) false) ?_) fun hnot => ?_
    · rintro - w rfl
      have hrest : t.initValSe = t.threshold + 10 := by rw [SePad.initValSe, if_pos htouched]
      have hthreshold := hvalid.threshold
      have hsum : i16 (t.initValSe + -10) = t.threshold := by unfold i16; omega
      rw [hsum]
    · have huntouched : t.touched = false := by simpa using hnot
      rw [SePad.initValSe, if_neg hnot, Int.add_zero, huntouched]
  · rintro - w rfl
    refine spec_critical_of (fun _ _ _ => rfl) ?_
    refine writePadData_se (x := 0) (fun _ _ => rfl) (Int.le_refl 0) (by decide) ?_
    refine Spec.map (fun v => ⟨{ v.report with played := false }, v.channel⟩)
      (fun s => by rw [seView, setPlayed_seReport]; rfl) ⟨hvalid', ?_⟩
    simp [SePad.initValSe, SePad.entry]

/-- A conversion of the pad that is selected. -/
theorem adcRead_se {α : Type} {q : Int → Code α} {Q : α → SeView → Prop}
    (h : ∀ raw : BitVec 10, ok raw = true →
      Spec (sensedPad p ok) (seView p) ⟨r, p⟩ (q raw.toNat) Q) :
    Spec (sensedPad p ok) (seView p) ⟨r, p⟩ ((adcRead .singleEnded .adc4).bind q) Q := by
  refine Spec.bind (Q := fun (a : Int) (w : SeView) => w = (⟨r, p⟩ : SeView) ∧
    ∃ raw : BitVec 10, ok raw = true ∧ a = raw.toNat) ?_ ?_
  · refine Spec.act_bind _ (fun s hs => hs) (Spec.atomic_bind_of_admits fun i s hs hi => ?_)
    refine Spec.ret ⟨hs, i.adc, ?_, adcResult_of_singleEnded i.adc⟩
    have hchannel : s.ports.channel = p := congrArg SeView.channel hs
    simpa [sensedPad, hchannel] using hi
  · rintro _ _ ⟨rfl, raw, hraw, rfl⟩
    exact h raw hraw

/-- **The branches of main are the steps of the machine.** -/
theorem scanPressurePad_se (ht : r.Shows t) :
    Spec (sensedPad p ok) (seView p) ⟨r, p⟩ (scanPressurePad p) fun x w =>
      ∃ raw : BitVec 10, ok raw = true ∧ x.2 = t.event raw.toNat ∧
        w.report.Shows (t.next raw.toNat) := by
  have hrange := ht.1.initValSe
  have hinitValSe : r.initValSe = t.initValSe := congrArg SeReport.initValSe ht.2
  refine Spec.read_bind t.initValSe (fun s hs => ?_) ?_
  · rw [← hinitValSe]
    exact congrArg (fun v => v.report.initValSe) hs
  refine adcRead_se fun raw hraw => ?_
  have hbound := raw.isLt
  have hval : i16 (t.initValSe - raw.toNat) = t.initValSe - raw.toNat := by unfold i16; omega
  rw [hval]
  refine Spec.ite (fun hpress => ?_) fun hrelease => ?_
  · refine Spec.bind (singleEndedPress_se ht (by omega) hpress) fun _ w hw => Spec.ret ?_
    exact ⟨raw, hraw, (if_pos hpress).symm, hw⟩
  · refine Spec.bind (singleEndedRelease_se ht hrelease) fun _ w hw => Spec.ret ?_
    exact ⟨raw, hraw, (if_neg hrelease).symm, hw⟩

/-! ## Calibration -/

theorem delay_se {α : Type} (pad : Nat) {q : Unit → Code α} {Q : α → SeView → Prop}
    (h : Spec (sensedPad p ok) (seView p) v (q ()) Q) :
    Spec (sensedPad p ok) (seView p) v ((delay pad).bind q) Q :=
  Spec.keeps_bind (delay_keeps (fun _ _ => rfl) pad) fun _ => h

theorem calibratePressurePad_se :
    Spec (sensedPad p ok) (seView p) v (calibratePressurePad p) fun _ w =>
      ∃ raw : BitVec 10, ok raw = true ∧ w.report.initValSe = raw.toNat - 40 := by
  refine Spec.act_bind ⟨v.report, p⟩ (fun s hs => ?_) (delay_se p (adcRead_se fun raw hraw => ?_))
  · rw [← hs]
    rfl
  have hbound := raw.isLt
  have hval : i16 (raw.toNat - 40) = raw.toNat - 40 := by unfold i16; omega
  refine padsAct_se (fun r => { r with initValSe := raw.toNat - 40 }) (fun s => ?_) ?_
  · simp only [seReport, Function.update_self, hval]
  · exact Spec.act _ (fun s hs => hs) ⟨raw, hraw, rfl⟩

theorem calibratePressurePad_keepsSe (hpad : pad ≠ p) : KeepsSe p (calibratePressurePad pad) := by
  refine Keeps.bind (Keeps.act fun _ => rfl) fun _ => ?_
  refine Keeps.bind (delay_keeps (fun _ _ => rfl) pad) fun _ => ?_
  refine Keeps.bind (adcRead_keeps (fun _ _ => rfl) _ _) fun a => ?_
  refine Keeps.bind (padsAct_keepsSe fun _ => ?_) fun _ => Keeps.act fun _ => rfl
  exact ⟨Function.update_of_ne hpad.symm _ _, rfl, rfl, rfl⟩

/-- The second loop finds the threshold. -/
theorem calibratePressurePads_se (h40 : 40 ≤ p) (h47 : p < 47) :
    Spec (sensedPad p ok) (seView p) v (forEach (List.range' 40 8) calibratePressurePad) fun _ w =>
      ∃ raw : BitVec 10, ok raw = true ∧ w.report.initValSe = raw.toNat - 40 := by
  refine Spec.mono (Spec.forEach_each (fun (pad : Nat) (w : SeView) => pad = p →
    ∃ raw : BitVec 10, ok raw = true ∧ w.report.initValSe = raw.toNat - 40) fun pad _ w => ?_) ?_
  · by_cases hpad : pad = p
    · rw [hpad]
      exact Spec.mono calibratePressurePad_se fun _ u hu => ⟨fun _ => hu, fun _ _ _ => hu⟩
    · refine Spec.mono (spec_of_keepsSe (calibratePressurePad_keepsSe hpad)) fun _ u hu => ?_
      rw [hu]
      exact ⟨fun h => absurd h hpad, fun _ h => h⟩
  · exact fun _ w hw => hw p (Or.inl (List.mem_range'_1.mpr (by omega))) rfl

theorem genericHIDClear_se : Spec (sensedPad p ok) (seView p) v genericHIDClear fun _ w =>
    w = ⟨{ v.report with entry := clearedTo 96 p v.report.entry }, v.channel⟩ := by
  refine Spec.forEach_range' (fun k (w : SeView) =>
    w = ⟨{ v.report with entry := clearedTo k p v.report.entry }, v.channel⟩)
    (fun k _ _ w hw => ?_) ?_
  · refine Spec.act _ (fun s hs => ?_) rfl
    rw [hw] at hs
    have hentry : s.hid.entry p = clearedTo k p v.report.entry :=
      congrArg (fun w => w.report.entry) hs
    show (⟨{ seReport p s with entry := (s.hid.fill k 1 0).entry p }, s.ports.channel⟩ : SeView) = _
    rw [entry_fill_byte hentry, show seReport p s = _ from congrArg SeView.report hs,
      show s.ports.channel = _ from congrArg SeView.channel hs]
  · rw [clearedTo_start]

theorem calibrateReset_se (h47 : p < 47) :
    Spec (sensedPad p ok) (seView p) ⟨r, channel⟩ calibrateReset fun _ w =>
      w.report = ⟨r.initValSe, false, 0, false, (0, 0)⟩ := by
  have hplayed : p < numPlayed := Nat.lt_trans h47 (by decide)
  have hpad : p < numPads := Nat.lt_succ_of_lt h47
  refine Spec.bind genericHIDClear_se ?_
  rintro _ w rfl
  rw [clearedTo_end h47]
  refine padsAct_se (fun r => { r with played := false }) (fun s => ?_) ?_
  · simp only [seReport, zeroed, if_pos hplayed]
  refine padsAct_se id (fun s => rfl) ?_
  refine padsAct_se (fun r => { r with hysterisisApplied := false }) (fun s => ?_) ?_
  · simp only [seReport, zeroed, if_pos hpad]
  refine padsAct_se id (fun s => rfl) ?_
  refine Spec.map (fun v => ⟨{ v.report with filtered := 0 }, v.channel⟩) (fun s => ?_) rfl
  simp only [seView, seReport, zeroed, if_pos hpad]

/-- **Calibration puts the machine in its first state.** -/
theorem calibrate_se (h40 : 40 ≤ p) (h47 : p < 47) :
    Spec (sensedPad p ok) (seView p) v calibrate fun _ w =>
      ∃ raw : BitVec 10, ok raw = true ∧ w.report.Shows (.calibrated raw.toNat) := by
  refine Spec.bind Spec.top fun _ v₁ _ => ?_
  refine Spec.bind (calibratePressurePads_se h40 h47) ?_
  rintro - ⟨r, channel⟩ ⟨raw, hraw, hthreshold⟩
  refine Spec.keeps_bind (Keeps.atomic fun _ _ => rfl) fun codes => ?_
  refine padsAct_se id (fun s => rfl) ?_
  refine Spec.bind (calibrateReset_se h47) fun _ w hw => Spec.ret ⟨raw, hraw, ?_⟩
  refine ⟨SePad.calibrated_valid raw, ?_⟩
  have hinitValSe : r.initValSe = raw.toNat - 40 := hthreshold
  rw [hw, id, hinitValSe]
  simp [SePad.calibrated, SePad.initValSe, SePad.entry]

/-! ## One iteration -/

/-- What a calibration makes of the machine, if there is one. -/
def SeBefore (ok : BitVec 10 → Bool) (codes : Option (Nat → Nat)) (t u : SePad) : Prop :=
  if codes.isSome then ∃ raw : BitVec 10, ok raw = true ∧ u = .calibrated raw.toNat else u = t

/-- What an iteration is to the machine of the pad `p`: nothing, or a step. -/
def SeStep (p : Nat) (ok : BitVec 10 → Bool) (t : SePad) (o : Outcome) (u : SePad) : Prop :=
  ∃ t₁, SeBefore ok o.recalibrated t t₁ ∧
    if o.pad = p then
      ∃ raw : BitVec 10, ok raw = true ∧ o.event = t₁.event raw.toNat ∧ u = t₁.next raw.toNat
    else u = t₁

theorem resetButton_se (h40 : 40 ≤ p) (h47 : p < 47) (ht : v.report.Shows t) :
    Spec (sensedPad p ok) (seView p) v resetButton fun codes w =>
      ∃ t₁, SeBefore ok codes t t₁ ∧ w.report.Shows t₁ := by
  have h53 : 53 ≠ p := by omega
  refine Spec.keeps_bind (Keeps.atomic fun _ _ => rfl) fun up => Spec.ite (fun _ => ?_) fun _ => ?_
  · refine Spec.bind (spec_of_keepsSe (setPlayed_keepsSe h53 false)) fun _ w hw => Spec.ret ?_
    exact ⟨t, rfl, hw ▸ ht⟩
  · refine Spec.bind (spec_of_keepsSe (setPlayed_keepsSe h53 true)) fun _ w _ => ?_
    refine Spec.bind (Q := fun _ u => ∃ raw : BitVec 10, ok raw = true ∧
      SeReport.Shows (SeView.report u) (.calibrated raw.toNat)) ?_ fun codes u hu => Spec.ret ?_
    · refine spec_critical_of (fun _ _ _ => rfl) ?_
      exact Spec.keeps_bind (Keeps.act fun _ => rfl) fun _ => calibrate_se h40 h47
    · obtain ⟨raw, hraw, hu⟩ := hu
      exact ⟨_, ⟨raw, hraw, rfl⟩, hu⟩

theorem eliteScan_keepsSe (hp : p < numPads) (pad : Nat) : KeepsSe p (eliteScan pad) := by
  refine critical_keepsSe (Keeps.forEach fun i _ => ?_)
  refine Keeps.bind (Keeps.act fun _ => rfl) fun _ => Keeps.atomic fun x s => ?_
  have hbase : ∀ n ∈ some numPads, numPads ≤ n := fun n hn => (Option.mem_some_iff.mp hn).le
  have hframe := buttonsAndDialsRead_frame ⟨s.elite, s.hid, s.pads.beingPlayed⟩ i x.pinD hbase
  have hlt : p < 48 := hp
  have hplayed := hframe.played p hp
  have hentry := hframe.buffer
  simp only [SameOn, seReport, Hid.entry, hplayed, hentry _ (show 1 + p * 2 < 97 by omega),
    hentry _ (show 2 + p * 2 < 97 by omega)]

/-- The step after the calibration. -/
theorem scanRest_se (h40 : 40 ≤ p) (hp : p < numPads) (i pad : Nat) (ht : v.report.Shows t) :
    Spec (sensedPad p ok) (seView p) v (scanRest i pad) fun x w =>
      ∃ u, (if pad = p then
        ∃ raw : BitVec 10, ok raw = true ∧ x.2 = t.event raw.toNat ∧ u = t.next raw.toNat
      else u = t) ∧ w.report.Shows u := by
  refine Spec.keeps_bind (Keeps.atomic fun _ _ => rfl) fun bias => ?_
  refine Spec.keeps_bind (Keeps.act fun _ => rfl) fun _ => ?_
  refine Spec.bind (spec_of_keepsSe (eliteScan_keepsSe hp pad)) fun _ w hw => ?_
  refine Spec.map_bind (fun v => ⟨v.report, pad⟩) (fun s => rfl) (delay_se pad ?_)
  rw [← hw] at ht
  by_cases hpad : pad = p
  · subst hpad
    refine Spec.ite (fun hlt => absurd h40 (Nat.not_le.mpr hlt)) fun _ => ?_
    refine Spec.mono (scanPressurePad_se ht) ?_
    rintro x w ⟨raw, hraw, hevent, hw⟩
    exact ⟨_, (if_pos rfl).mpr ⟨raw, hraw, hevent, rfl⟩, hw⟩
  · refine Spec.mono (spec_of_keepsSe (scanSelected_keepsSe hpad)) fun x u hu => ?_
    exact ⟨t, (if_neg hpad).mpr rfl, hu ▸ ht⟩

/-- **The step lemma: whatever interrupts it, an iteration of main is a step of each machine.** -/
theorem scanPad_se (h40 : 40 ≤ p) (h47 : p < 47) (i : Nat) (ht : v.report.Shows t) :
    Spec (sensedPad p ok) (seView p) v (scanPad i) fun o w =>
      ∃ u, SeStep p ok t o u ∧ w.report.Shows u := by
  have hp : p < numPads := Nat.lt_succ_of_lt h47
  refine Spec.keeps_bind (Keeps.atomic fun _ _ => rfl) fun pad => ?_
  refine Spec.bind (resetButton_se h40 h47 ht) ?_
  rintro codes v₁ ⟨t₁, hbefore, ht₁⟩
  refine Spec.bind (scanRest_se h40 hp i pad ht₁) ?_
  rintro x w ⟨u, hstep, hu⟩
  exact Spec.ret ⟨u, ⟨t₁, hbefore, hstep⟩, hu⟩

/-! ## Every run -/

/-- What iterations are to the machine, one after the other. -/
inductive SeSteps (p : Nat) (ok : BitVec 10 → Bool) (t : SePad) : List Outcome → SePad → Prop where
  | refl : SeSteps p ok t [] t
  | step {os : List Outcome} {o : Outcome} {u w : SePad} (h : SeSteps p ok t os u)
      (hstep : SeStep p ok u o w) : SeSteps p ok t (os ++ [o]) w

theorem SeSteps.trans {os os' : List Outcome} {u w : SePad} (h : SeSteps p ok t os u)
    (h' : SeSteps p ok u os' w) : SeSteps p ok t (os ++ os') w := by
  induction h' with
  | refl => exact (List.append_nil os).symm ▸ h
  | step _ hstep ih =>
    rw [← List.append_assoc]
    exact ih.step hstep

theorem endPass_se : Spec (sensedPad p ok) (seView p) v endPass fun _ w => w.report = v.report := by
  refine spec_of_keepsSe (Keeps.mono (fun s t hst => ?_) endPass_keeps)
  simp only [SameOn, passView, Prod.mk.injEq, Pads.mk.injEq] at hst
  obtain ⟨⟨h₁, h₂, -, -, -, h₆, -, h₈, -, -, -⟩, -, hhid, -⟩ := hst
  simp only [SameOn, seReport, h₁, h₂, h₆, h₈, hhid]

theorem startUp_se (h40 : 40 ≤ p) (h47 : p < 47) :
    Spec (sensedPad p ok) (seView p) v startUp fun _ w =>
      ∃ raw : BitVec 10, ok raw = true ∧ w.report.Shows (.calibrated raw.toNat) := by
  refine Spec.bind Spec.top fun _ v₁ _ => ?_
  refine Spec.bind Spec.top fun _ v₂ _ => Spec.bind Spec.top fun _ v₃ _ => ?_
  refine Spec.bind (calibrate_se h40 h47) fun codes w hw => ?_
  exact Spec.act_bind w (fun s hs => hs) (Spec.ret hw)

/-- What a step of the loop is to the machine. -/
theorem LoopStep.se (h40 : 40 ≤ p) (h47 : p < 47) {i i' : Nat} {s s' : Firmware}
    {o : Option Outcome} (h : LoopStep (sensedPad p ok) i s o i' s') (ht : (seReport p s).Shows t) :
    ∃ u, SeSteps p ok t o.toList u ∧ (seReport p s').Shows u := by
  have hp : p < numPads := Nat.lt_succ_of_lt h47
  cases h with
  | pad sched hi hrun =>
    obtain ⟨u, hstep, hu⟩ := (scanPad_se (v := seView p s) h40 h47 i ht).run (seView_sound hp) hrun
    exact ⟨u, SeSteps.refl.step hstep, hu⟩
  | pass sched hrun =>
    have hreport : seReport p s' = seReport p s :=
      (endPass_se (v := seView p s)).run (seView_sound hp) hrun
    exact ⟨t, .refl, hreport ▸ ht⟩

/-- **The run lemma.** -/
theorem ScanRun.se (h40 : 40 ≤ p) (h47 : p < 47) {os : List Outcome} {i : Nat} {s : Firmware}
    (h : ScanRun (sensedPad p ok) os i s) : ∃ raw : BitVec 10, ∃ u, ok raw = true ∧
      SeSteps p ok (.calibrated raw.toNat) os u ∧ (seReport p s).Shows u := by
  have hp : p < numPads := Nat.lt_succ_of_lt h47
  induction h with
  | @start s₀ s codes sched hrun =>
    obtain ⟨raw, hraw, hs⟩ := (startUp_se (v := seView p s₀) h40 h47).run (seView_sound hp) hrun
    exact ⟨raw, _, hraw, .refl, hs⟩
  | @step os i i' s t o h hstep ih =>
    obtain ⟨raw, u, hraw, hsteps, hu⟩ := ih
    obtain ⟨w, hnext, hw⟩ := hstep.se h40 h47 hu
    exact ⟨raw, w, hraw, hsteps.trans hnext, hw⟩

/-- It is the same from any state on. -/
theorem LoopRun.se (h40 : 40 ≤ p) (h47 : p < 47) {os : List Outcome} {i₀ i : Nat}
    {s₀ s : Firmware} (h : LoopRun (sensedPad p ok) i₀ s₀ os i s) (ht : (seReport p s₀).Shows t) :
    ∃ u, SeSteps p ok t os u ∧ (seReport p s).Shows u := by
  induction h with
  | refl => exact ⟨t, .refl, ht⟩
  | step h hstep ih =>
    obtain ⟨u, hsteps, hu⟩ := ih
    obtain ⟨w, hnext, hw⟩ := hstep.se h40 h47 hu
    exact ⟨w, hsteps.trans hnext, hw⟩

end SphereWare
