import SphereWare.Spec.ScanView

/-!
# What one iteration does

For each branch of the main loop: the one pad whose data it changes and what it makes of them
(`OnlyPad`). Everything else about the pads and the scan order stays as it was.
-/

namespace SphereWare

open Interrupt Prog

/-! ## The data of one pad -/

/-- What main keeps of a pad, and what the host sees of it. -/
structure PadReport where
  played : Bool
  sent : Bool
  filtered : Int
  entry : Nat × Nat

def ScanView.report (v : ScanView) (p : Nat) : PadReport :=
  ⟨v.pads.beingPlayed p, v.pads.velocitySent p, v.pads.filteredVal p, v.entries p⟩

/-- The scan order and the bias codes are the same. -/
def SameOrder (v w : ScanView) : Prop :=
  w.pads.padOrder = v.pads.padOrder ∧ w.pads.r2rVal = v.pads.r2rVal

/-- The data of all pads but `pad` are the same. -/
structure Elsewhere (pad : Nat) (v w : ScanView) : Prop where
  other : ∀ q < numPads, q ≠ pad → w.report q = v.report q
  order : SameOrder v w

/-- Of all pads only `pad` has changed, to `r`. -/
structure OnlyPad (pad : Nat) (r : PadReport) (v w : ScanView) : Prop extends
    Elsewhere pad v w where
  self : w.report pad = r

theorem Elsewhere.refl (pad : Nat) (v : ScanView) : Elsewhere pad v v :=
  ⟨fun _ _ _ => rfl, rfl, rfl⟩

theorem Elsewhere.trans {pad : Nat} {u v w : ScanView} (h₁ : Elsewhere pad u v)
    (h₂ : Elsewhere pad v w) : Elsewhere pad u w where
  other q hq hne := (h₂.other q hq hne).trans (h₁.other q hq hne)
  order := ⟨h₂.order.1.trans h₁.order.1, h₂.order.2.trans h₁.order.2⟩

/-- The highest deflection among the samples of a strike. -/
def peak (l : List Sample) : Int := (l.map Sample.val).foldl max 0

theorem velocityOf_range {x : Int} (h : 0 ≤ x) : 0 ≤ velocityOf x ∧ velocityOf x ≤ 127 := by
  unfold velocityOf
  split <;> omega

theorem velocityOf_eq_min (x : Int) : velocityOf x = min 127 (x / 2) := by
  unfold velocityOf
  split <;> omega

theorem le_foldl_max (l : List Int) (a : Int) : a ≤ l.foldl max a := by
  induction l generalizing a with
  | nil => exact le_refl a
  | cons b bs ih => exact le_trans (le_max_left a b) (ih (max a b))

variable {v : ScanView}

/-! ## Sampling -/

theorem sampleVelocityPad_spec (pad : Nat) :
    Spec avr scanView v (sampleVelocityPad pad) fun x w => w = v ∧ x.dac = v.dac := by
  refine Spec.read_bind v.dac (by rintro t rfl; rfl) ?_
  refine Spec.keeps_bind (adcRead_keeps (fun _ _ => rfl) _ _) fun a => ?_
  refine Spec.keeps_bind (Keeps.atomic fun _ _ => rfl) fun threshold => ?_
  exact Spec.ret ⟨rfl, rfl⟩

/-- The loop finds the highest sample. -/
theorem peakLoop_spec (pad n : Nat) (p : Int) :
    Spec avr scanView v (peakLoop pad n p) fun r w =>
      w = v ∧ r.1 = (r.2.map Sample.val).foldl max p ∧ ∀ x ∈ r.2, x.dac = v.dac := by
  induction n generalizing p with
  | zero => exact Spec.ret ⟨rfl, rfl, fun x hx => absurd hx List.not_mem_nil⟩
  | succ n ih =>
    refine Spec.bind (sampleVelocityPad_spec pad) ?_
    rintro x w ⟨rfl, hdac⟩
    refine Spec.bind (ih _) ?_
    rintro r u ⟨rfl, hpeak, hdacs⟩
    have hmax : (if p < x.val then x.val else p) = max p x.val := by
      split <;> omega
    refine Spec.ret ⟨rfl, ?_, fun y hy => ?_⟩
    · rw [List.map_cons, List.foldl_cons, ← hmax]
      exact hpeak
    · rcases List.mem_cons.mp hy with rfl | hy
      · exact hdac
      · exact hdacs y hy

/-! ## The branches -/

theorem adjustInitVal_keeps (pad : Nat) (d : BitVec 16) :
    (adjustInitVal pad d).Keeps (SameOn scanView) :=
  Keeps.bind (Keeps.act fun _ => rfl) fun _ => Keeps.act fun _ => rfl

/-- A step of main that writes the entry of a pad in the report. -/
theorem spec_hidAct_bind {α : Type} {f : Firmware → Hid} (e : Nat → Nat × Nat)
    {q : Unit → Code α} {Q : α → ScanView → Prop} (hf : ∀ t, scanView t = v → (f t).entries = e)
    (h : Spec avr scanView { v with entries := e } (q ()) Q) :
    Spec avr scanView v ((act fun s => { s with hid := f s }).bind q) Q := by
  refine Spec.act_bind _ (fun t ht => ?_) h
  rw [← hf t ht, ← ht]
  rfl

theorem entries_eq {t : Firmware} (ht : scanView t = v) : t.hid.entries = v.entries :=
  congrArg ScanView.entries ht

theorem pads_eq {t : Firmware} (ht : scanView t = v) : t.pads = v.pads :=
  congrArg ScanView.pads ht

/-- **A strike reports the velocity of its highest sample.** -/
theorem strike_spec {pad : Nat} (hpad : pad < numPads) {val : Int} (hval : 0 < val) :
    Spec avr scanView v (strike pad val) fun l w =>
      let vel := velocityOf ((l.map Sample.val).foldl max val)
      (∀ x ∈ l, x.dac = v.dac) ∧
        OnlyPad pad ⟨true, true, vel, (vel.toNat, vel.toNat)⟩ v w := by
  refine Spec.bind (peakLoop_spec pad 200 val) ?_
  rintro r w ⟨rfl, hpeak, hdac⟩
  obtain ⟨hvel₀, hvel₁⟩ : 0 ≤ velocityOf r.1 ∧ velocityOf r.1 ≤ 127 := by
    refine velocityOf_range (le_trans hval.le ?_)
    rw [hpeak]
    exact le_foldl_max _ _
  have hbyte : (UInt8.ofInt (velocityOf r.1)).toNat % 128 = (velocityOf r.1).toNat := by
    rw [toNat_ofInt hvel₀ (by omega)]
    omega
  refine spec_critical_bind (spec_hidAct_bind
    (Function.update w.entries pad ((velocityOf r.1).toNat, (velocityOf r.1).toNat))
    (fun t ht => ?_) ?_)
  · rw [entries_writePadData t.hid hpad hvel₀ (by omega), entries_eq ht, hbyte]
  · refine spec_padsAct ?_
    refine spec_padsAct_bind (spec_padsAct_bind (spec_padsAct_bind ?_))
    refine Spec.keeps_bind (adjustInitVal_keeps _ _) fun _ => Spec.ret ⟨hdac, ?_⟩
    rw [← hpeak]
    refine ⟨⟨fun q hq hne => ?_, rfl, rfl⟩, ?_⟩
    · simp only [ScanView.report, Pads.setPlayed, Pads.setVelocitySent, Pads.setFiltered,
        Pads.addLedSum, Function.update_of_ne hne]
    · simp only [ScanView.report, Pads.setPlayed, Pads.setVelocitySent, Pads.setFiltered,
        Pads.addLedSum, Function.update_self]

/-- The anti-sticky branch sets the pressure to its maximum and touches nothing else of interest. -/
theorem antiSticky_spec (pad : Nat) :
    Spec avr scanView v (antiSticky pad) fun _ w => ∃ applied : Nat → Bool,
      w = { v with pads := { v.pads.setFiltered pad 511 with antiStickyApplied := applied } } := by
  unfold antiSticky
  refine spec_padsAct_bind ?_
  refine Spec.read_bind (v.pads.antiStickyApplied pad)
    (fun t ht => by rw [pads_eq ht]; rfl) ?_
  refine Spec.when (fun _ => ?_) fun _ => ⟨v.pads.antiStickyApplied, rfl⟩
  refine spec_critical (Spec.keeps_bind (standbyAct_keeps _) fun _ => ?_)
  exact spec_padsAct ⟨_, rfl⟩

/-- The new pressure: half of the old one and half of the deflection, at most 511. -/
def nextPressure (filtered val : Int) : Int := min 511 (filter filtered val)

theorem nextPressure_range {filtered val : Int} (hf : 0 ≤ filtered) (hv : 0 < val) :
    0 ≤ nextPressure filtered val ∧ nextPressure filtered val ≤ 511 := by
  have hfilter : 0 ≤ filter filtered val := Int.tdiv_nonneg (by omega) (by omega)
  unfold nextPressure
  omega

/-- Whether or not the anti-sticky branch is run, the pressure is the limited one. -/
theorem limitPressure_spec (pad : Nat) (f : Int) (hf : v.pads.filteredVal pad = f) :
    Spec avr scanView v (when (511 ≤ f) (antiSticky pad)) fun _ w => ∃ applied : Nat → Bool,
      w = { v with pads := { v.pads.setFiltered pad (min 511 f) with
        antiStickyApplied := applied } } := by
  refine Spec.when (fun h => ?_) fun h => ⟨v.pads.antiStickyApplied, ?_⟩
  · rw [min_eq_left h]
    exact antiSticky_spec pad
  · rw [min_eq_right (by omega), ← hf, Pads.setFiltered, Function.update_eq_self]

/-- **A pressure update keeps the velocity of the press.** -/
theorem pressureUpdate_spec {pad : Nat} (hpad : pad < numPads) {val : Int} (hval : 0 < val)
    (hfiltered : 0 ≤ v.pads.filteredVal pad) :
    Spec avr scanView v (pressureUpdate pad val) fun _ w =>
      let f := nextPressure (v.pads.filteredVal pad) val
      OnlyPad pad ⟨true, v.pads.velocitySent pad, f, (f.toNat, (v.entries pad).2)⟩ v w := by
  obtain ⟨hf₀, hf₁⟩ := nextPressure_range hfiltered hval
  unfold pressureUpdate
  refine spec_padsAct_bind ?_
  refine Spec.read_bind (filter (v.pads.filteredVal pad) val) (fun t ht => ?_) ?_
  · rw [pads_eq ht]
    exact Function.update_self _ _ _
  refine Spec.bind (limitPressure_spec pad _ (Function.update_self _ _ _)) ?_
  rintro - w ⟨applied, rfl⟩
  have hself (t : Firmware)
      (ht : t.pads.filteredVal pad = nextPressure (v.pads.filteredVal pad) val)
      (hentries : t.hid.entries = v.entries) :
      (t.hid.writePressureOnly pad (t.pads.filteredVal pad)).entries = Function.update v.entries pad
        ((nextPressure (v.pads.filteredVal pad) val).toNat, (v.entries pad).2) := by
    rw [ht, entries_writePressureOnly t.hid hpad hf₀ hf₁, hentries]
  refine spec_critical_bind (spec_hidAct_bind _ (fun t ht => hself t ?_ (by rw [entries_eq ht])) ?_)
  · rw [pads_eq ht]
    exact Function.update_self _ _ _
  · refine spec_padsAct (spec_padsAct ⟨⟨fun q hq hne => ?_, rfl, rfl⟩, ?_⟩)
    · simp only [ScanView.report, Pads.setPlayed, Pads.setFiltered, Pads.addLedSum,
        Function.update_of_ne hne]
    · simp only [ScanView.report, Pads.setPlayed, Pads.setFiltered, Pads.addLedSum,
        Function.update_self, nextPressure]

/-- What the sticky timeout may change. -/
theorem scanView_stickyTimeout (pad : Nat) (t : Firmware) :
    ∃ applied count, scanView (stickyTimeout pad t) = { scanView t with
      pads := { t.pads with antiStickyApplied := applied, stickyCount := count } } := by
  unfold stickyTimeout
  simp only
  split
  · split
    · exact ⟨_, _, rfl⟩
    · exact ⟨t.pads.antiStickyApplied, _, rfl⟩
  · exact ⟨t.pads.antiStickyApplied, t.pads.stickyCount, rfl⟩

theorem release_spec {pad : Nat} (hpad : pad < numPads) :
    Spec avr scanView v (release pad) fun _ w =>
      OnlyPad pad ⟨false, false, v.pads.filteredVal pad, (0, 0)⟩ v w := by
  unfold release
  refine spec_critical_bind (Spec.atomic_bind fun _ t ht => ?_)
  obtain ⟨applied, count, hsticky⟩ := scanView_stickyTimeout pad t
  rw [ht] at hsticky
  show Spec avr scanView (scanView (stickyTimeout pad t)) _ _
  rw [hsticky, pads_eq ht]
  refine spec_hidAct_bind (Function.update v.entries pad (0, 0)) (fun u hu => ?_) ?_
  · rw [entries_writePadData u.hid hpad (by omega) (by omega), entries_eq hu]
    rfl
  · refine spec_padsAct (spec_padsAct_bind ?_)
    refine Spec.keeps (adjustInitVal_keeps _ _) fun _ => ⟨⟨fun q hq hne => ?_, rfl, rfl⟩, ?_⟩
    · simp only [ScanView.report, Pads.setPlayed, Pads.setVelocitySent, Function.update_of_ne hne]
    · simp only [ScanView.report, Pads.setPlayed, Pads.setVelocitySent, Function.update_self]

/-! ## One pad -/

/-- What main does with a velocity pad, by the branch it takes. -/
def BranchStep (pad : Nat) (samples : List Sample) (v w : ScanView) : PadEvent → Prop
  | .idle => v.pads.velocitySent pad = false ∧ w = v
  | .strike =>
    let vel := velocityOf (peak samples)
    v.pads.velocitySent pad = false ∧ OnlyPad pad ⟨true, true, vel, (vel.toNat, vel.toNat)⟩ v w
  | .pressure =>
    v.pads.velocitySent pad = true ∧ ∃ f, 0 ≤ f ∧ f ≤ 511 ∧
      OnlyPad pad ⟨true, true, f, (f.toNat, (v.entries pad).2)⟩ v w
  | .release =>
    v.pads.velocitySent pad = true ∧
      OnlyPad pad ⟨false, false, v.pads.filteredVal pad, (0, 0)⟩ v w

theorem scanVelocityPad_spec {pad : Nat} (hpad : pad < numPads)
    (hfiltered : v.pads.velocitySent pad = true → 0 ≤ v.pads.filteredVal pad) :
    Spec avr scanView v (scanVelocityPad pad) fun r w =>
      r.1 ≠ [] ∧ (∀ x ∈ r.1, x.dac = v.dac) ∧ BranchStep pad r.1 v w r.2 := by
  refine Spec.bind (sampleVelocityPad_spec pad) ?_
  rintro x w ⟨rfl, hdac⟩
  have hsingle : ∀ y ∈ [x], y.dac = w.dac := by
    intro y hy
    rw [List.mem_singleton.mp hy, hdac]
  refine Spec.read_bind (w.pads.velocitySent pad) (fun t ht => by rw [pads_eq ht]) ?_
  refine Spec.ite (fun hval => Spec.ite (fun hsent => ?_) fun hsent => ?_)
    fun hval => Spec.ite (fun hsent => ?_) fun hsent => ?_
  · refine Spec.bind (pressureUpdate_spec hpad hval (hfiltered hsent)) fun _ u hu => Spec.ret ?_
    rw [hsent] at hu
    exact ⟨by simp, hsingle, hsent, _, (nextPressure_range (hfiltered hsent) hval).1,
      (nextPressure_range (hfiltered hsent) hval).2, hu⟩
  · refine Spec.bind (strike_spec hpad hval) fun l u hu => Spec.ret ?_
    have hpeak : (l.map Sample.val).foldl max x.val = peak (x :: l) := by
      rw [peak, List.map_cons, List.foldl_cons, max_eq_right hval.le]
    rw [hpeak] at hu
    refine ⟨by simp, fun y hy => ?_, by simpa using hsent, hu.2⟩
    rcases List.mem_cons.mp hy with rfl | hy
    · exact hdac
    · exact hu.1 y hy
  · refine Spec.bind (release_spec hpad) fun _ u hu => Spec.ret ?_
    exact ⟨by simp, hsingle, hsent, hu⟩
  · exact Spec.ret ⟨by simp, hsingle, by simpa using hsent, rfl⟩

/-- A step of main that changes `Pads` at one pad only. -/
theorem elsewhere_padsAct {pad : Nat} {f : Pads → Pads}
    (hother : ∀ p : Pads, ∀ q, q ≠ pad → (f p).beingPlayed q = p.beingPlayed q ∧
      (f p).velocitySent q = p.velocitySent q ∧ (f p).filteredVal q = p.filteredVal q)
    (horder : ∀ p : Pads, (f p).padOrder = p.padOrder ∧ (f p).r2rVal = p.r2rVal) :
    (padsAct f).Keeps fun s t => Elsewhere pad (scanView s) (scanView t) := by
  refine Keeps.act fun s => ⟨fun q _ hne => ?_, horder s.pads⟩
  obtain ⟨h₁, h₂, h₃⟩ := hother s.pads q hne
  simp only [ScanView.report, scanView, h₁, h₂, h₃]

theorem elsewhere_read {pad : Nat} {α : Type} (f : Firmware → α) :
    (read f : Code α).Keeps fun s t => Elsewhere pad (scanView s) (scanView t) :=
  Keeps.atomic fun _ s => Elsewhere.refl pad (scanView s)

theorem elsewhere_writePadData {pad : Nat} (hpad : pad < numPads) (value : Firmware → Int)
    (velocity : UInt8) :
    (act fun s => { s with hid := s.hid.writePadData pad (value s) velocity } : Code Unit).Keeps
      fun s t => Elsewhere pad (scanView s) (scanView t) := by
  refine Keeps.act fun s => ⟨fun q _ hne => ?_, rfl, rfl⟩
  simp only [ScanView.report, scanView, entries_writePadData_pack s.hid hpad,
    Function.update_of_ne hne]

theorem elsewhere_critical {pad : Nat} {α : Type} {r : Region} {body : Code α}
    (h : body.Keeps fun s t => Elsewhere pad (scanView s) (scanView t)) :
    (critical r body).Keeps fun s t => Elsewhere pad (scanView s) (scanView t) := by
  refine Keeps.bind (Keeps.act fun _ => Elsewhere.refl _ _) fun _ => Keeps.bind h fun _ => ?_
  exact Keeps.bind (Keeps.act fun _ => Elsewhere.refl _ _) fun _ => Keeps.ret _

theorem singleEndedPress_elsewhere {pad : Nat} (hpad : pad < numPads) (val : Int) :
    (singleEndedPress pad val).Keeps fun s t => Elsewhere pad (scanView s) (scanView t) := by
  unfold singleEndedPress
  refine Keeps.bind (elsewhere_read _) fun applied => ?_
  refine Keeps.bind (Keeps.when (Keeps.bind ?_ fun _ => ?_)) fun _ => ?_
  · exact elsewhere_padsAct (fun _ _ _ => ⟨rfl, rfl, rfl⟩) fun _ => ⟨rfl, rfl⟩
  · exact elsewhere_padsAct (fun _ _ _ => ⟨rfl, rfl, rfl⟩) fun _ => ⟨rfl, rfl⟩
  refine Keeps.bind (elsewhere_critical (Keeps.bind ?_ fun _ => ?_)) fun _ => ?_
  · exact elsewhere_padsAct (fun _ _ hne => ⟨rfl, rfl, Function.update_of_ne hne _ _⟩)
      fun _ => ⟨rfl, rfl⟩
  · refine Keeps.bind (elsewhere_read _) fun filtered => ?_
    refine Keeps.bind (Keeps.when ?_) fun _ => ?_
    · exact elsewhere_padsAct (fun _ _ hne => ⟨rfl, rfl, Function.update_of_ne hne _ _⟩)
        fun _ => ⟨rfl, rfl⟩
    · refine Keeps.bind (elsewhere_writePadData hpad _ _) fun _ => ?_
      exact elsewhere_padsAct (fun _ _ hne => ⟨Function.update_of_ne hne _ _, rfl, rfl⟩)
        fun _ => ⟨rfl, rfl⟩
  · exact elsewhere_padsAct (fun _ _ _ => ⟨rfl, rfl, rfl⟩) fun _ => ⟨rfl, rfl⟩

theorem singleEndedRelease_elsewhere {pad : Nat} (hpad : pad < numPads) :
    (singleEndedRelease pad).Keeps fun s t => Elsewhere pad (scanView s) (scanView t) := by
  unfold singleEndedRelease
  refine Keeps.bind (elsewhere_read _) fun applied => ?_
  refine Keeps.bind (Keeps.when (Keeps.bind ?_ fun _ => ?_)) fun _ => ?_
  · exact elsewhere_padsAct (fun _ _ _ => ⟨rfl, rfl, rfl⟩) fun _ => ⟨rfl, rfl⟩
  · exact elsewhere_padsAct (fun _ _ _ => ⟨rfl, rfl, rfl⟩) fun _ => ⟨rfl, rfl⟩
  refine elsewhere_critical (Keeps.bind (elsewhere_writePadData hpad _ _) fun _ => ?_)
  exact elsewhere_padsAct (fun _ _ hne => ⟨Function.update_of_ne hne _ _, rfl, rfl⟩)
    fun _ => ⟨rfl, rfl⟩

theorem scanPressurePad_spec {pad : Nat} (hpad : pad < numPads) :
    Spec avr scanView v (scanPressurePad pad) fun r w => r.1 = [] ∧ Elsewhere pad v w := by
  refine Spec.keeps_bind (Keeps.atomic fun _ _ => rfl) fun threshold => ?_
  refine Spec.keeps_bind (adcRead_keeps (fun _ _ => rfl) _ _) fun a => ?_
  have hkeeps {p : Code Unit} (hp : p.Keeps fun s t => Elsewhere pad (scanView s) (scanView t)) :
      Spec avr scanView v p fun _ w => Elsewhere pad v w :=
    Spec.of_keeps (Elsewhere.refl pad) (fun _ _ _ => Elsewhere.trans) hp
  refine Spec.ite (fun _ => ?_) fun _ => ?_
  · exact Spec.bind (hkeeps (singleEndedPress_elsewhere hpad _)) fun _ w hw => Spec.ret ⟨rfl, hw⟩
  · exact Spec.bind (hkeeps (singleEndedRelease_elsewhere hpad)) fun _ w hw => Spec.ret ⟨rfl, hw⟩

/-! ## The iteration -/

/-- The reset button either does nothing of interest or calibrates. -/
def ResetStep (v w : ScanView) : Option (Nat → Nat) → Prop
  | none => w = { v with pads := v.pads.setPlayed 53 false }
  | some codes => Calibrated codes w

theorem resetButton_spec :
    Spec avr scanView v resetButton fun codes w => ResetStep v w codes := by
  refine Spec.keeps_bind (Keeps.atomic fun _ _ => rfl) fun up => ?_
  refine Spec.ite (fun _ => spec_padsAct_bind (Spec.ret rfl)) fun _ => ?_
  refine spec_padsAct_bind (spec_critical_bind ?_)
  refine Spec.keeps_bind (standbyAct_keeps _) fun _ => ?_
  exact Spec.mono calibrate_spec fun codes w hw => Spec.ret hw

/-- What main does with the pad it has selected. -/
def SelectedStep (pad : Nat) (samples : List Sample) (event : PadEvent) (v w : ScanView) : Prop :=
  if pad < 40 then samples ≠ [] ∧ (∀ x ∈ samples, x.dac = v.dac) ∧ BranchStep pad samples v w event
  else samples = [] ∧ Elsewhere pad v w

/-- No pad that is pressed has a negative pressure. -/
def FilteredNonneg (v : ScanView) : Prop :=
  ∀ p < 40, v.pads.velocitySent p = true → 0 ≤ v.pads.filteredVal p

theorem scanSelected_spec {pad : Nat} (hpad : pad < numPads) (hv : FilteredNonneg v) :
    Spec avr scanView v (scanSelected pad) fun r w => SelectedStep pad r.1 r.2 v w := by
  refine Spec.ite (fun h => ?_) fun h => ?_
  · refine Spec.mono (scanVelocityPad_spec hpad (hv pad h)) ?_
    intro r w hr
    rw [SelectedStep, if_pos h]
    exact hr
  · refine Spec.mono (scanPressurePad_spec hpad) ?_
    intro r w hr
    rw [SelectedStep, if_neg h]
    exact hr

/-- An iteration: the reset button, the elite inputs under the bias of the position, the pad. -/
def IterationStep (i : Nat) (v : ScanView) (o : Outcome) (w : ScanView) : Prop :=
  o.pad = v.pads.padOrder i ∧ ∃ v₁ v₂, ResetStep v v₁ o.recalibrated ∧
    ElitePlayed { v₁ with dac := v₁.pads.r2rVal i } v₂ ∧ SelectedStep o.pad o.samples o.event v₂ w

theorem ResetStep.filteredNonneg {w : ScanView} {codes : Option (Nat → Nat)}
    (h : ResetStep v w codes) (hv : FilteredNonneg v) : FilteredNonneg w := by
  cases codes with
  | none =>
    obtain rfl : w = _ := h
    exact hv
  | some codes =>
    intro p hp hsent
    rw [Calibrated.sent h p (Nat.lt_trans hp (by decide))] at hsent
    exact absurd hsent (by decide)

theorem ElitePlayed.filteredNonneg {w : ScanView} (h : ElitePlayed v w) (hv : FilteredNonneg v) :
    FilteredNonneg w := by
  obtain ⟨played, rfl, -⟩ := h
  exact hv

theorem ElitePlayed.report {w : ScanView} (h : ElitePlayed v w) {p : Nat}
    (hp : p < numPads) : w.report p = v.report p := by
  obtain ⟨played, rfl, hplayed⟩ := h
  simp only [ScanView.report, hplayed p hp]

theorem scanRest_spec (i : Nat) {pad : Nat} (hpad : pad < numPads) (hv : FilteredNonneg v) :
    Spec avr scanView v (scanRest i pad) fun r w => ∃ v₂,
      ElitePlayed { v with dac := v.pads.r2rVal i } v₂ ∧ SelectedStep pad r.1 r.2 v₂ w := by
  refine Spec.read_bind (v.pads.r2rVal i) (fun t ht => by rw [pads_eq ht]) ?_
  refine r2rWrite_bind (Spec.bind (eliteScan_spec _) fun _ v₂ hv₂ => ?_)
  refine Spec.keeps_bind (muxSelect_keeps _) fun _ => ?_
  refine Spec.keeps_bind (delay_keeps (fun _ _ => rfl) _) fun _ => ?_
  have hv' : FilteredNonneg { v with dac := v.pads.r2rVal i } := hv
  exact Spec.mono (scanSelected_spec hpad (hv₂.filteredNonneg hv')) fun r w hw => ⟨v₂, hv₂, hw⟩

/-- **What an iteration of the main loop does, whatever interrupts it.** -/
theorem scanPad_spec {i : Nat} (hpad : v.pads.padOrder i < numPads) (hv : FilteredNonneg v) :
    Spec avr scanView v (scanPad i) fun o w => IterationStep i v o w := by
  refine Spec.read_bind (v.pads.padOrder i) (fun t ht => by rw [pads_eq ht]) ?_
  refine Spec.bind resetButton_spec ?_
  intro codes v₁ hv₁
  refine Spec.bind (scanRest_spec i hpad (hv₁.filteredNonneg hv)) ?_
  rintro r w ⟨v₂, hv₂, hsel⟩
  exact Spec.ret ⟨rfl, v₁, v₂, hv₁, hv₂, hsel⟩

end SphereWare
