import SphereWare.Spec.MainFrame
import SphereWare.Spec.ScanRun
import SphereWare.Spec.Standby

/-!
# Recalibration

Two recalibrations with the same readings, from any two states. They agree on everything the
detection of touches depends on, but for two things they do not write: the threshold of a pad for
which no bias code balances the bridge, and `sticky_count`.
-/

namespace SphereWare

open Interrupt Prog

/-! ## Recalibrating with given readings -/

/-- The branch of `resetButton` for the button pressed, up to the `sei()`. -/
def recalibrate : Code (Nat → Nat) :=
  critical .recalibration do
    standbyAct fun b => { b with thresholdsRaised := false }
    calibrate

/-- What the converter gives for a pad and a bias code. -/
abbrev Readings : Type := Nat → Nat → BitVec 10

/--
The processor while it recalibrates with the readings. Ticks strike wherever interrupts are on.
Only a tick that begins standby is left out, for what it adds is not left over from before.
-/
def sensing (readings : Readings) : Machine Firmware Input :=
  { avr with
    enabled := fun s => s.cpu.iflag && s.cpu.region == some .recalibration && !tickFlips s
    admits := fun s i => i.adc == readings s.ports.channel s.ports.dac }

/--
The processor with the readings, where ticks strike as long as `on` says so and interrupts are on,
but for those that begin or end standby.
-/
def sensingWhile (on : Firmware → Bool) (readings : Readings) : Machine Firmware Input :=
  { avr with
    enabled := fun s => s.cpu.iflag && on s && !tickFlips s
    admits := fun s i => i.adc == readings s.ports.channel s.ports.dac }

theorem sensing_eq (readings : Readings) :
    sensing readings = sensingWhile (fun s => s.cpu.region == some .recalibration) readings := rfl

structure RecalView where
  pads : Pads
  initVal : Nat → BitVec 16
  channel : Nat
  dac : Nat

def recalView (s : Firmware) : RecalView :=
  ⟨s.pads, s.standby.initVal, s.ports.channel, s.ports.dac⟩

theorem recalView_of_serviceView {s t : Firmware} (h : SameOn serviceView s t) :
    SameOn recalView s t := by
  simp only [SameOn, serviceView, handlerView, Prod.mk.injEq] at h
  obtain ⟨h₁, h₂, -, -, -, h₆, h₇, -⟩ := h
  simp only [SameOn, recalView, h₁, h₂, h₆, h₇]

variable {on : Firmware → Bool} {readings : Readings}

/-- **The ticks leave the view alone.** -/
theorem recalView_sound : (Rely.ofView recalView).Sound (sensingWhile on readings) := by
  intro s _ hen
  have hflips : tickFlips s = false := by
    have hen' : (s.cpu.iflag && on s && !tickFlips s) = true := hen
    rw [Bool.and_eq_true, Bool.not_eq_true'] at hen'
    exact hen'.2
  show timerHandler.wp (sensingWhile on readings) _ _ _
  unfold timerHandler
  refine wp_atomic_bind.mpr fun t ht => ⟨trivial, fun i _ => ?_⟩
  -- the handler is entered with interrupts disabled
  obtain rfl : t = avr.enter s := ht.eq_of_disabled rfl
  have hview : recalView (standbyTick (avr.enter s)) = recalView s :=
    congrArg (fun x => RecalView.mk s.pads x s.ports.channel s.ports.dac)
      (Standby.tick_of_not_flips hflips).1
  refine wp_mono (fun _ u hu => ?_) (wp_of_keeps (SameOn.refl recalView)
    (fun _ _ _ => SameOn.trans) (fun _ _ h => h) (fun _ _ _ _ => trivial)
    (Keeps.mono (fun _ _ => recalView_of_serviceView) timerServices_keeps) trivial)
  exact Eq.trans hu hview

/-! ## Balancing a bridge -/

variable {v : RecalView} {pad : Nat}

/-- The deflection `Calibrate` sees at a bias code. -/
def deflection (readings : Readings) (pad code : Nat) : Int :=
  i16 (-adcResult .diff1X10 (readings pad code))

/-- The code that balances the bridge, if there is one. -/
def biasOf (readings : Readings) (pad : Nat) : Option Nat :=
  (List.range 64).find? fun code => decide (-400 < deflection readings pad code)

/-- The threshold of a pad whose bridge balances at the code. -/
def thresholdAt (readings : Readings) (pad code : Nat) : BitVec 16 :=
  BitVec.ofInt 16 (deflection readings pad code + threshold pad)

theorem padsAct_recal {α : Type} (f : Pads → Pads) {q : Unit → Code α} {Q : α → RecalView → Prop}
    (h : Spec (sensingWhile on readings) recalView { v with pads := f v.pads } (q ()) Q) :
    Spec (sensingWhile on readings) recalView v ((padsAct f).bind q) Q :=
  Spec.map_bind (fun v => { v with pads := f v.pads }) (fun _ => rfl) h

/-- A conversion gives the reading for the pad selected and the bias in force. -/
theorem adcRead_sensed (mode : AdcMode) (chan : AdcChannel) :
    Spec (sensingWhile on readings) recalView v (adcRead mode chan) fun a w =>
      a = adcResult mode (readings v.channel v.dac) ∧ w = v := by
  refine Spec.act_bind v (fun t ht => ht) ?_
  refine Spec.atomic_bind_of_admits ?_
  rintro i t rfl hi
  have hadc : i.adc = readings t.ports.channel t.ports.dac := eq_of_beq hi
  refine Spec.ret ⟨?_, rfl⟩
  rw [show (recalView t).channel = t.ports.channel from rfl,
    show (recalView t).dac = t.ports.dac from rfl, ← hadc]

/-- What `findBias` leaves behind, having tried the codes `l`. -/
def RecalView.found (v : RecalView) (readings : Readings) (pad : Nat) (l : List Nat) : RecalView :=
  match l.find? fun code => decide (-400 < deflection readings pad code) with
  | some code =>
    { v with
      pads := { v.pads with r2rVal := Function.update v.pads.r2rVal pad code }
      initVal := Function.update v.initVal pad (thresholdAt readings pad code)
      dac := code }
  | none => { v with dac := l.getLastD v.dac }

theorem findBias_sensed (hchannel : v.channel = pad) (l : List Nat) :
    Spec (sensingWhile on readings) recalView v (findBias pad l) fun _ w =>
      w = v.found readings pad l := by
  induction l generalizing v with
  | nil => exact Spec.ret rfl
  | cons code l ih =>
    refine Spec.map_bind (fun v => { v with dac := code }) (fun _ => rfl) ?_
    refine Spec.keeps_bind (delay_keeps (fun _ _ => rfl) pad) fun _ => ?_
    refine Spec.bind (adcRead_sensed _ _) ?_
    rintro a w ⟨ha, rfl⟩
    have hval : i16 (-a) = deflection readings pad code := by rw [ha, deflection, ← hchannel]
    rw [hval]
    refine Spec.ite (fun hbalanced => ?_) fun hnot => ?_
    · refine padsAct_recal _ ?_
      refine Spec.map (fun v => { v with
        initVal := Function.update v.initVal pad (thresholdAt readings pad code) }) (fun _ => rfl) ?_
      simp only [RecalView.found, List.find?_cons, decide_eq_true hbalanced]
    · refine Spec.mono (ih hchannel) ?_
      rintro _ w rfl
      simp only [RecalView.found, List.find?_cons, decide_eq_false hnot, List.getLastD_cons]

/-- The threshold a recalibration leaves: the old one where no code balances the bridge. -/
def newThreshold (readings : Readings) (old : Nat → BitVec 16) (pad : Nat) : BitVec 16 :=
  ((biasOf readings pad).map (thresholdAt readings pad)).getD (old pad)

theorem calibrateVelocityPad_sensed (pad : Nat) :
    Spec (sensingWhile on readings) recalView v (calibrateVelocityPad pad) fun _ w =>
      w.pads.r2rVal = Function.update v.pads.r2rVal pad ((biasOf readings pad).getD 0) ∧
        w.pads.padOrder = Function.update v.pads.padOrder pad pad ∧
        w.initVal = Function.update v.initVal pad (newThreshold readings v.initVal pad) ∧
        w.dac = (biasOf readings pad).getD 63 ∧ w.pads.stickyCount = v.pads.stickyCount := by
  unfold calibrateVelocityPad
  refine padsAct_recal _ ?_
  refine Spec.map_bind (fun v => { v with channel := pad }) (fun _ => rfl) ?_
  refine Spec.keeps_bind (delay_keeps (fun _ _ => rfl) pad) fun _ => ?_
  refine padsAct_recal _ ?_
  refine Spec.bind (findBias_sensed rfl (List.range 64)) ?_
  rintro _ w rfl
  refine Spec.map (fun v => { v with
    pads := { v.pads with padOrder := Function.update v.pads.padOrder pad pad } }) (fun _ => rfl) ?_
  cases hbias : biasOf readings pad with
  | some code =>
    rw [biasOf] at hbias
    simp only [RecalView.found, hbias, newThreshold, biasOf, Function.update_idem, Option.map_some,
      Option.getD_some, and_self]
  | none =>
    rw [biasOf] at hbias
    simp only [RecalView.found, hbias, newThreshold, biasOf, Option.map_none, Option.getD_none,
      Function.update_eq_self, true_and, and_true]
    rfl

/-! ## The whole calibration -/

/-- After the first loop has come to pad `n`. -/
structure VelocityPadsDone (readings : Readings) (v : RecalView) (n : Nat) (w : RecalView) :
    Prop where
  code : ∀ p < n, w.pads.r2rVal p = (biasOf readings p).getD 0
  order : ∀ p < n, w.pads.padOrder p = p
  done : ∀ p < n, w.initVal p = newThreshold readings v.initVal p
  ahead : ∀ p, n ≤ p → w.initVal p = v.initVal p
  dac : 0 < n → w.dac = (biasOf readings (n - 1)).getD 63
  sticky : w.pads.stickyCount = v.pads.stickyCount

theorem VelocityPadsDone.step {n : Nat} {w : RecalView} (h : VelocityPadsDone readings v n w) :
    Spec (sensingWhile on readings) recalView w (calibrateVelocityPad n) fun _ u =>
      VelocityPadsDone readings v (n + 1) u := by
  refine Spec.mono (calibrateVelocityPad_sensed n) ?_
  rintro _ u ⟨hcode, horder, hinit, hdac, hsticky⟩
  have hnew : newThreshold readings w.initVal n = newThreshold readings v.initVal n := by
    rw [newThreshold, h.ahead n (Nat.le_refl n), newThreshold]
  refine ⟨fun p hp => ?_, fun p hp => ?_, fun p hp => ?_, fun p hp => ?_, fun _ => hdac, ?_⟩
  · rw [hcode]
    rcases Nat.lt_succ_iff_lt_or_eq.mp hp with hlt | rfl
    · rw [Function.update_of_ne hlt.ne, h.code p hlt]
    · rw [Function.update_self]
  · rw [horder]
    rcases Nat.lt_succ_iff_lt_or_eq.mp hp with hlt | rfl
    · rw [Function.update_of_ne hlt.ne, h.order p hlt]
    · rw [Function.update_self]
  · rw [hinit]
    rcases Nat.lt_succ_iff_lt_or_eq.mp hp with hlt | rfl
    · rw [Function.update_of_ne hlt.ne, h.done p hlt]
    · rw [Function.update_self, hnew]
  · rw [hinit, Function.update_of_ne (by omega), h.ahead p (by omega)]
  · rw [hsticky, h.sticky]

/-- What a single-ended pad reads at rest, and the bias in force is that of pad 39. -/
def thresholdSe (readings : Readings) (pad : Nat) : Int :=
  i16 (adcResult .singleEnded (readings pad ((biasOf readings 39).getD 63)) - 40)

/-- After the second loop has come to pad `n`. -/
structure PressurePadsDone (readings : Readings) (v : RecalView) (n : Nat) (w : RecalView) :
    Prop where
  code : ∀ p < 40, w.pads.r2rVal p = (biasOf readings p).getD 0
  order : ∀ p < n, w.pads.padOrder p = p
  initVal : ∀ p < 40, w.initVal p = newThreshold readings v.initVal p
  initValSe : ∀ p, 40 ≤ p → p < n → w.pads.initValSe p = thresholdSe readings p
  dac : w.dac = (biasOf readings 39).getD 63
  sticky : w.pads.stickyCount = v.pads.stickyCount

theorem PressurePadsDone.step {n : Nat} {w : RecalView} (h : PressurePadsDone readings v n w)
    (hn : 40 ≤ n) : Spec (sensingWhile on readings) recalView w (calibratePressurePad n) fun _ u =>
      PressurePadsDone readings v (n + 1) u := by
  refine Spec.map_bind (fun v => { v with channel := n }) (fun _ => rfl) ?_
  refine Spec.keeps_bind (delay_keeps (fun _ _ => rfl) n) fun _ => ?_
  refine Spec.bind (adcRead_sensed _ _) ?_
  rintro a w ⟨ha, rfl⟩
  have hse : i16 (a - 40) = thresholdSe readings n := by rw [ha, thresholdSe, ← h.dac]
  rw [hse]
  refine padsAct_recal _ ?_
  refine Spec.map (fun v => { v with
    pads := { v.pads with padOrder := Function.update v.pads.padOrder n n } }) (fun _ => rfl) ?_
  refine ⟨h.code, fun p hp => ?_, h.initVal, fun p hp hpn => ?_, h.dac, h.sticky⟩
  · rcases Nat.lt_succ_iff_lt_or_eq.mp hp with hlt | rfl
    · exact (Function.update_of_ne hlt.ne _ _).trans (h.order p hlt)
    · show Function.update w.pads.padOrder p p p = p
      rw [Function.update_self]
  · rcases Nat.lt_succ_iff_lt_or_eq.mp hpn with hlt | rfl
    · exact (Function.update_of_ne hlt.ne _ _).trans (h.initValSe p hp hlt)
    · show Function.update w.pads.initValSe p (thresholdSe readings p) p = thresholdSe readings p
      rw [Function.update_self]

/-- What a recalibration leaves behind, by the readings and the view `v` before it. -/
structure Recalibrated (readings : Readings) (v w : RecalView) : Prop where
  order : ∃ a : ScanOrder, (∀ p < 40, a.r2rVal p = (biasOf readings p).getD 0) ∧
    (∀ p < numPads, a.padOrder p = p) ∧
      ScanOrder.mk w.pads.r2rVal w.pads.padOrder = a.bubbleSort 40
  initVal : ∀ p < 40, w.initVal p = newThreshold readings v.initVal p
  initValSe : ∀ p, 40 ≤ p → p < numPads → w.pads.initValSe p = thresholdSe readings p
  antiStickyApplied : ∀ p < numPads, w.pads.antiStickyApplied p = false
  hysterisisApplied : ∀ p < numPads, w.pads.hysterisisApplied p = false
  velocitySent : ∀ p < numPads, w.pads.velocitySent p = false
  filteredVal : ∀ p < numPads, w.pads.filteredVal p = 0
  beingPlayed : ∀ p < numPlayed, w.pads.beingPlayed p = false
  stickyCount : w.pads.stickyCount = v.pads.stickyCount

theorem calibrateReset_sensed : Spec (sensingWhile on readings) recalView v calibrateReset fun _ w =>
    w = { v with pads := { v.pads with
      beingPlayed := zeroed v.pads.beingPlayed numPlayed false
      antiStickyApplied := zeroed v.pads.antiStickyApplied numPads false
      hysterisisApplied := zeroed v.pads.hysterisisApplied numPads false
      velocitySent := zeroed v.pads.velocitySent numPads false
      filteredVal := zeroed v.pads.filteredVal numPads 0 } } := by
  refine Spec.keeps_bind (genericHIDClear_keeps fun _ _ _ _ => rfl) fun _ => ?_
  iterate 4 refine padsAct_recal _ ?_
  exact Spec.map (fun v => { v with
    pads := { v.pads with filteredVal := zeroed v.pads.filteredVal numPads 0 } }) (fun _ => rfl) rfl

theorem zeroed_of_lt {α : Type} (a : Nat → α) {len : Nat} (z : α) {i : Nat} (hi : i < len) :
    zeroed a len z i = z := if_pos hi

theorem calibrate_sensed : Spec (sensingWhile on readings) recalView v calibrate fun _ w =>
    Recalibrated readings v w := by
  unfold calibrate
  rw [List.range_eq_range']
  refine Spec.bind (Spec.forEach_range' (VelocityPadsDone readings v)
    (fun n _ _ w hw => hw.step) ?_) fun _ w hw => ?_
  · exact ⟨fun p hp => absurd hp (by omega), fun p hp => absurd hp (by omega),
      fun p hp => absurd hp (by omega), fun _ _ => rfl, fun h => absurd h (by omega), rfl⟩
  · refine Spec.bind (Spec.forEach_range' (PressurePadsDone readings v)
      (fun n hn _ w hw => hw.step hn) ?_) fun _ u hu => ?_
    · exact ⟨hw.code, hw.order, hw.done, fun p hp h => absurd hp (by omega),
        hw.dac (by decide), hw.sticky⟩
    · refine Spec.keeps_bind (Keeps.atomic fun _ _ => rfl) fun codes => ?_
      refine padsAct_recal _ (Spec.bind calibrateReset_sensed ?_)
      rintro _ x rfl
      have hsorted := Pads.scanOrder_bubbleSort u.pads 40
      have hinitValSe := u.pads.initValSe_bubbleSort 40
      have hsticky := u.pads.stickyCount_bubbleSort 40
      generalize u.pads.bubbleSort 40 = sorted at hsorted hinitValSe hsticky
      refine Spec.ret ⟨⟨⟨u.pads.r2rVal, u.pads.padOrder⟩, hu.code, hu.order, hsorted⟩, hu.initVal,
        ?_, ?_, ?_, ?_, ?_, ?_, hsticky.trans hu.sticky⟩
      · rw [hinitValSe]
        exact hu.initValSe
      all_goals exact fun p hp => zeroed_of_lt _ _ hp

/-! ## Two recalibrations -/

/-- The two states detect touches alike. -/
structure SameDetection (s t : Firmware) : Prop where
  initVal : ∀ p < 40, s.standby.initVal p = t.standby.initVal p
  initValSe : ∀ p, 40 ≤ p → p < numPads → s.pads.initValSe p = t.pads.initValSe p
  r2rVal : ∀ i < 40, s.pads.r2rVal i = t.pads.r2rVal i
  padOrder : ∀ i < numPads, s.pads.padOrder i = t.pads.padOrder i
  antiStickyApplied : ∀ p < numPads, s.pads.antiStickyApplied p = t.pads.antiStickyApplied p
  hysterisisApplied : ∀ p < numPads, s.pads.hysterisisApplied p = t.pads.hysterisisApplied p
  velocitySent : ∀ p < numPads, s.pads.velocitySent p = t.pads.velocitySent p
  filteredVal : ∀ p < numPads, s.pads.filteredVal p = t.pads.filteredVal p
  beingPlayed : ∀ p < numPlayed, s.pads.beingPlayed p = t.pads.beingPlayed p
  stickyCount : ∀ p < numPads, s.pads.stickyCount p = t.pads.stickyCount p

/-- Two calibrated scan orders are the same. -/
theorem Recalibrated.order_unique {v w v' w' : RecalView} (h : Recalibrated readings v w)
    (h' : Recalibrated readings v' w') : (∀ i < 40, w.pads.r2rVal i = w'.pads.r2rVal i) ∧
      ∀ i < numPads, w.pads.padOrder i = w'.pads.padOrder i := by
  obtain ⟨a, hcode, horder, hsorted⟩ := h.order
  obtain ⟨a', hcode', horder', hsorted'⟩ := h'.order
  have hzip (x : RecalView) (b : ScanOrder)
      (hx : ScanOrder.mk x.pads.r2rVal x.pads.padOrder = b.bubbleSort 40) (i : Nat) :
      (x.pads.r2rVal i, x.pads.padOrder i) = Bubble.sortFrom Prod.fst b.zip 39 i := by
    rw [← ScanOrder.zip_bubbleSort, ← hx]
    rfl
  have hsame : ∀ i ≤ 39, a.zip i = a'.zip i := by
    intro i hi
    have hi48 : i < numPads := Nat.lt_of_le_of_lt hi (by decide)
    rw [ScanOrder.zip, ScanOrder.zip, hcode i (by omega), hcode' i (by omega), horder i hi48,
      horder' i hi48]
  have hfirst : ∀ i ≤ 39, (w.pads.r2rVal i, w.pads.padOrder i)
      = (w'.pads.r2rVal i, w'.pads.padOrder i) := by
    intro i hi
    rw [hzip w a hsorted, hzip w' a' hsorted']
    exact Bubble.sortFrom_congr Prod.fst hsame (Nat.le_refl 39) i hi
  have hrest (x : RecalView) (b : ScanOrder) (hb : ∀ p < numPads, b.padOrder p = p)
      (hx : ScanOrder.mk x.pads.r2rVal x.pads.padOrder = b.bubbleSort 40) (i : Nat)
      (hi : 39 < i) (hi48 : i < numPads) : x.pads.padOrder i = i := by
    obtain ⟨σ, hσ, hfix⟩ := Bubble.sortFrom_rearranges Prod.fst b.zip 39
    have hpair := hzip x b hx i
    rw [hσ, Function.comp_apply, hfix i hi] at hpair
    exact (congrArg Prod.snd hpair).trans (hb i hi48)
  refine ⟨fun i hi => congrArg Prod.fst (hfirst i (Nat.le_of_lt_succ hi)), fun i hi => ?_⟩
  by_cases h39 : i ≤ 39
  · exact congrArg Prod.snd (hfirst i h39)
  · rw [hrest w a horder hsorted i (by omega) hi, hrest w' a' horder' hsorted' i (by omega) hi]

/-- A run of a recalibration, from any state, leaves a recalibrated one behind. -/
theorem recalibrated_of_run {sched : Sched Input} {codes : Nat → Nat} {s t : Firmware}
    (hrun : recalibrate.run (sensing readings) sched s = some (codes, t)) :
    Recalibrated readings (recalView s) (recalView t) := by
  rw [sensing_eq] at hrun
  refine Spec.run recalView_sound (Q := fun _ w => Recalibrated readings (recalView s) w) ?_ hrun
  refine spec_critical_of (fun _ _ _ => rfl) ?_
  exact Spec.act_bind _ (fun t ht => ht) calibrate_sensed

/--
**When two recalibrations with the same readings leave the same detection state.** Exactly if
every velocity pad has a bias code that balances its bridge or the same threshold in both states
before, and the states before agree on `sticky_count`. Ticks may strike in both, but none that
begins standby.
-/
theorem sameDetection_iff (readings : Readings) {sched sched' : Sched Input}
    {codes codes' : Nat → Nat} {s s' t t' : Firmware}
    (hrun : recalibrate.run (sensing readings) sched s = some (codes, t))
    (hrun' : recalibrate.run (sensing readings) sched' s' = some (codes', t')) :
    SameDetection t t' ↔
      (∀ p < 40, biasOf readings p = none → s.standby.initVal p = s'.standby.initVal p) ∧
        ∀ p < numPads, s.pads.stickyCount p = s'.pads.stickyCount p := by
  have h := recalibrated_of_run hrun
  have h' := recalibrated_of_run hrun'
  have hsticky : t.pads.stickyCount = s.pads.stickyCount := h.stickyCount
  have hsticky' : t'.pads.stickyCount = s'.pads.stickyCount := h'.stickyCount
  have hinit : ∀ p < 40, t.standby.initVal p = newThreshold readings s.standby.initVal p :=
    h.initVal
  have hinit' : ∀ p < 40, t'.standby.initVal p = newThreshold readings s'.standby.initVal p :=
    h'.initVal
  constructor
  · intro hsame
    refine ⟨fun p hp hnone => ?_, fun p hp => ?_⟩
    · have heq := hsame.initVal p hp
      rwa [hinit p hp, hinit' p hp, newThreshold, newThreshold, hnone] at heq
    · rw [← hsticky, ← hsticky']
      exact hsame.stickyCount p hp
  · rintro ⟨hold, hcount⟩
    obtain ⟨hr2r, horder⟩ := h.order_unique h'
    refine ⟨fun p hp => ?_, fun p hp hp48 => ?_, hr2r, horder, fun p hp => ?_, fun p hp => ?_,
      fun p hp => ?_, fun p hp => ?_, fun p hp => ?_, fun p hp => ?_⟩
    · rw [hinit p hp, hinit' p hp, newThreshold, newThreshold]
      cases hbias : biasOf readings p with
      | none => exact hold p hp hbias
      | some code => rfl
    · exact (h.initValSe p hp hp48).trans (h'.initValSe p hp hp48).symm
    · exact (h.antiStickyApplied p hp).trans (h'.antiStickyApplied p hp).symm
    · exact (h.hysterisisApplied p hp).trans (h'.hysterisisApplied p hp).symm
    · exact (h.velocitySent p hp).trans (h'.velocitySent p hp).symm
    · exact (h.filteredVal p hp).trans (h'.filteredVal p hp).symm
    · exact (h.beingPlayed p hp).trans (h'.beingPlayed p hp).symm
    · rw [hsticky, hsticky']
      exact hcount p hp

/-! ## A pad that does not balance -/

/-- The converter gives the readings, and nothing else happens. -/
def sensed (readings : Readings) (s : Firmware) : Input :=
  { Input.quiet with adc := readings s.ports.channel s.ports.dac }

def recalibrated (readings : Readings) (s : Firmware) : (Nat → Nat) × Firmware :=
  recalibrate.exec (sensed readings) s

theorem recalibrated_run (readings : Readings) (s : Firmware) : ∃ sched,
    recalibrate.run (sensing readings) sched s
      = some ((recalibrated readings s).1, (recalibrated readings s).2) :=
  ⟨_, run_steady (sensing readings) (sensed readings) (fun _ => beq_self_eq_true _) recalibrate s⟩

/-- Power-on, but for the thresholds. -/
def otherThresholds : Firmware :=
  { powerOn with standby := { powerOn.standby with initVal := fun _ => 7 } }

/-- Where every pad balances, the thresholds of before leave no trace. -/
theorem sameDetection_iff_balanced :
    SameDetection (recalibrated (fun _ _ => 0) powerOn).2
      (recalibrated (fun _ _ => 0) otherThresholds).2 := by
  obtain ⟨sched, hrun⟩ := recalibrated_run (fun _ _ => 0) powerOn
  obtain ⟨sched', hrun'⟩ := recalibrated_run (fun _ _ => 0) otherThresholds
  refine (sameDetection_iff (fun _ _ => 0) hrun hrun').mpr ⟨fun p hp hnone => ?_, fun _ _ => rfl⟩
  have hbalanced : ∀ p < 40, biasOf (fun _ _ => 0) p ≠ none := by decide +kernel
  exact absurd hnone (hbalanced p hp)

/-- The first pad is struck in the first iteration. -/
def firstPadStruck : Outcome × Firmware := iteration 0 firstPadPressed booted.2

theorem firstPadStruck_run : ScanRun avr [firstPadStruck.1] 1 firstPadStruck.2 :=
  booted_run.step (iteration_step (by decide) firstPadPressed booted.2)

/-- The bridge of pad 0 balances at no code, all others at code 0. -/
def firstPadStuck : Readings := fun pad _ => if pad = 0 then 0x1FF else 0

/-- The hysteresis offset of a strike on pad 0 is then still there after the recalibration. -/
theorem not_sameDetection : ¬∀ (readings : Readings) (os os' : List Outcome) (i i' : Nat)
    (s s' : Firmware), ScanRun avr os i s → ScanRun avr os' i' s' →
      ∀ (sched sched' : Sched Input) (codes codes' : Nat → Nat) (t t' : Firmware),
        recalibrate.run (sensing readings) sched s = some (codes, t) →
        recalibrate.run (sensing readings) sched' s' = some (codes', t') →
        SameDetection t t' := by
  intro h
  obtain ⟨sched, hrun⟩ := recalibrated_run firstPadStuck booted.2
  obtain ⟨sched', hrun'⟩ := recalibrated_run firstPadStuck firstPadStruck.2
  have hsame := h firstPadStuck [] [firstPadStruck.1] 0 1 booted.2 firstPadStruck.2 booted_run
    firstPadStruck_run sched sched' _ _ _ _ hrun hrun'
  exact absurd (hsame.initVal 0 (by decide)) (by decide +kernel)

end SphereWare
