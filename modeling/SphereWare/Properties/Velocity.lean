import SphereWare.Properties.Press

/-!
# Velocities

A strike reports half of the highest of 201 deflections, at most 127. The host takes a pad with
velocity 0 for one that is not struck. Half of a deflection of 1 is 0.
-/

namespace SphereWare

open Interrupt Prog

variable {v w : ScanView} {pad : Nat}

/-! ## The samples of a strike -/

/-- The deflection that began the strike and the 200 after it. -/
def StrikeSamples (l : List Sample) : Prop :=
  l.length = 201 ∧ ∃ x rest, l = x :: rest ∧ 0 < x.val

theorem peakLoop_length (pad n : Nat) (p : Int) :
    Spec avr scanView v (peakLoop pad n p) fun r _ => r.2.length = n := by
  induction n generalizing v p with
  | zero => exact Spec.ret rfl
  | succ n ih =>
    refine Spec.bind (sampleVelocityPad_spec pad) fun x w _ => ?_
    refine Spec.bind (ih _) fun r u hr => Spec.ret ?_
    rw [List.length_cons, hr]

theorem strike_length (pad : Nat) (val : Int) :
    Spec avr scanView v (strike pad val) fun l _ => l.length = 200 := by
  refine Spec.bind (peakLoop_length pad 200 val) fun r w hr => ?_
  iterate 5 refine Spec.bind Spec.top fun _ _ _ => ?_
  exact Spec.ret hr

theorem scanVelocityPad_samples (pad : Nat) : Spec avr scanView v (scanVelocityPad pad)
    fun r _ => r.2 = .strike → StrikeSamples r.1 := by
  refine Spec.bind Spec.top fun x w _ => Spec.bind Spec.top fun sent w _ => ?_
  refine Spec.ite (fun hval => Spec.ite (fun _ => ?_) fun _ => ?_)
    fun _ => Spec.ite (fun _ => ?_) fun _ => ?_
  · exact Spec.bind Spec.top fun _ _ _ => Spec.ret fun h => nomatch h
  · refine Spec.bind (strike_length pad x.val) fun l _ hl => Spec.ret fun _ => ?_
    exact ⟨by rw [List.length_cons, hl], x, l, rfl, hval⟩
  · exact Spec.bind Spec.top fun _ _ _ => Spec.ret fun h => nomatch h
  · exact Spec.ret fun h => nomatch h

theorem scanSelected_samples (pad : Nat) : Spec avr scanView v (scanSelected pad)
    fun r _ => r.2 = .strike → StrikeSamples r.1 := by
  refine Spec.ite (fun _ => scanVelocityPad_samples pad) fun _ => ?_
  refine Spec.bind Spec.top fun threshold _ _ => Spec.bind Spec.top fun a _ _ => ?_
  refine Spec.ite (fun _ => ?_) fun _ => ?_
  · exact Spec.bind Spec.top fun _ _ _ => Spec.ret fun h => nomatch h
  · exact Spec.bind Spec.top fun _ _ _ => Spec.ret fun h => nomatch h

theorem scanPad_samples (i : Nat) : Spec avr scanView v (scanPad i)
    fun o _ => o.event = .strike → StrikeSamples o.samples := by
  refine Spec.bind Spec.top fun pad _ _ => Spec.bind Spec.top fun codes _ _ => ?_
  refine Spec.bind (Q := fun r _ => r.2 = .strike → StrikeSamples r.1) ?_
    fun r _ hr => Spec.ret hr
  iterate 5 refine Spec.bind Spec.top fun _ _ _ => ?_
  exact scanSelected_samples pad

theorem LoopStep.samples {s t : Firmware} {i i' : Nat} {o : Outcome}
    (h : LoopStep avr i s (some o) i' t) (hstrike : o.event = .strike) :
    StrikeSamples o.samples := by
  cases h with
  | pad sched hi hrun => exact (scanPad_samples i).run scanView_sound hrun hstrike

/-! ## The peak -/

theorem lt_foldl_max_iff (l : List Int) (a b : Int) :
    b < l.foldl max a ↔ b < a ∨ ∃ x ∈ l, b < x := by
  induction l generalizing a with
  | nil => simp
  | cons c l ih =>
    rw [List.foldl_cons, ih, lt_max_iff, or_assoc]
    simp

/-- The peak is the maximum of the deflections. -/
theorem StrikeSamples.max?_eq {l : List Sample} (h : StrikeSamples l) :
    (l.map Sample.val).max? = some (peak l) := by
  obtain ⟨-, x, rest, rfl, hval⟩ := h
  rw [List.map_cons, List.max?_cons', peak, List.map_cons, List.foldl_cons, max_eq_right hval.le]

/-- The velocity of a strike is positive exactly if some deflection is at least 2. -/
theorem velocityOf_pos_iff (l : List Sample) :
    1 ≤ velocityOf (peak l) ↔ ∃ x ∈ l, 2 ≤ x.val := by
  have hpeak : 1 ≤ velocityOf (peak l) ↔ 1 < peak l := by
    unfold velocityOf
    split <;> omega
  rw [hpeak, peak, lt_foldl_max_iff]
  simp only [List.mem_map, exists_exists_and_eq_and]
  constructor
  · rintro (h | ⟨x, hx, hval⟩)
    · exact absurd h (by decide)
    · exact ⟨x, hx, hval⟩
  · rintro ⟨x, hx, hval⟩
    exact Or.inr ⟨x, hx, hval⟩

/-! ## Presses -/

/-- The iteration does not end the press of the pad: it does not calibrate, nor release the pad. -/
def Outcome.Holds (pad : Nat) (o : Outcome) : Prop :=
  o.recalibrated = none ∧ (o.pad = pad → o.event ≠ .release)

/-- The pad is pressed, and the host reads the velocity. -/
def Sounding (pad vel : Nat) (v : ScanView) : Prop :=
  v.pads.velocitySent pad = true ∧ (v.entries pad).2 = vel

theorem OnlyPad.sounding {r : PadReport} {vel : Nat} (h : OnlyPad pad r v w)
    (hsent : r.sent = true) (hvel : r.entry.2 = vel) : Sounding pad vel w := by
  have hself := h.self
  exact ⟨(congrArg PadReport.sent hself).trans hsent,
    (congrArg (fun r => r.entry.2) hself).trans hvel⟩

theorem sounding_of_report {vel : Nat} (h : w.report pad = v.report pad)
    (hv : Sounding pad vel v) : Sounding pad vel w :=
  ⟨(congrArg PadReport.sent h).trans hv.1, (congrArg (fun r => r.entry.2) h).trans hv.2⟩

/-- **A press keeps its velocity.** -/
theorem IterationStep.sounding {i vel : Nat} {o : Outcome} (h : IterationStep i v o w)
    (hpad : pad < 40) (ho : o.Holds pad) (hv : Sounding pad vel v) : Sounding pad vel w := by
  have hpad48 : pad < numPads := Nat.lt_trans hpad (by decide)
  obtain ⟨-, v₁, v₂, hreset, helite, hsel⟩ := h
  rw [ho.1] at hreset
  obtain rfl : v₁ = _ := hreset
  have hv₂ : Sounding pad vel v₂ := sounding_of_report (helite.report hpad48)
    (sounding_of_report (v := v) (by
      simp only [ScanView.report, Pads.setPlayed, Function.update_of_ne (show pad ≠ 53 by omega)])
      hv)
  by_cases hne : pad = o.pad
  · subst hne
    rw [SelectedStep, if_pos hpad] at hsel
    obtain ⟨-, -, hbranch⟩ := hsel
    cases hevent : o.event with
    | idle =>
      rw [hevent] at hbranch
      exact absurd (hv₂.1.symm.trans hbranch.1) (by decide)
    | strike =>
      rw [hevent] at hbranch
      exact absurd (hv₂.1.symm.trans hbranch.1) (by decide)
    | pressure =>
      rw [hevent] at hbranch
      obtain ⟨-, f, -, -, honly⟩ := hbranch
      exact honly.sounding rfl hv₂.2
    | release => exact absurd hevent (ho.2 rfl)
  · exact sounding_of_report (hsel.elsewhere.other pad hpad48 hne) hv₂

theorem SamePads.sounding {vel : Nat} (h : SamePads v w) (hv : Sounding pad vel v) :
    Sounding pad vel w := by
  obtain ⟨sum, prev, rfl⟩ := h
  exact hv

/-- An iteration that strikes the pad. -/
theorem LoopStep.struck {s t : Firmware} {i i' : Nat} {o : Outcome}
    (h : LoopStep avr i s (some o) i' t) (hv : Scannable (scanView s)) (hpad : o.pad < 40)
    (hstrike : o.event = .strike) :
    Sounding o.pad (velocityOf (peak o.samples)).toNat (scanView t) := by
  obtain ⟨-, -, -, v₁, v₂, -, -, hsel⟩ := h.view hv
  rw [SelectedStep, if_pos hpad, hstrike] at hsel
  obtain ⟨-, -, -, honly⟩ := hsel
  exact honly.sounding rfl rfl

/-! ## Every strike -/

/-- The same state with other thresholds. -/
def Firmware.withThresholds (s : Firmware) (initVal : Nat → BitVec 16) : Firmware :=
  { s with standby := { s.standby with initVal := initVal } }

theorem Firmware.withThresholds_self (s : Firmware) :
    s.withThresholds s.standby.initVal = s := rfl

/-- The velocity the host reads for a pad. -/
def Firmware.velocity (s : Firmware) (pad : Nat) : Nat := (s.hid.entry pad).2

theorem Sounding.velocity {vel : Nat} {s : Firmware} (h : Sounding pad vel (scanView s))
    (hpad : pad < 40) : s.velocity pad = vel := by
  have hentry : (scanView s).entries pad = s.hid.entry pad :=
    if_pos (Nat.lt_trans hpad (by decide))
  rw [Firmware.velocity, ← hentry]
  exact h.2

/-- What a strike is to look like to the host, from the state `t` after its iteration on. -/
structure VisibleStrike (o : Outcome) (i : Nat) (t : Firmware) : Prop where
  samples : o.samples.length = 201
  velocity : ∃ max, (o.samples.map Sample.val).max? = some max ∧
    (t.velocity o.pad : Int) = min 127 (max / 2)
  positive : 1 ≤ t.velocity o.pad
  press : ∀ os j u, LoopRun avr i t os j u → (∀ o' ∈ os, o'.Holds o.pad) →
    u.velocity o.pad = t.velocity o.pad ∧ u.velocity o.pad ≠ 0

/--
**When a strike is visible.** In every run, with every threshold and all deflections: exactly if
one of the 201 deflections is at least 2.
-/
theorem visibleStrike_iff {os : List Outcome} {i : Nat} {s : Firmware} (hs : ScanRun avr os i s)
    (initVal : Nat → BitVec 16) {o : Outcome} {i' : Nat} {t : Firmware}
    (hstep : LoopStep avr i (s.withThresholds initVal) (some o) i' t) (hpad : o.pad < 40)
    (hstrike : o.event = .strike) :
    VisibleStrike o i' t ↔ ∃ x ∈ o.samples, 2 ≤ x.val := by
  have hv : Scannable (scanView (s.withThresholds initVal)) := hs.scannable
  have hsamples := hstep.samples hstrike
  have hsounding := hstep.struck hv hpad hstrike
  have hvel := hsounding.velocity hpad
  have hrange := (velocityOf_range (le_foldl_max (o.samples.map Sample.val) 0)).1
  rw [← velocityOf_pos_iff]
  constructor
  · intro hvisible
    have hpos := hvisible.positive
    rw [hvel] at hpos
    omega
  · intro hpos
    have hpos' : 1 ≤ t.velocity o.pad := by
      rw [hvel]
      omega
    refine ⟨hsamples.1, ⟨peak o.samples, hsamples.max?_eq, ?_⟩, hpos', ?_⟩
    · rw [hvel, ← velocityOf_eq_min]
      exact Int.toNat_of_nonneg hrange
    · intro os j u hrun hholds
      have hkept : Sounding o.pad _ (scanView u) := (hrun.induction
        (I := Sounding o.pad (velocityOf (peak o.samples)).toNat) (A := Outcome.Holds o.pad)
        (fun _ _ _ _ _ ho hI hiter => hiter.sounding hpad ho hI)
        (fun _ _ hI hpass => hpass.sounding hI) (hstep.view hv).1 hsounding hholds).2
      have hsame : u.velocity o.pad = t.velocity o.pad := (hkept.velocity hpad).trans hvel.symm
      exact ⟨hsame, by omega⟩

/-- The first iteration, with the thresholds as they are. -/
theorem firstIteration_step (env : Firmware → Input) :
    LoopStep avr 0 (booted.2.withThresholds booted.2.standby.initVal)
      (some (iteration 0 env booted.2).1) 1 (iteration 0 env booted.2).2 := by
  rw [Firmware.withThresholds_self]
  exact iteration_step (by decide) env booted.2

theorem struck_deflection : ∃ x ∈ struck.1.samples, 2 ≤ x.val := by decide +kernel

/-- A strike with a deflection of 135. -/
theorem visibleStrike_iff_struck : VisibleStrike struck.1 1 struck.2 := by
  have hiff : VisibleStrike struck.1 1 struck.2 ↔ ∃ x ∈ struck.1.samples, 2 ≤ x.val :=
    visibleStrike_iff booted_run booted.2.standby.initVal (firstIteration_step _) struck_state.1
      struck_state.2.1
  exact hiff.mpr struck_deflection

/-- The first pad is touched so softly that its bridge passes the threshold by 1. -/
def softlyStruck : Outcome × Firmware :=
  iteration 0 (fun _ => { Input.quiet with adc := 0x386 }) booted.2

theorem softlyStruck_strike : softlyStruck.1.pad < 40 ∧ softlyStruck.1.event = .strike ∧
    softlyStruck.2.velocity softlyStruck.1.pad = 0 := by decide +kernel

/-- A strike the host does not see. -/
theorem not_visibleStrike : ¬∀ (os : List Outcome) (i : Nat) (s : Firmware), ScanRun avr os i s →
    ∀ (initVal : Nat → BitVec 16) (o : Outcome) (i' : Nat) (t : Firmware),
      LoopStep avr i (s.withThresholds initVal) (some o) i' t → o.pad < 40 → o.event = .strike →
      VisibleStrike o i' t := by
  intro h
  have hvisible := h [] 0 booted.2 booted_run booted.2.standby.initVal softlyStruck.1 1
    softlyStruck.2 (firstIteration_step _) softlyStruck_strike.1 softlyStruck_strike.2.1
  have hpos := hvisible.positive
  rw [softlyStruck_strike.2.2] at hpos
  exact absurd hpos (by decide)

end SphereWare
