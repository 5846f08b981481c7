import SphereWare.Spec.Held
import SphereWare.Properties.Thresholds
import SphereWare.Properties.Recalibration

/-!
# A pad that is held and let go

Constant readings over whole passes, for the pad the scan begins with: one reading at full pressure
strikes it and three more apply the anti-sticky offset (`FirstPad.exists_applied`), and it can be
read as not pressed in as many passes as one likes (`FirstPad.exists_released`).
-/

namespace SphereWare

open Interrupt Prog StickyView ThresholdView

/-! ## Runs in a row -/

theorem LoopRun.trans {M : Machine Firmware Input} {os os' : List Outcome} {i j k : Nat}
    {s t u : Firmware} (h : LoopRun M i s os j t) (h' : LoopRun M j t os' k u) :
    LoopRun M i s (os ++ os') k u := by
  induction h' with
  | refl =>
    rw [List.append_nil]
    exact h
  | step h' hstep ih =>
    rw [← List.append_assoc]
    exact ih.step hstep

theorem ScanRun.append {M : Machine Firmware Input} {os os' : List Outcome} {i j : Nat}
    {s t : Firmware} (h : ScanRun M os i s) (h' : LoopRun M i s os' j t) :
    ScanRun M (os ++ os') j t := by
  induction h' with
  | refl =>
    rw [List.append_nil]
    exact h
  | step h' hstep ih =>
    rw [← List.append_assoc]
    exact ih.step hstep

/-! ## The first pad -/

/-- The pad the scan begins with, calibrated at a reading near 398. -/
structure FirstPad (p : Nat) (s : Firmware) : Prop where
  lt : p < 40
  scannable : Scannable (scanView s)
  first : s.pads.padOrder 0 = p
  once : ∀ i, 0 < i → i < numPads → s.pads.padOrder i ≠ p
  net : -393 ≤ ((thresholdView s).net p).toInt ∧ ((thresholdView s).net p).toInt ≤ -278

/-- What main keeps of the pad is the same. -/
structure SamePad (p : Nat) (s t : Firmware) : Prop where
  filtered : t.pads.filteredVal p = s.pads.filteredVal p
  sent : t.pads.velocitySent p = s.pads.velocitySent p
  applied : t.pads.antiStickyApplied p = s.pads.antiStickyApplied p
  count : t.pads.stickyCount p = s.pads.stickyCount p

variable {p i : Nat} {s t : Firmware}

theorem SamePad.refl (p : Nat) (s : Firmware) : SamePad p s s := ⟨rfl, rfl, rfl, rfl⟩

theorem SamePad.trans {u : Firmware} (h : SamePad p s t) (h' : SamePad p t u) : SamePad p s u :=
  ⟨h'.filtered.trans h.filtered, h'.sent.trans h.sent, h'.applied.trans h.applied,
    h'.count.trans h.count⟩

/-- The offsets keep the threshold within bounds. -/
theorem FirstPad.initVal (h : FirstPad p s) :
    -428 ≤ (s.standby.initVal p).toInt ∧ (s.standby.initVal p).toInt ≤ -128 := by
  obtain ⟨hnet₀, hnet₁⟩ := h.net
  have hsplit : s.standby.initVal p = (thresholdView s).net p + s.standby.raised
      + (if s.pads.antiStickyApplied p then 50 else 0)
      - (if s.pads.velocitySent p then hysterisisAdjust p else 0) := by
    simp only [ThresholdView.net, offset, thresholdView, Standby.base, h.lt, if_true]
    grind
  have hraised : 0 ≤ s.standby.raised.toInt ∧ s.standby.raised.toInt ≤ 100 := by
    unfold Standby.raised
    split <;> decide
  have hsticky : 0 ≤ (if s.pads.antiStickyApplied p then 50 else 0 : BitVec 16).toInt ∧
      (if s.pads.antiStickyApplied p then 50 else 0 : BitVec 16).toInt ≤ 50 := by
    split <;> decide
  have hhysterisis : 0 ≤ (if s.pads.velocitySent p then hysterisisAdjust p else 0).toInt ∧
      (if s.pads.velocitySent p then hysterisisAdjust p else 0).toInt ≤ 35 := by
    unfold hysterisisAdjust
    split
    · split <;> decide
    · decide
  rw [hsplit, toInt_offsets hraised hsticky hhysterisis (by omega) (by omega)]
  omega

/-! ## One pass -/

variable {raw : BitVec 10}

/-- An iteration with a constant reading. -/
theorem FirstPad.step (h : FirstPad p s) (hi : i < numPads) {o : Outcome}
    (hiter : iteration i (heldInput raw) s = (o, t)) :
    LoopStep avr i s (some o) (i + 1) t ∧ o.recalibrated = none ∧
      IterationStep i (scanView s) o (scanView t) ∧
        StickyIteration (stickyView s) o (stickyView t) ∧ FirstPad p t := by
  have hstep : LoopStep avr i s (some o) (i + 1) t := by
    have hrun := iteration_step hi (heldInput raw) s
    rwa [hiter] at hrun
  have hexec : (scanPad i).exec (heldInput raw) s = (o, t) := hiter
  obtain ⟨hcodes, hscannable, hview, horder⟩ :=
    iteration_quiet hi (fun _ => rfl) h.scannable hiter
  have hsticky : StickyIteration (stickyView s) o (stickyView t) := by
    have hrun := (scanPad_sticky i).exec (s := s) (heldInput raw) fun _ => rfl
    rwa [hexec] at hrun
  have hbalanced : Balanced (thresholdView s) (thresholdView t) := by
    have hrun := (scanPad_threshold i).exec (s := s) (heldInput raw) fun _ => rfl
    rw [hexec] at hrun
    exact hrun hcodes
  refine ⟨hstep, hcodes, hview, hsticky, h.lt, hscannable, ?_, ?_, ?_⟩
  · rw [horder]
    exact h.first
  · rw [horder]
    exact h.once
  · rw [hbalanced p h.lt]
    exact h.net

/-- The iterations after the first one leave the pad alone. -/
theorem FirstPad.other (h : FirstPad p s) (hi₀ : 0 < i) (hi : i < numPads) {o : Outcome}
    (hiter : iteration i (heldInput raw) s = (o, t)) : o.pad ≠ p ∧ SamePad p s t := by
  obtain ⟨-, hcodes, hview, hsticky, -⟩ := h.step hi hiter
  have hne : p ≠ o.pad := by
    rw [hview.1]
    exact Ne.symm (h.once i hi₀ hi)
  obtain ⟨happlied, -, hcount⟩ := hsticky.sameAt hcodes hne
  obtain ⟨-, v₁, v₂, hreset, helite, hsel⟩ := hview
  rw [hcodes] at hreset
  obtain rfl : v₁ = _ := hreset
  have hreport := (hsel.elsewhere.other p (Nat.lt_trans h.lt (by decide)) hne).trans
    (helite.report (Nat.lt_trans h.lt (by decide)))
  exact ⟨Ne.symm hne, congrArg PadReport.filtered hreport, congrArg PadReport.sent hreport,
    happlied, hcount⟩

/-- The end of a pass leaves the pads alone. -/
theorem FirstPad.endPass (h : FirstPad p s) :
    ∃ t, LoopStep avr numPads s none 0 t ∧ FirstPad p t ∧ SamePad p s t := by
  let t := (SphereWare.endPass.exec (heldInput 0) s).2
  have hstep : LoopStep avr numPads s none 0 t :=
    .pass _ (run_steady avr (heldInput 0) (fun _ => rfl) SphereWare.endPass s)
  have hkept : SameOn passView s t := Keeps.exec (SameOn.refl passView)
    (fun _ _ _ => SameOn.trans) endPass_keeps (heldInput 0) s
  have hbase : thresholdView t = thresholdView s :=
    endPass_threshold.exec (heldInput 0) fun _ => rfl
  simp only [SameOn, passView, Prod.mk.injEq, Pads.mk.injEq] at hkept
  obtain ⟨⟨hfiltered, -, -, horder, happlied, -, hsent, -, hcount, -⟩, -⟩ := hkept
  refine ⟨t, hstep, ⟨h.lt, (hstep.view h.scannable).1, ?_, ?_, ?_⟩, ?_⟩
  · rw [horder]
    exact h.first
  · rw [horder]
    exact h.once
  · rw [hbase]
    exact h.net
  · exact ⟨congrFun hfiltered p, congrFun hsent p, congrFun happlied p, congrFun hcount p⟩

/-- The rest of a pass, up to a position. -/
theorem FirstPad.rest (h : FirstPad p s) {o : Outcome}
    (hiter : iteration 0 (heldInput raw) s = (o, t)) (n : Nat) (hn : n < numPads) :
    ∃ os u, LoopRun avr 0 s (o :: os) (n + 1) u ∧ FirstPad p u ∧ SamePad p t u ∧
      ∀ o' ∈ os, o'.pad ≠ p := by
  induction n with
  | zero =>
    obtain ⟨hstep, -, -, -, ht⟩ := h.step (by decide) hiter
    exact ⟨[], t, LoopRun.refl.step hstep, ht, SamePad.refl p t, fun o' ho' => nomatch ho'⟩
  | succ n ih =>
    obtain ⟨os, u, hrun, hu, hsame, hos⟩ := ih (by omega)
    obtain ⟨⟨o₁, w⟩, hnext⟩ : ∃ r, iteration (n + 1) (heldInput raw) u = r := ⟨_, rfl⟩
    obtain ⟨hstep, -, -, -, hw⟩ := hu.step hn hnext
    obtain ⟨hne, hsame'⟩ := hu.other n.succ_pos hn hnext
    refine ⟨os ++ [o₁], w, hrun.step hstep, hw, hsame.trans hsame', fun o' ho' => ?_⟩
    rcases List.mem_append.mp ho' with ho' | ho'
    · exact hos o' ho'
    · rw [List.mem_singleton.mp ho']
      exact hne

/-- **A pass reads the pad once, in its first iteration.** -/
theorem FirstPad.pass (h : FirstPad p s) {o : Outcome}
    (hiter : iteration 0 (heldInput raw) s = (o, t)) :
    ∃ os u, LoopRun avr 0 s (o :: os) 0 u ∧ FirstPad p u ∧ SamePad p t u ∧
      ∀ o' ∈ os, o'.pad ≠ p := by
  obtain ⟨os, u, hrun, hu, hsame, hos⟩ := h.rest hiter 47 (by decide)
  obtain ⟨w, hstep, hw, hsame'⟩ := hu.endPass
  have hrun' := hrun.step hstep
  rw [Option.toList_none, List.append_nil] at hrun'
  exact ⟨os, w, hrun', hw, hsame.trans hsame', hos⟩

/-- What the first iteration does with the pad. -/
theorem FirstPad.held (h : FirstPad p s) {o : Outcome}
    (hiter : iteration 0 (heldInput raw) s = (o, t)) : o.pad = p ∧
      HeldStep p ((heldView s).deflection raw p) o.samples o.event (heldView s) (heldView t) := by
  obtain ⟨-, -, hview, -⟩ := h.step (by decide) hiter
  have hpad : o.pad = p := hview.1.trans h.first
  have hexec : (scanPad 0).exec (heldInput raw) s = (o, t) := hiter
  have hheld := ((scanPad_held 0).exec (s := s) (heldInput raw) (held_admits raw)).2
  rw [hexec] at hheld
  refine ⟨hpad, ?_⟩
  rw [← hpad]
  exact hheld (hpad ▸ h.lt)

/-- The branch the first iteration takes. -/
theorem FirstPad.branch (h : FirstPad p s) {o : Outcome}
    (hiter : iteration 0 (heldInput raw) s = (o, t)) :
    Steps p (stickyView s) (stickyView t) o.event ∧
      ∃ v, v.report p = (scanView s).report p ∧ BranchStep p o.samples v (scanView t) o.event := by
  obtain ⟨-, hcodes, ⟨horder, v₁, v₂, hreset, helite, hsel⟩, ⟨u, hreset', hsteps⟩, -⟩ :=
    h.step (by decide) hiter
  have hpad : o.pad = p := horder.trans h.first
  rw [hcodes] at hreset hreset'
  obtain rfl : v₁ = _ := hreset
  obtain rfl : u = _ := hreset'
  rw [hpad] at hsteps hsel
  rw [PadSteps, if_pos h.lt] at hsteps
  rw [SelectedStep, if_pos h.lt] at hsel
  refine ⟨hsteps.1, v₂, (helite.report (Nat.lt_trans h.lt (by decide))).trans ?_, hsel.2.2⟩
  have hne : p ≠ 53 := fun heq => absurd h.lt (by rw [heq]; decide)
  simp only [ScanView.report, Pads.setPlayed, Function.update_of_ne hne]

/-! ## Held down -/

/-- At the reading of full pressure. -/
theorem FirstPad.deflection_pressed (h : FirstPad p s) :
    639 ≤ (heldView s).deflection 0x200 p ∧ (heldView s).deflection 0x200 p ≤ 939 := by
  obtain ⟨h₀, h₁⟩ := h.initVal
  have hraw : adcResult .diff1X10 0x200 = -511 := by decide
  simp only [HeldView.deflection, heldView, hraw, i16]
  omega

/-- The pad is pressed, and the offset is applied or the pressure is at least `b`. -/
structure Pressed (p : Nat) (b : Int) (s : Firmware) : Prop extends FirstPad p s where
  sent : s.pads.velocitySent p = true
  count : s.pads.stickyCount p = 0
  full : s.pads.antiStickyApplied p = true ∨
    b ≤ s.pads.filteredVal p ∧ s.pads.filteredVal p < 511

theorem Pressed.of_same {b : Int} (h : Pressed p b s) (ht : FirstPad p t) (hsame : SamePad p s t) :
    Pressed p b t := by
  refine ⟨ht, hsame.sent.trans h.sent, hsame.count.trans h.count, ?_⟩
  rw [hsame.applied, hsame.filtered]
  exact h.full

/-- The strike. -/
theorem FirstPad.strike (h : FirstPad p s) (hsent : s.pads.velocitySent p = false)
    (hcount : s.pads.stickyCount p = 0) :
    ∃ os t, LoopRun avr 0 s os 0 t ∧ Pressed p 0 t := by
  obtain ⟨⟨o, t⟩, hiter⟩ : ∃ r, iteration 0 (heldInput 0x200) s = r := ⟨_, rfl⟩
  obtain ⟨-, -, -, -, ht⟩ := h.step (by decide) hiter
  have hdeflection := h.deflection_pressed
  have hevent : o.event = .strike := (h.held hiter).2.strike (by omega) hsent
  obtain ⟨hsteps, v, -, hbranch⟩ := h.branch hiter
  rw [hevent] at hsteps hbranch
  have hpressed : Pressed p 0 t := by
    have hreport := hbranch.2.self
    have hfiltered : t.pads.filteredVal p = velocityOf (peak o.samples) :=
      congrArg PadReport.filtered hreport
    obtain ⟨hvel₀, hvel₁⟩ := velocityOf_range (le_foldl_max (o.samples.map Sample.val) 0)
    refine ⟨ht, congrArg PadReport.sent hreport, ?_, Or.inr ?_⟩
    · have hview : stickyView t = (stickyView s).setSent p true := hsteps.2
      exact (congrArg (fun w => StickyView.count w p) hview).trans hcount
    · rw [hfiltered]
      exact ⟨hvel₀, Int.lt_of_le_of_lt hvel₁ (by decide)⟩
  obtain ⟨os, u, hrun, hu, hsame, -⟩ := h.pass hiter
  exact ⟨o :: os, u, hrun, hpressed.of_same hu hsame⟩

/-- One more pass at full pressure. -/
theorem Pressed.press {b : Int} (h : Pressed p b s) (hb : 0 ≤ b) :
    ∃ os t, LoopRun avr 0 s os 0 t ∧ Pressed p ((b + 639) / 2) t := by
  obtain ⟨⟨o, t⟩, hiter⟩ : ∃ r, iteration 0 (heldInput 0x200) s = r := ⟨_, rfl⟩
  obtain ⟨-, -, -, -, ht⟩ := h.step (by decide) hiter
  have hdeflection := h.deflection_pressed
  obtain ⟨hevent, hpressure⟩ := (h.held hiter).2.pressure (by omega) h.sent
  obtain ⟨hsteps, v, -, hbranch⟩ := h.branch hiter
  rw [hevent] at hsteps hbranch
  have hpressed : Pressed p ((b + 639) / 2) t := by
    obtain ⟨-, f, -, -, honly⟩ := hbranch
    obtain ⟨-, applied, -, hview⟩ := hsteps
    refine ⟨ht, congrArg PadReport.sent honly.self, ?_, ?_⟩
    · exact (congrArg (fun w => StickyView.count w p) hview).trans h.count
    have happlied : t.pads.antiStickyApplied p = (s.pads.antiStickyApplied p ||
        decide (511 ≤ filter (s.pads.filteredVal p) ((heldView s).deflection 0x200 p))) :=
      hpressure.applied
    have hfiltered : t.pads.filteredVal p
        = min 511 (filter (s.pads.filteredVal p) ((heldView s).deflection 0x200 p)) :=
      hpressure.filtered
    by_cases hfull : 511 ≤ filter (s.pads.filteredVal p) ((heldView s).deflection 0x200 p)
    · left
      rw [happlied, decide_eq_true hfull, Bool.or_true]
    · rcases h.full with hbefore | ⟨hbound, -⟩
      · left
        simp [happlied, hbefore]
      · right
        rw [hfiltered, min_eq_right (Int.le_of_lt (Int.not_le.mp hfull))]
        unfold filter at hfull ⊢
        rw [Int.tdiv_eq_ediv_of_nonneg (by omega)] at hfull ⊢
        omega
  obtain ⟨os, u, hrun, hu, hsame, -⟩ := h.pass hiter
  exact ⟨o :: os, u, hrun, hpressed.of_same hu hsame⟩

/-- **Four passes at full pressure apply the offset.** -/
theorem FirstPad.exists_applied (h : FirstPad p s) (hsent : s.pads.velocitySent p = false)
    (hcount : s.pads.stickyCount p = 0) :
    ∃ os t, LoopRun avr 0 s os 0 t ∧ FirstPad p t ∧ t.pads.antiStickyApplied p = true ∧
      t.pads.velocitySent p = true ∧ t.pads.stickyCount p = 0 := by
  obtain ⟨os₁, s₁, hrun₁, h₁⟩ := h.strike hsent hcount
  obtain ⟨os₂, s₂, hrun₂, h₂⟩ := h₁.press (by decide)
  obtain ⟨os₃, s₃, hrun₃, h₃⟩ := h₂.press (by decide)
  obtain ⟨os₄, t, hrun₄, h₄⟩ := h₃.press (by decide)
  refine ⟨_, t, hrun₁.trans (hrun₂.trans (hrun₃.trans hrun₄)), h₄.toFirstPad, ?_, h₄.sent,
    h₄.count⟩
  rcases h₄.full with happlied | ⟨hbound, hbelow⟩
  · exact happlied
  · omega

/-! ## Let go -/

/-- At the reading of no pressure. -/
theorem FirstPad.deflection_released (h : FirstPad p s) :
    (heldView s).deflection 0x1FF p ≤ 0 := by
  obtain ⟨h₀, h₁⟩ := h.initVal
  have hraw : adcResult .diff1X10 0x1FF = 511 := by decide
  simp only [HeldView.deflection, heldView, hraw, i16]
  omega

/-- **The pad can be read as not pressed as often as one likes.** -/
theorem FirstPad.exists_released (h : FirstPad p s) (n : Nat) :
    ∃ os t, LoopRun avr 0 s os 0 t ∧ FirstPad p t ∧ (readingsOf p os).length = n ∧
      ∀ o ∈ readingsOf p os, o.NotPressed := by
  induction n with
  | zero => exact ⟨[], s, .refl, h, rfl, fun o ho => nomatch ho⟩
  | succ n ih =>
    obtain ⟨os, t, hrun, ht, hlength, hquiet⟩ := ih
    obtain ⟨⟨o, u⟩, hiter⟩ : ∃ r, iteration 0 (heldInput 0x1FF) t = r := ⟨_, rfl⟩
    obtain ⟨hpad, hheld⟩ := ht.held hiter
    obtain ⟨x, rest, hsamples, hval, hrest⟩ := hheld.sample
    have hneg := ht.deflection_released
    have ho : o.NotPressed := ⟨x, by rw [hsamples, hrest hneg], by omega⟩
    obtain ⟨os', w, hrun', hw, -, hother⟩ := ht.pass hiter
    have hreadings : readingsOf p (os ++ o :: os') = readingsOf p os ++ [o] := by
      have hnone : os'.filter (fun o => o.pad == p) = [] := by
        rw [List.filter_eq_nil_iff]
        intro o' ho'
        simp [hother o' ho']
      simp [readingsOf, hpad, hnone]
    refine ⟨os ++ o :: os', w, hrun.trans hrun', hw, ?_, ?_⟩
    · rw [hreadings, List.length_append, hlength, List.length_singleton]
    · rw [hreadings]
      intro o' ho'
      rcases List.mem_append.mp ho' with ho' | ho'
      · exact hquiet o' ho'
      · rw [List.mem_singleton.mp ho']
        exact ho

/-! ## From the start on -/

theorem startUp_sensed {on : Firmware → Bool} {readings : Readings} {v : RecalView} :
    Spec (sensingWhile on readings) recalView v startUp fun _ w =>
      (∀ p < 40, w.initVal p = newThreshold readings v.initVal p) ∧
        w.pads.stickyCount = v.pads.stickyCount := by
  have hled : (ledSetColour 0 0 1023).Keeps (SameOn recalView) := by
    refine Keeps.mono (fun s t h => ?_) (ledSetColour_keeps 0 0 1023)
    simp only [SameOn, ledView, Prod.mk.injEq] at h
    obtain ⟨hpads, hstandby, -, -, -, -, -, hdac, hchannel, -⟩ := h
    simp only [SameOn, recalView, hpads, hstandby, hdac, hchannel]
  refine Spec.keeps_bind hled fun _ => ?_
  refine Spec.map_bind (fun v => { v with channel := 5 }) (fun _ => rfl) ?_
  refine Spec.atomic_bind fun i t ht => ?_
  have hinit : t.standby.initVal = v.initVal := congrArg RecalView.initVal ht
  have hcount : t.pads.stickyCount = v.pads.stickyCount :=
    congrArg (fun w => Pads.stickyCount (RecalView.pads w)) ht
  refine Spec.bind calibrate_sensed fun codes w hw => ?_
  refine Spec.keeps_bind (Keeps.act fun _ => rfl) fun _ => Spec.ret ⟨?_, ?_⟩
  · rw [← hinit]
    exact hw.initVal
  · rw [← hcount]
    exact hw.stickyCount

/-- The threshold at a reading that balances the bridge only just. -/
theorem newThreshold_398 (old : Nat → BitVec 16) (p : Nat) :
    newThreshold (fun _ _ => 398) old p = if p < 8 then -278 else -293 := by
  have hdeflection (code : Nat) : deflection (fun _ _ => 398) p code = -398 := by
    show i16 (-adcResult .diff1X10 398) = -398
    decide
  have hbias : biasOf (fun _ _ => 398) p = some 0 := by
    simp only [biasOf, hdeflection]
    decide
  rw [newThreshold, hbias]
  show BitVec.ofInt 16 (_ + threshold p) = _
  rw [hdeflection]
  unfold threshold
  split <;> decide

/-- **A start after which the first pad can be held.** -/
theorem exists_firstPad : ∃ p s, ScanRun avr [] 0 s ∧ FirstPad p s ∧
    s.pads.velocitySent p = false ∧ s.pads.stickyCount p = 0 := by
  obtain ⟨⟨codes, s⟩, hexec⟩ : ∃ r, startUp.exec (heldInput 398) powerOn = r := ⟨_, rfl⟩
  have hrun : ScanRun avr [] 0 s := by
    have hsteady := run_steady avr (heldInput 398) (fun _ => rfl) startUp powerOn
    rw [hexec] at hsteady
    exact .start _ hsteady
  have hcalibrated : Calibrated codes (scanView s) := by
    have hspec := startUp_spec.exec (s := powerOn) (heldInput 398) fun _ => rfl
    rwa [hexec] at hspec
  have hsensed : (∀ p < 40, s.standby.initVal p
        = newThreshold (fun _ _ => 398) powerOn.standby.initVal p) ∧
      s.pads.stickyCount = powerOn.pads.stickyCount := by
    have hspec : Spec (sensingWhile (fun _ => true) fun _ _ => 398) recalView (recalView powerOn)
        startUp fun _ w => (∀ p < 40, w.initVal p
          = newThreshold (fun _ _ => 398) powerOn.standby.initVal p) ∧
            w.pads.stickyCount = powerOn.pads.stickyCount := startUp_sensed
    have hend := hspec.exec (heldInput 398) fun _ => rfl
    rwa [hexec] at hend
  obtain ⟨σ, hσ, horder, -⟩ := hcalibrated.perm
  have hlt : s.pads.padOrder 0 < 40 := by
    rw [show s.pads.padOrder 0 = σ 0 from horder 0 (by decide)]
    exact Nat.lt_succ_of_le (Bubble.perm_le hσ (Nat.zero_le 39))
  have hlt48 : s.pads.padOrder 0 < numPads := Nat.lt_trans hlt (by decide)
  have hsent : s.pads.velocitySent (s.pads.padOrder 0) = false := hcalibrated.sent _ hlt48
  refine ⟨s.pads.padOrder 0, s, hrun, ⟨hlt, hrun.scannable, rfl, fun i hi₀ hi heq => ?_, ?_⟩, hsent,
    ?_⟩
  · have hσ₀ : σ i = σ 0 := by
      rw [← horder i hi, ← horder 0 (by decide)]
      exact heq
    exact absurd (σ.injective hσ₀) (by omega)
  · have hinit := (hsensed.1 _ hlt).trans (newThreshold_398 _ _)
    have hsticky : s.pads.antiStickyApplied (s.pads.padOrder 0) = false :=
      hcalibrated.sticky _ hlt48
    have hnet : (thresholdView s).net (s.pads.padOrder 0)
        = (if s.pads.padOrder 0 < 8 then -278 else -293) - s.standby.raised := by
      simp [ThresholdView.net, offset, thresholdView, Standby.base, hlt, hsent, hsticky, hinit]
    rw [hnet]
    unfold Standby.raised
    split <;> split <;> decide
  · rw [hsensed.2]
    rfl

end SphereWare
