import SphereWare.Properties.HeldPad
import SphereWare.Properties.PressureColour
import SphereWare.Spec.SingleEnded

/-!
# The single-ended pads, one by one

In every run of main each of the single-ended pads 40 to 46 is its machine (`singleEnded_of_run`). A
release does not reset the pressure, so that an old touch shows in a new one
(`pressure_remembered`), and readings that vary little do not make a pad chatter (`changes_once`).
-/

namespace SphereWare

open Interrupt Prog

variable {p i j : Nat} {s s' : Firmware} {os os' : List Outcome} {ok : BitVec 10 → Bool}
  {t u : SePad} {o : Outcome} {a : Int}

/-! ## Refinement -/

/--
**A single-ended pad is its machine.** If all readings of the pad are `ok`, main has, with
interrupts and calibrations anywhere in between, done steps of the machine on such readings: one
for each iteration for the pad, with the branch that goes with it. The pad is played if it is
touched, and the host reads the pressure of the machine at full velocity, or nothing. Threshold and
pressure are in range.
-/
theorem singleEnded_of_run (h40 : 40 ≤ p) (h47 : p < 47) (h : ScanRun (sensedPad p ok) os i s) :
    ∃ raw : BitVec 10, ∃ t, ok raw = true ∧ SeSteps p ok (.calibrated raw.toNat) os t ∧ t.Valid ∧
      s.pads.initValSe p = t.initValSe ∧ s.pads.beingPlayed p = t.touched ∧
      s.hid.entry p = t.entry := by
  obtain ⟨raw, t, hraw, hsteps, hvalid, hreport⟩ := h.se h40 h47
  exact ⟨raw, t, hraw, hsteps, hvalid, congrArg SeReport.initValSe hreport,
    congrArg SeReport.played hreport, congrArg SeReport.entry hreport⟩

/-! ### Passes with given readings -/

theorem SeStep.of_quiet (h : SeStep p ok t o u) (hquiet : o.recalibrated = none) :
    if o.pad = p then
      ∃ raw : BitVec 10, ok raw = true ∧ o.event = t.event raw.toNat ∧ u = t.next raw.toNat
    else u = t := by
  obtain ⟨t₁, hbefore, hstep⟩ := h
  obtain rfl : t₁ = t := by simpa [SeBefore, hquiet] using hbefore
  exact hstep

/-- The pad 40 has its turn in each pass, and its machine is in the state `t`. -/
structure Polled (t : SePad) (s : Firmware) : Prop where
  scannable : Scannable (scanView s)
  turn : ∀ i < numPads, s.pads.padOrder i = 40 ↔ i = 40
  shows : (seReport 40 s).Shows t

/-- The processor on which the pad 40 reads `raw`. -/
abbrev readsAs (raw : BitVec 10) : Machine Firmware Input := sensedPad 40 (· == raw)

theorem heldInput_admits (raw : BitVec 10) (s : Firmware) :
    (readsAs raw).admits s (heldInput raw s) = true := by
  simp [sensedPad, heldInput]

variable {raw : BitVec 10}

theorem Polled.step (h : Polled t s) (hi : i < numPads)
    (hiter : iteration i (heldInput raw) s = (o, s')) :
    LoopStep (readsAs raw) i s (some o) (i + 1) s' ∧ o.recalibrated = none ∧
      if i = 40 then
        o.pad = 40 ∧ o.event = t.event raw.toNat ∧ Polled (t.next raw.toNat) s'
      else o.pad ≠ 40 ∧ Polled t s' := by
  have hexec : (scanPad i).exec (heldInput raw) s = (o, s') := hiter
  have hstep : LoopStep (readsAs raw) i s (some o) (i + 1) s' := by
    have hrun := iteration_loopStep hi (heldInput_admits raw) s
    rwa [hiter] at hrun
  obtain ⟨hcodes, hscannable, hview, horder⟩ :=
    iteration_quiet hi (fun _ => rfl) h.scannable hiter
  have hpad : o.pad = s.pads.padOrder i := hview.1
  have hturn : ∀ i < numPads, s'.pads.padOrder i = 40 ↔ i = 40 := by
    rw [horder]
    exact h.turn
  -- the machine has taken its step
  obtain ⟨u, hu, hshows⟩ : ∃ u, SeStep 40 (· == raw) t o u ∧ (seReport 40 s').Shows u := by
    have hspec := (scanPad_se (v := seView 40 s) (by decide) (by decide) i h.shows).exec
      (heldInput raw) (heldInput_admits raw)
    rwa [hexec] at hspec
  have hnext := hu.of_quiet hcodes
  refine ⟨hstep, hcodes, ?_⟩
  by_cases h40 : i = 40
  · have ho : o.pad = 40 := hpad.trans ((h.turn i hi).mpr h40)
    obtain ⟨raw', hraw, hevent, rfl⟩ := (if_pos ho).mp hnext
    obtain rfl := eq_of_beq hraw
    rw [if_pos h40]
    exact ⟨ho, hevent, hscannable, hturn, hshows⟩
  · have ho : o.pad ≠ 40 := fun heq => h40 ((h.turn i hi).mp (hpad.symm.trans heq))
    obtain rfl : u = t := (if_neg ho).mp hnext
    rw [if_neg h40]
    exact ⟨ho, hscannable, hturn, hshows⟩

/-- The branches taken for the pad 40. -/
def eventsOf (os : List Outcome) : List PadEvent := (readingsOf 40 os).map Outcome.event

theorem eventsOf_append (os os' : List Outcome) :
    eventsOf (os ++ os') = eventsOf os ++ eventsOf os' := by
  rw [eventsOf, readingsOf, List.filter_append, List.map_append]
  rfl

theorem eventsOf_singleton (o : Outcome) :
    eventsOf [o] = if o.pad = 40 then [o.event] else [] := by
  by_cases hpad : o.pad = 40 <;> simp [eventsOf, readingsOf, hpad]

/-- A pass up to a position. -/
theorem Polled.part (raw : BitVec 10) (h : Polled t s) {n : Nat} (hn : n ≤ numPads) :
    ∃ os s', LoopRun (readsAs raw) 0 s os n s' ∧ (∀ o ∈ os, o.recalibrated = none) ∧
      if 40 < n then eventsOf os = [t.event raw.toNat] ∧ Polled (t.next raw.toNat) s'
      else eventsOf os = [] ∧ Polled t s' := by
  induction n with
  | zero => exact ⟨[], s, .refl, fun o ho => (nomatch ho), rfl, h⟩
  | succ n ih =>
    obtain ⟨os, s₁, hrun, hquiet, hpart⟩ := ih (by omega)
    obtain ⟨⟨o, s'⟩, hiter⟩ : ∃ r, iteration n (heldInput raw) s₁ = r := ⟨_, rfl⟩
    have hall (hcodes : o.recalibrated = none) : ∀ o' ∈ os ++ [o], o'.recalibrated = none := by
      intro o' ho'
      rcases List.mem_append.mp ho' with ho' | ho'
      · exact hquiet o' ho'
      · rw [List.mem_singleton.mp ho']
        exact hcodes
    by_cases hbefore : 40 < n
    · rw [if_pos hbefore] at hpart
      obtain ⟨hevents, hpolled⟩ := hpart
      obtain ⟨hstep, hcodes, hnext⟩ := hpolled.step hn hiter
      rw [if_neg (by omega)] at hnext
      refine ⟨os ++ [o], s', hrun.step hstep, hall hcodes, ?_⟩
      rw [if_pos (by omega), eventsOf_append, eventsOf_singleton, if_neg hnext.1, List.append_nil]
      exact ⟨hevents, hnext.2⟩
    · rw [if_neg hbefore] at hpart
      obtain ⟨hevents, hpolled⟩ := hpart
      obtain ⟨hstep, hcodes, hnext⟩ := hpolled.step hn hiter
      refine ⟨os ++ [o], s', hrun.step hstep, hall hcodes, ?_⟩
      by_cases h40 : n = 40
      · rw [if_pos h40] at hnext
        rw [if_pos (by omega), eventsOf_append, eventsOf_singleton, if_pos hnext.1, hevents,
          hnext.2.1]
        exact ⟨rfl, hnext.2.2⟩
      · rw [if_neg h40] at hnext
        rw [if_neg (by omega), eventsOf_append, eventsOf_singleton, if_neg hnext.1,
          List.append_nil]
        exact ⟨hevents, hnext.2⟩

theorem Polled.pass (raw : BitVec 10) (h : Polled t s) :
    ∃ os s', LoopRun (readsAs raw) 0 s os 0 s' ∧ (∀ o ∈ os, o.recalibrated = none) ∧
      eventsOf os = [t.event raw.toNat] ∧ Polled (t.next raw.toNat) s' := by
  obtain ⟨os, s₁, hrun, hquiet, hpart⟩ := h.part raw (Nat.le_refl numPads)
  rw [if_pos (by decide)] at hpart
  obtain ⟨hevents, hpolled⟩ := hpart
  let s' := (endPass.exec (heldInput raw) s₁).2
  have hpass (M : Machine Firmware Input) (hadm : ∀ s, M.admits s (heldInput raw s) = true) :
      LoopStep M numPads s₁ none 0 s' := .pass _ (run_steady M (heldInput raw) hadm endPass s₁)
  have hreport : seReport 40 s' = seReport 40 s₁ :=
    (endPass_se (v := seView 40 s₁)).exec (heldInput raw) (heldInput_admits raw)
  obtain ⟨hscannable, sum, prev, hview⟩ := (hpass avr fun _ => rfl).view hpolled.scannable
  have horder : s'.pads.padOrder = s₁.pads.padOrder :=
    congrArg (fun v => v.pads.padOrder) hview
  have hrun' := hrun.step (hpass _ (heldInput_admits raw))
  rw [Option.toList_none, List.append_nil] at hrun'
  refine ⟨os, s', hrun', hquiet, hevents, hscannable, ?_, hreport ▸ hpolled.shows⟩
  rw [horder]
  exact hpolled.turn

/-- The branches of the machine for the readings `raws`. -/
def SePad.events : SePad → List (BitVec 10) → List PadEvent
  | _, [] => []
  | t, raw :: raws => t.event raw.toNat :: (t.next raw.toNat).events raws

/-- **The pad can be given any readings, one in each pass.** -/
theorem Polled.exists_passes (h : Polled t s) (ok : BitVec 10 → Bool) (raws : List (BitVec 10))
    (hok : ∀ raw ∈ raws, ok raw = true) :
    ∃ os s', LoopRun (sensedPad 40 ok) 0 s os 0 s' ∧ (∀ o ∈ os, o.recalibrated = none) ∧
      eventsOf os = t.events raws ∧
        Polled (raws.foldl (fun t raw => t.next raw.toNat) t) s' := by
  induction raws generalizing s t with
  | nil => exact ⟨[], s, .refl, fun o ho => (nomatch ho), rfl, h⟩
  | cons raw raws ih =>
    obtain ⟨hraw, hrest⟩ := List.forall_mem_cons.mp hok
    obtain ⟨os, s₁, hpass, hquiet, hevents, hpolled⟩ := h.pass raw
    obtain ⟨os', s', hrun, hquiet', hevents', hpolled'⟩ := ih hpolled hrest
    have hrestricts : (readsAs raw).Restricts (sensedPad 40 ok) := by
      refine ⟨rfl, rfl, rfl, fun _ => id, fun s i hadm => ?_⟩
      simp only [sensedPad, Bool.or_eq_true, beq_iff_eq] at hadm ⊢
      exact hadm.imp_right fun (heq : i.adc = raw) => heq ▸ hraw
    refine ⟨os ++ os', s', (hpass.of_restricts hrestricts).trans hrun, fun o ho => ?_, ?_,
      hpolled'⟩
    · exact (List.mem_append.mp ho).elim (hquiet o) (hquiet' o)
    · rw [eventsOf_append, hevents, hevents']
      rfl

/-- The pads from 40 on read 600. -/
theorem atRest_admits {ok : BitVec 10 → Bool} (hok : ok 600 = true) (s : Firmware) :
    (sensedPad 40 ok).admits s (atRest s) = true := by
  by_cases hchannel : s.ports.channel = 40
  · simpa [sensedPad, atRest, hchannel] using hok
  · simp [sensedPad, hchannel]

theorem bootedAtRest_scanRun {M : Machine Firmware Input}
    (hadm : ∀ s, M.admits s (atRest s) = true) : ScanRun M [] 0 bootedAtRest.2 :=
  .start _ (run_steady_mk M atRest hadm startUp powerOn)

theorem shows_bootedAtRest :
    (seReport 40 bootedAtRest.2).Shows (.calibrated (600 : BitVec 10).toNat) := by
  have hstart : Spec (readsAs 600) (seView 40) (seView 40 powerOn) startUp
      fun _ w => ∃ raw : BitVec 10, (raw == 600) = true ∧ w.report.Shows (.calibrated raw.toNat) :=
    startUp_se (by decide) (by decide)
  obtain ⟨raw, hraw, ht⟩ := hstart.exec atRest (atRest_admits rfl)
  obtain rfl := eq_of_beq hraw
  unfold bootedAtRest
  generalize startUp.exec atRest powerOn = r at ht ⊢
  exact ht

/-- The machine of pad 40 after the calibration: its threshold is 560. -/
def firstSePad : SePad := .calibrated 600

theorem polled_of_calibrated {codes : Nat → Nat} (hcal : Calibrated codes (scanView s))
    (hshows : (seReport 40 s).Shows t) : Polled t s := by
  obtain ⟨σ, hσ, horder, -⟩ := hcal.perm
  refine ⟨hcal.scannable, fun i hi => ?_, hshows⟩
  rw [show s.pads.padOrder i = σ i from horder i hi]
  constructor
  · exact fun h => σ.injective (h.trans (hσ 40 (by decide)).symm)
  · rintro rfl
    exact hσ 40 (by decide)

theorem polled_bootedAtRest : Polled firstSePad bootedAtRest.2 := by
  have hcal : Calibrated bootedAtRest.1 (scanView bootedAtRest.2) :=
    startUp_spec.exec atRest fun _ => rfl
  exact polled_of_calibrated hcal shows_bootedAtRest

/-- The pad is pressed, and at the third reading it is held by the hysteresis. -/
theorem singleEnded_of_run_pressed : ∃ (os : List Outcome) (s : Firmware),
    eventsOf os = [.release, .pressure, .pressure] ∧ ∃ raw : BitVec 10, ∃ t, decide (raw ∈ [600, 0, 565]) = true ∧
      SeSteps 40 (fun raw => decide (raw ∈ [600, 0, 565])) (.calibrated raw.toNat) os t ∧
      t.Valid ∧ s.pads.initValSe 40 = t.initValSe ∧ s.pads.beingPlayed 40 = t.touched ∧
      s.hid.entry 40 = t.entry := by
  obtain ⟨os, s, hrun, -, hevents, -⟩ :=
    polled_bootedAtRest.exists_passes (fun raw => decide (raw ∈ [600, 0, 565]))
      [600, 0, 565] (by decide)
  have hscan := (bootedAtRest_scanRun fun s => atRest_admits (by decide) s).append hrun
  exact ⟨os, s, hevents, singleEnded_of_run (by decide) (by decide) hscan⟩

/-! ## Touches in a row -/

/-- The iterations that press the pad `p`. -/
def pressesOf (p : Nat) (os : List Outcome) : List Outcome :=
  (readingsOf p os).filter fun o => o.event == .pressure

theorem pressesOf_append (p : Nat) (os os' : List Outcome) :
    pressesOf p (os ++ os') = pressesOf p os ++ pressesOf p os' := by
  simp only [pressesOf, readingsOf, List.filter_append]

theorem pressesOf_singleton (p : Nat) (o : Outcome) :
    (pressesOf p [o]).length = if o.pad = p ∧ o.event = .pressure then 1 else 0 := by
  by_cases hpad : o.pad = p
  · by_cases hevent : o.event = .pressure
    · simp [pressesOf, readingsOf, hpad, hevent]
    · simp [pressesOf, readingsOf, hpad, hevent]
  · simp [pressesOf, readingsOf, hpad]

/-- A reading leaves half of the pressure at least, and a release leaves it alone. -/
theorem SePad.Valid.pressure_le (h : t.Valid) (a : Int) :
    t.pressure ≤ 2 ^ (if t.event a = .pressure then 1 else 0) * (t.next a).pressure := by
  unfold SePad.event SePad.next
  by_cases hpress : 0 < t.initValSe - a
  · rw [if_pos hpress, if_pos hpress, if_pos rfl, pow_one]
    exact Blend.le_two_mul_halfway h.pressure.1 h.pressure.2 (by omega)
  · rw [if_neg hpress, if_neg hpress, if_neg (by simp), pow_zero, one_mul]

theorem SeSteps.pressure_le (h : SeSteps p ok t os u) (hquiet : ∀ o ∈ os, o.recalibrated = none)
    (ht : t.Valid) : u.Valid ∧ t.pressure ≤ 2 ^ (pressesOf p os).length * u.pressure := by
  induction h with
  | refl => exact ⟨ht, by simp [pressesOf, readingsOf]⟩
  | @step os o u w h hstep ih =>
    obtain ⟨hu, hle⟩ := ih fun o' ho' => hquiet o' (List.mem_append_left _ ho')
    have hnext := hstep.of_quiet (hquiet o (by simp))
    rw [pressesOf_append, List.length_append, pow_add, pressesOf_singleton, mul_assoc]
    by_cases hpad : o.pad = p
    · rw [if_pos hpad] at hnext
      obtain ⟨raw, -, hevent, rfl⟩ := hnext
      refine ⟨hu.next _, hle.trans (Int.mul_le_mul_of_nonneg_left ?_ (by positivity))⟩
      rw [hevent]
      simpa [hpad] using hu.pressure_le raw.toNat
    · rw [if_neg hpad] at hnext
      subst hnext
      exact ⟨hu, by simpa [hpad] using hle⟩

/-- The pressure the host reads of a pad that is played. -/
theorem SeReport.Shows.pressure {r : SeReport} (h : r.Shows t) (hplayed : r.played = true) :
    (r.entry.1 : Int) = t.pressure := by
  obtain ⟨hvalid, rfl⟩ := h
  have htouched : t.touched = true := hplayed
  simp only [SePad.entry, if_pos htouched]
  exact Int.toNat_of_nonneg hvalid.pressure.1

/--
**An old touch shows in a new one.** Between two moments at which the host reads one of the pads 40
to 46 as played, with releases and touches in between but no calibration, the pressure has been
halved at most once for each reading that pressed the pad: the first pressure of a touch is at least
half of the last one of the touch before, however long ago that was and however lightly the pad is
touched.
-/
theorem pressure_remembered (h40 : 40 ≤ p) (h47 : p < 47) (h : ScanRun avr os i s)
    (h' : LoopRun avr i s os' j s') (hquiet : ∀ o ∈ os', o.recalibrated = none)
    (hplayed : s.pads.beingPlayed p = true) (hplayed' : s'.pads.beingPlayed p = true) :
    (s.hid.entry p).1 ≤ 2 ^ (pressesOf p os').length * (s'.hid.entry p).1 := by
  rw [← sensedPad_any p] at h h'
  obtain ⟨raw, t, -, -, ht⟩ := h.se h40 h47
  obtain ⟨u, hsteps, hu⟩ := h'.se h40 h47 ht
  have hle := (hsteps.pressure_le hquiet ht.1).2
  rw [← ht.pressure hplayed, ← hu.pressure hplayed'] at hle
  exact_mod_cast hle

/--
A touch at full pressure, a release and a touch by one step of the converter: the host still reads
half of the full pressure.
-/
theorem pressure_remembered_light : ∃ (os' : List Outcome) (s' : Firmware),
    eventsOf os' = [.release, .pressure] ∧ 511 ≤ 2 ^ (pressesOf 40 os').length * (s'.hid.entry 40).1 := by
  obtain ⟨os, s, hrun, -, -, hpolled⟩ :=
    polled_bootedAtRest.exists_passes (fun _ => true) [0] fun _ _ => rfl
  obtain ⟨os', s', hrun', hquiet, hevents, hpolled'⟩ :=
    hpolled.exists_passes (fun _ => true) [600, 559] fun _ _ => rfl
  rw [sensedPad_any] at hrun hrun'
  have hscan := (bootedAtRest_scanRun fun _ => rfl).append hrun
  have hentry : s.hid.entry 40 = (511, 127) :=
    (congrArg SeReport.entry hpolled.shows.2).trans (by decide)
  have hle := pressure_remembered (by decide) (by decide) hscan hrun' hquiet
    ((congrArg SeReport.played hpolled.shows.2).trans (by decide))
    ((congrArg SeReport.played hpolled'.shows.2).trans (by decide))
  rw [hentry] at hle
  exact ⟨os', s', hevents, hle⟩

/-! ## Chatter -/

theorem SePad.decide_event (t : SePad) (a : Int) :
    (t.event a == .pressure) = (t.next a).touched := by
  unfold SePad.event SePad.next
  split <;> rfl

/-- The pad is a trigger with the threshold of the calibration. -/
theorem SeSteps.states (h : SeSteps p ok t os u) (hquiet : ∀ o ∈ os, o.recalibrated = none) :
    ∃ l : List Int, (∀ a ∈ l, ∃ raw : BitVec 10, ok raw = true ∧ a = raw.toNat) ∧
      u.threshold = t.threshold ∧
      u.touched = l.foldl (Hysteresis.next t.threshold (t.threshold + 10)) t.touched ∧
      (readingsOf p os).map (fun o => o.event == .pressure)
        = Hysteresis.states t.threshold (t.threshold + 10) t.touched l := by
  induction h with
  | refl => exact ⟨[], List.forall_mem_nil _, rfl, rfl, rfl⟩
  | @step os o u w h hstep ih =>
    obtain ⟨l, hl, hthreshold, htouched, hevents⟩ :=
      ih fun o' ho' => hquiet o' (List.mem_append_left _ ho')
    have hnext := hstep.of_quiet (hquiet o (by simp))
    have hreadings : readingsOf p (os ++ [o]) = readingsOf p os ++ readingsOf p [o] :=
      List.filter_append _ _
    rw [hreadings, List.map_append, hevents]
    by_cases hpad : o.pad = p
    · rw [if_pos hpad] at hnext
      obtain ⟨raw, hraw, hevent, rfl⟩ := hnext
      refine ⟨l ++ [(raw.toNat : Int)], ?_, (u.threshold_next _).trans hthreshold, ?_, ?_⟩
      · intro a ha
        rcases List.mem_append.mp ha with ha | ha
        · exact hl a ha
        · exact ⟨raw, hraw, List.mem_singleton.mp ha⟩
      · rw [List.foldl_append, ← htouched, SePad.touched_next, hthreshold]
        rfl
      · have hreading : readingsOf p [o] = [o] := List.filter_cons_of_pos (by simpa using hpad)
        rw [Hysteresis.states_append, ← htouched, hreading, List.map_singleton, hevent,
          SePad.decide_event, SePad.touched_next, hthreshold]
    · rw [if_neg hpad] at hnext
      subst hnext
      have hreading : readingsOf p [o] = [] := List.filter_cons_of_neg (by simpa using hpad)
      refine ⟨l, hl, hthreshold, htouched, ?_⟩
      rw [hreading, List.map_nil, List.append_nil]

/--
**A pad does not chatter.** While the readings of one of the pads 40 to 46 differ by ten at most and
no calibration comes, the pad changes once at most between played and not played, counted from what
it was before the first of the readings, whatever its threshold is and whatever happens to the rest
of the device.
-/
theorem changes_once {lo : Nat} (h40 : 40 ≤ p) (h47 : p < 47) (h : ScanRun avr os i s)
    (h' : LoopRun (sensedPad p fun raw => decide (lo ≤ raw.toNat ∧ raw.toNat ≤ lo + 10))
      i s os' j s')
    (hquiet : ∀ o ∈ os', o.recalibrated = none) :
    Hysteresis.ChangesOnce
      (s.pads.beingPlayed p :: (readingsOf p os').map fun o => o.event == .pressure) := by
  rw [← sensedPad_any p] at h
  obtain ⟨raw, t, -, -, ht⟩ := h.se h40 h47
  obtain ⟨u, hsteps, -⟩ := h'.se h40 h47 ht
  obtain ⟨l, hl, -, -, hevents⟩ := hsteps.states hquiet
  rw [hevents, show s.pads.beingPlayed p = t.touched from congrArg SeReport.played ht.2]
  have hband : ∀ a ∈ l, (lo : Int) ≤ a ∧ a ≤ lo + 10 := by
    intro a ha
    obtain ⟨raw, hraw, rfl⟩ := hl a ha
    have hwithin := of_decide_eq_true hraw
    omega
  refine Hysteresis.changesOnce t.touched ?_
  -- the band is narrower than the distance of the thresholds
  rcases le_or_gt t.threshold lo with hlow | hlow
  · exact .inl fun a ha => hlow.trans (hband a ha).1
  · exact .inr fun a ha => by have := (hband a ha).2; omega

/-- Readings around the threshold play the pad for good. -/
theorem changes_once_wavering : ∃ os', eventsOf os' =
      [.release, .release, .pressure, .pressure, .pressure] ∧
    Hysteresis.ChangesOnce (bootedAtRest.2.pads.beingPlayed 40 ::
      (readingsOf 40 os').map fun o => o.event == .pressure) := by
  obtain ⟨os', s', hrun, hquiet, hevents, -⟩ := polled_bootedAtRest.exists_passes
    (fun raw => decide (555 ≤ raw.toNat ∧ raw.toNat ≤ 555 + 10)) [565, 560, 559, 564, 565]
    (by decide)
  exact ⟨os', hevents, changes_once (by decide) (by decide)
    (bootedAtRest_scanRun fun _ => rfl) hrun hquiet⟩

end SphereWare
