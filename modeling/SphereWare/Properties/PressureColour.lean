import SphereWare.Blend.Linear
import SphereWare.Spec.MainProgram
import SphereWare.Spec.Pressure
import SphereWare.Spec.ScanRun

/-!
# The colour for the pressure

At the end of a pass main blends two neighbouring colours of the palette by the sum of the
pressures. Where the sum lies in the upper half and was zero in the pass before, the source assigns
no colour, and the LED gets what lay in memory.
-/

namespace SphereWare

open Interrupt Prog Blend

/-! ## Colours -/

/-- A channel of a colour. -/
def channel (c : Colour) : Nat → Nat
  | 0 => c.1
  | 1 => c.2.1
  | _ => c.2.2

/-- Red, green and blue together. -/
def total (c : Colour) : Nat := c.1 + c.2.1 + c.2.2

/-! ## The palette -/

/-- The first three rows and channels of `LED_Colour_Values`. -/
abbrev Palette : Type := Nat → Nat → Nat

/-- A row of the palette. -/
def Palette.row (pal : Palette) (row : Nat) : Colour := (pal row 0, pal row 1, pal row 2)

/-- The blend of a row and the next one at `sum`. -/
def Palette.faded (pal : Palette) (row sum : Nat) : Colour :=
  let f (c : Nat) := fadeChannel (pal row c) ((pal row c : Int) - pal (row + 1) c) sum
  (f 0, f 1, f 2)

theorem fadeChannel_eq_blend (m n sum : Nat) :
    fadeChannel m ((m : Int) - n) sum = ⌊blend (m : ℚ) n (sum / 1023)⌋₊ := by
  have hblend : (m : ℚ) - sum * (((m : Int) - n : Int) / 1023) = blend (m : ℚ) n (sum / 1023) := by
    unfold blend
    push_cast
    ring
  rw [fadeChannel, hblend, truncate, Int.floor_toNat]

variable {pal : Palette} {row sum : Nat}

theorem fraction_range (hsum : sum ≤ 1023) : (0 : ℚ) ≤ sum / 1023 ∧ (sum : ℚ) / 1023 ≤ 1 := by
  have hcast : (sum : ℚ) ≤ 1023 := by exact_mod_cast hsum
  exact ⟨by positivity, (div_le_one (by norm_num)).mpr hcast⟩

/-- A colour between two neighbouring rows that is within the budget of the LED. -/
structure InBudget (pal : Palette) (c : Colour) : Prop where
  between : ∃ row < 2, ∀ ch < 3, min (pal row ch) (pal (row + 1) ch) ≤ channel c ch ∧
    channel c ch ≤ max (pal row ch) (pal (row + 1) ch)
  total : total c ≤ 1023

theorem inBudget_faded (hpal : ∀ row < 3, total (pal.row row) ≤ 1023) (hrow : row < 2)
    (hsum : sum ≤ 1023) : InBudget pal (pal.faded row sum) := by
  obtain ⟨h₀, h₁⟩ := fraction_range hsum
  have hchannel (ch : Nat) (hch : ch < 3) : channel (pal.faded row sum) ch
      = ⌊blend (pal row ch : ℚ) (pal (row + 1) ch) (sum / 1023)⌋₊ := by
    rw [← fadeChannel_eq_blend]
    match ch, hch with
    | 0, _ => rfl
    | 1, _ => rfl
    | 2, _ => rfl
  refine ⟨⟨row, hrow, fun ch hch => ?_⟩, ?_⟩
  · rw [hchannel ch hch]
    exact ⟨min_le_floor_blend _ _ h₀ h₁, floor_blend_le_max _ _ h₀ h₁⟩
  · have hrows := sum_floor_blend_le (pal row 0) (pal (row + 1) 0) (pal row 1) (pal (row + 1) 1)
      (pal row 2) (pal (row + 1) 2) h₀ h₁
    rw [← hchannel 0 (by decide), ← hchannel 1 (by decide), ← hchannel 2 (by decide)] at hrows
    have hthis : pal row 0 + pal row 1 + pal row 2 ≤ 1023 := hpal row (by omega)
    have hnext : pal (row + 1) 0 + pal (row + 1) 1 + pal (row + 1) 2 ≤ 1023 :=
      hpal (row + 1) (by omega)
    exact le_trans hrows (max_le hthis hnext)

theorem inBudget_row (hpal : ∀ row < 3, total (pal.row row) ≤ 1023) : InBudget pal (pal.row 0) := by
  refine ⟨⟨0, by decide, fun ch hch => ?_⟩, hpal 0 (by decide)⟩
  match ch, hch with
  | 0, _ => exact ⟨min_le_left _ _, le_max_left _ _⟩
  | 1, _ => exact ⟨min_le_left _ _, le_max_left _ _⟩
  | 2, _ => exact ⟨min_le_left _ _, le_max_left _ _⟩

/-! ## What main makes of the sum -/

/-- The sum scaled to two ranges of 1023. -/
def scaledSum (n : Nat) : Nat := if 0 < n then n * 2 + 1 else 0

/-- The colour for the sums of this pass and the one before. `old` is what the locals hold. -/
def pressureTriple (pal : Palette) (n prev : Nat) (old : Colour) : Colour :=
  if scaledSum n ≤ 1023 then
    if 0 < prev then pal.faded 0 (scaledSum n) else pal.row 0
  else if 0 < prev then pal.faded 1 (min 1023 (scaledSum n - 1022)) else old

/-- A colour is assigned. -/
def Assigned (n prev : Nat) : Prop := 0 < prev ∨ n ≤ 511

theorem scaledSum_le_iff (n : Nat) : scaledSum n ≤ 1023 ↔ n ≤ 511 := by
  unfold scaledSum
  split <;> omega

theorem pressureTriple_of_assigned {n prev : Nat} (h : Assigned n prev) (old old' : Colour) :
    pressureTriple pal n prev old = pressureTriple pal n prev old' := by
  unfold pressureTriple
  split
  · rfl
  · next hn =>
    rw [scaledSum_le_iff] at hn
    rw [if_pos (h.resolve_right hn), if_pos (h.resolve_right hn)]

theorem pressureTriple_of_not_assigned {n prev : Nat} (h : ¬Assigned n prev) (old : Colour) :
    pressureTriple pal n prev old = old := by
  rw [Assigned, not_or] at h
  rw [pressureTriple, if_neg (mt (scaledSum_le_iff n).mp h.2), if_neg h.1]

theorem inBudget_pressureTriple {n prev : Nat} (hpal : ∀ row < 3, total (pal.row row) ≤ 1023)
    (h : Assigned n prev) (old : Colour) : InBudget pal (pressureTriple pal n prev old) := by
  unfold pressureTriple
  split
  · next hn =>
    split
    · exact inBudget_faded hpal (by decide) hn
    · exact inBudget_row hpal
  · next hn =>
    rw [scaledSum_le_iff] at hn
    rw [if_pos (h.resolve_right hn)]
    exact inBudget_faded hpal (by decide) (min_le_left _ _)

/-! ## Choosing the colour -/

/-- Normal mode, the LED on and following the pressure, and `pal` its palette. -/
def Showing (pal : Palette) (s : Firmware) : Prop :=
  s.led.mode = 0 ∧ s.led.status ≠ 0 ∧ s.led.pressureStatus ≠ 0 ∧
    ∀ row < 3, ∀ ch < 3, s.led.colourValues row ch = pal row ch

instance (pal : Palette) (s : Firmware) : Decidable (Showing pal s) := by
  unfold Showing
  infer_instance

/-- One of the two conditions for the clock fade is not met. -/
def NoFade (byStatus : Bool) (s : Firmware) : Prop :=
  if byStatus then s.led.clockStatus = 0 else s.led.clockRunning = 0

instance (byStatus : Bool) (s : Firmware) : Decidable (NoFade byStatus s) := by
  unfold NoFade
  infer_instance

/-- All along, the LED shows the pressure in the same palette and does not fade with a clock. -/
structure HeldFixed (pal : Palette) (l : List Firmware) : Prop where
  showing : ∀ s ∈ l, Showing pal s
  noFade : ∃ byStatus, ∀ s ∈ l, NoFade byStatus s

/-- The processor in such states. -/
def heldAvr (pal : Palette) (byStatus : Bool) : Machine Firmware Input :=
  avr.confine fun s => decide (Showing pal s ∧ NoFade byStatus s)

variable {byStatus : Bool} {v : PressureView}

theorem held_of_admits {s : Firmware} {i : Input} (h : (heldAvr pal byStatus).admits s i = true) :
    Showing pal s ∧ NoFade byStatus s := by
  have hadm : (true && decide (Showing pal s ∧ NoFade byStatus s)) = true := h
  simpa using hadm

theorem heldAvr_sound (byStatus : Bool) : (Rely.ofView pressureView).Sound (heldAvr pal byStatus) :=
  Rely.ofView_sound (fun _ => rfl) (fun _ => rfl) timerHandler_pressure

theorem readColour_spec {α : Type} {ch : Nat} (hrow : row < 3) (hch : ch < 3) {q : Nat → Code α}
    {Q : α → PressureView → Prop}
    (h : Spec (heldAvr pal byStatus) pressureView v (q (pal row ch)) Q) :
    Spec (heldAvr pal byStatus) pressureView v
      ((read fun s => s.led.colourValues row ch).bind q) Q :=
  Spec.read_bind_of_admits _ (fun _ _ _ hi => (held_of_admits hi).1.2.2.2 row hrow ch hch) h

theorem paletteRow_spec (hrow : row < 3) :
    Spec (heldAvr pal byStatus) pressureView v (paletteRow row) fun c w =>
      c = pal.row row ∧ w = v := by
  refine readColour_spec hrow (by decide) (readColour_spec hrow (by decide) ?_)
  exact readColour_spec hrow (by decide) (Spec.ret ⟨rfl, rfl⟩)

theorem fadeColour_spec (hrow : row < 2) (sum : Nat) :
    Spec (heldAvr pal byStatus) pressureView v (fadeColour row sum) fun c w =>
      c = pal.faded row sum ∧ w = v := by
  have hdif {α : Type} (ch : Nat) (hch : ch < 3) {q : Int → Code α} {Q : α → PressureView → Prop}
      (h : Spec (heldAvr pal byStatus) pressureView v
        (q ((pal row ch : Int) - pal (row + 1) ch)) Q) :
      Spec (heldAvr pal byStatus) pressureView v ((read fun s =>
        (s.led.colourValues row ch : Int) - s.led.colourValues (row + 1) ch).bind q) Q := by
    refine Spec.read_bind_of_admits _ (fun _ _ _ hi => ?_) h
    obtain ⟨⟨-, -, -, hpalette⟩, -⟩ := held_of_admits hi
    rw [hpalette row (by omega) ch hch, hpalette (row + 1) (by omega) ch hch]
  refine hdif 0 (by decide) (hdif 1 (by decide) (hdif 2 (by decide) ?_))
  refine Spec.bind (paletteRow_spec (by omega)) ?_
  rintro c w ⟨rfl, rfl⟩
  exact Spec.ret ⟨rfl, rfl⟩

theorem double_or_one (n : Nat) : (n * 2 ||| 1) = n * 2 + 1 := by
  have h := Nat.two_pow_add_eq_or_of_lt (i := 1) (b := 1) (by decide) n
  rw [pow_one, Nat.mul_comm] at h
  exact h.symm

/-- Doubling the sum does not wrap around. -/
theorem doubled_eq_scaledSum {n : Nat} (hsum : n * 2 + 1 < 65536) :
    (if 0 < n then (n * 2 ||| 1) % 65536 else 0) = scaledSum n := by
  rw [double_or_one, Nat.mod_eq_of_lt hsum]
  rfl

theorem pressureColour_spec (hsum : v.ledSum * 2 + 1 < 65536) (old : Colour) :
    Spec (heldAvr pal byStatus) pressureView v (pressureColour old) fun c _ =>
      c = pressureTriple pal v.ledSum v.prevLedSum old := by
  refine Spec.act_bind { v with ledSum := scaledSum v.ledSum } (fun t ht => ?_) ?_
  · subst ht
    rw [← doubled_eq_scaledSum hsum]
    rfl
  refine Spec.read_bind (scaledSum v.ledSum) (fun t ht => congrArg PressureView.ledSum ht) ?_
  refine Spec.ite (fun hlow => ?_) fun hhigh => ?_
  · refine Spec.read_bind v.prevLedSum (fun t ht => congrArg PressureView.prevLedSum ht) ?_
    rw [pressureTriple, if_pos hlow]
    refine Spec.ite (fun hprev => ?_) fun hprev => ?_
    · rw [if_pos hprev]
      exact Spec.mono (fadeColour_spec (by decide) _) fun _ _ h => h.1
    · rw [if_neg hprev]
      exact Spec.mono (paletteRow_spec (by decide)) fun _ _ h => h.1
  · refine Spec.act_bind { v with ledSum := min 1023 (scaledSum v.ledSum - 1022) }
      (fun t ht => ?_) ?_
    · have hsum' : t.pads.ledSum = scaledSum v.ledSum := congrArg PressureView.ledSum ht
      have hclamp : (if 1023 < t.pads.ledSum - 1022 then 1023 else t.pads.ledSum - 1022)
          = min 1023 (scaledSum v.ledSum - 1022) := by
        rw [hsum']
        split <;> omega
      have hview : pressureView { t with pads := { t.pads with
          ledSum := if 1023 < t.pads.ledSum - 1022 then 1023 else t.pads.ledSum - 1022 } }
          = { pressureView t with ledSum := min 1023 (scaledSum v.ledSum - 1022) } := by
        rw [hclamp]
        rfl
      rw [hview, ht]
    refine Spec.read_bind _ (fun t ht => congrArg PressureView.ledSum ht) ?_
    refine Spec.read_bind v.prevLedSum (fun t ht => congrArg PressureView.prevLedSum ht) ?_
    rw [pressureTriple, if_neg hhigh]
    refine Spec.ite (fun hprev => ?_) fun hprev => ?_
    · rw [if_pos hprev]
      exact Spec.mono (fadeColour_spec (by decide) _) fun _ _ h => h.1
    · rw [if_neg hprev]
      exact Spec.ret rfl

/-- Without the clock fade the colour stays as it is. -/
theorem clockFade_spec (c : Colour) :
    Spec (heldAvr pal byStatus) pressureView v (clockFade c) fun c' _ => c' = c := by
  have hskip (on running : Bool) (hoff : ¬(on = true ∧ running = true)) :
      Spec (heldAvr pal byStatus) pressureView v
        (if on ∧ running then critical .clockFade do
          let step ← read fun s => s.led.fadeStep
          act fun s => { s with led := nextFadeStep s.led s.midi.clockTimingCount }
          pure (if 0 < step then (dim c.1 step, dim c.2.1 step, dim c.2.2 step) else (0, 0, 0))
        else pure c) fun c' _ => c' = c := by
    rw [if_neg hoff]
    exact Spec.ret rfl
  cases byStatus with
  | true =>
    refine Spec.read_bind_of_admits false (fun _ t _ hi => ?_) ?_
    · obtain ⟨-, hstatus⟩ := held_of_admits hi
      exact decide_eq_false (not_not_intro hstatus)
    · exact Spec.keeps_bind (Keeps.atomic fun _ _ => rfl) fun running => hskip _ _ (by simp)
  | false =>
    refine Spec.keeps_bind (Keeps.atomic fun _ _ => rfl) fun on => ?_
    refine Spec.read_bind_of_admits false (fun _ t _ hi => ?_) (hskip _ _ (by simp))
    obtain ⟨-, hrunning⟩ := held_of_admits hi
    exact decide_eq_false (not_not_intro hrunning)

theorem colour_spec (hsum : v.ledSum * 2 + 1 < 65536) (old : Colour) :
    Spec (heldAvr pal byStatus) pressureView v ((baseColour old).bind clockFade) fun c _ =>
      c = pressureTriple pal v.ledSum v.prevLedSum old := by
  refine Spec.bind (Q := fun c _ => c = pressureTriple pal v.ledSum v.prevLedSum old) ?_ ?_
  · refine Spec.atomic_bind_of_admits fun i t ht hi => ?_
    obtain ⟨⟨-, -, hpressure, -⟩, -⟩ := held_of_admits hi
    show Spec _ _ (pressureView t) (if t.led.pressureStatus ≠ 0 then _ else _) _
    rw [if_pos hpressure, ht]
    exact pressureColour_spec hsum old
  · intro c w hc
    rw [← hc]
    exact clockFade_spec c

/-- Whatever lies in memory, the colour is the one for the sums. -/
theorem colourToSet_spec (hsum : v.ledSum * 2 + 1 < 65536) :
    Spec (heldAvr pal byStatus) pressureView v colourToSet fun c _ =>
      ∃ old, c = pressureTriple pal v.ledSum v.prevLedSum old := by
  refine Spec.atomic_bind fun i t ht => ?_
  show Spec _ _ (pressureView t) _ _
  rw [ht]
  exact Spec.mono (colour_spec hsum i.stack) fun c _ hc => ⟨_, hc⟩

/-! ## Runs -/

/-- The states main reaches at the positions of a pass. `led_sum` and `prev_led_sum` start at 0. -/
inductive PassRun : Nat → Firmware → Prop where
  | start {s₀ s : Firmware} {codes : Nat → Nat} (sched : Sched Input)
      (hsum : s₀.pads.ledSum = 0) (hprev : s₀.pads.prevLedSum = 0)
      (hrun : startUp.run avr sched s₀ = some (codes, s)) : PassRun 0 s
  | step {i i' : Nat} {s t : Firmware} {o : Option Outcome} (h : PassRun i s)
      (hstep : LoopStep avr i s o i' t) : PassRun i' t

theorem PassRun.scanRun {i : Nat} {s : Firmware} (h : PassRun i s) : ∃ os, ScanRun avr os i s := by
  induction h with
  | start sched _ _ hrun => exact ⟨_, .start sched hrun⟩
  | step _ hstep ih =>
    obtain ⟨os, hos⟩ := ih
    exact ⟨_, .step hos hstep⟩

theorem startUp_pressure {v : PressureView} :
    Spec avr pressureView v startUp fun _ w => Pressures w ∧ SameSums v w := by
  refine Spec.keeps_bind (Keeps.mono (fun s t h => pressureView_of_pads ?_)
    (ledSetColour_keeps 0 0 1023)) fun _ => ?_
  · simp only [SameOn, ledView, Prod.mk.injEq] at h
    exact h.1
  refine Spec.keeps_bind (Keeps.act fun _ => rfl) fun _ => ?_
  refine Spec.keeps_bind (Keeps.atomic fun _ _ => rfl) fun _ => ?_
  refine Spec.bind calibrate_pressure fun _ w hw => ?_
  exact Spec.keeps_bind (Keeps.act fun _ => rfl) fun _ => Spec.ret hw

/-- All but the sums is the same. -/
def SameButSums (v w : PressureView) : Prop :=
  w.filtered = v.filtered ∧ w.initValSe = v.initValSe ∧ w.hysterisis = v.hysterisis

theorem SameButSums.trans {u v w : PressureView} (h₁ : SameButSums u v) (h₂ : SameButSums v w) :
    SameButSums u w :=
  ⟨h₂.1.trans h₁.1, h₂.2.1.trans h₁.2.1, h₂.2.2.trans h₁.2.2⟩

theorem SameButSums.pressures {v w : PressureView} (h : SameButSums v w) (hv : Pressures v) :
    Pressures w where
  filtered p hp := h.1 ▸ hv.filtered p hp
  calm p hp h40 := by
    have hcalm := hv.calm p hp h40
    rwa [PressureView.Calm, PressureView.rest, ← h.2.1, ← h.2.2] at hcalm

theorem ledColour_sameButSums :
    ledColour.Keeps fun s t => SameButSums (pressureView s) (pressureView t) := by
  refine Keeps.mono (fun s t h => ?_) ledColour_keeps
  simp only [SameOn, passView, Prod.mk.injEq, Pads.mk.injEq] at h
  exact ⟨h.1.1, h.1.2.1, h.1.2.2.2.2.2.1⟩

/-- The end of a pass starts the next one with the sum 0. -/
theorem endPass_pressure {v : PressureView} (hv : Pressures v) :
    Spec avr pressureView v endPass fun _ w => Pressures w ∧ w.ledSum = 0 := by
  have hcolour : Spec avr pressureView v ledColour fun _ w => SameButSums v w :=
    Spec.of_keeps (S := SameButSums) (fun _ => ⟨rfl, rfl, rfl⟩) (fun _ _ _ => SameButSums.trans)
      ledColour_sameButSums
  refine Spec.bind hcolour fun _ w hw => ?_
  have hpressures := hw.pressures hv
  refine Spec.map_bind (fun v => { v with prevLedSum := v.ledSum }) (fun _ => rfl) ?_
  refine Spec.map (fun v => { v with ledSum := 0 }) (fun _ => rfl) ?_
  exact ⟨⟨hpressures.filtered, hpressures.calm⟩, rfl⟩

/-- An iteration that starts with valid pressures adds at most one to the sum. -/
theorem LoopStep.summed {os : List Outcome} {i i' : Nat} {s t : Firmware} {o : Outcome}
    (hscan : ScanRun avr os i s) (hs : Pressures (pressureView s))
    (hsum : s.pads.ledSum + 511 < 65536) (h : LoopStep avr i s (some o) i' t) :
    Summed (pressureView s) (pressureView t) := by
  cases h with
  | pad sched hi hrun =>
    exact (scanPad_pressure (hscan.scannable.order i hi) hs hsum).run pads_sound hrun

theorem Summed.ledSum_le {v w : PressureView} (h : Summed v w) : w.ledSum ≤ v.ledSum + 511 := by
  rcases h.ledSum with hsame | ⟨pad, -, hmax, hsum⟩
  · omega
  · omega

/-- **The sum grows by at most 511 from position to position.** -/
theorem PassRun.ledSum_le {i : Nat} {s : Firmware} (h : PassRun i s) :
    i ≤ numPads ∧ Pressures (pressureView s) ∧ s.pads.ledSum ≤ 511 * i := by
  induction h with
  | start sched hsum _ hrun =>
    obtain ⟨hpressures, hsame, -⟩ := startUp_pressure.run pressureView_sound hrun
    refine ⟨Nat.zero_le _, hpressures, ?_⟩
    exact le_of_eq (hsame.trans hsum)
  | @step i i' s t o h hstep ih =>
    obtain ⟨hi, hs, hsum⟩ := ih
    obtain ⟨os, hscan⟩ := h.scanRun
    have h48 : i ≤ 48 := hi
    cases o with
    | some o =>
      have hsummed := hstep.summed hscan hs (by omega)
      have hle : t.pads.ledSum ≤ s.pads.ledSum + 511 := hsummed.ledSum_le
      cases hstep with
      | pad sched hlt hrun => exact ⟨hlt, hsummed.pressures, by omega⟩
    | none =>
      cases hstep with
      | pass sched hrun =>
        obtain ⟨hpressures, hzero⟩ := (endPass_pressure hs).run pressureView_sound hrun
        exact ⟨Nat.zero_le _, hpressures, le_of_eq hzero⟩

/-! ## The property -/

/-- The same colour results whatever lies in memory and whenever interrupts strike. -/
def Determined (pal : Palette) (s : Firmware) (c : Colour) : Prop :=
  ∀ sched c' t, colourToSet.run avr sched s = some (c', t) →
    HeldFixed pal (colourToSet.visits avr sched s) → c' = c

theorem colour_of_run {s t : Firmware} {c : Colour} {sched : Sched Input}
    (hsum : s.pads.ledSum * 2 + 1 < 65536) (hrun : colourToSet.run avr sched s = some (c, t))
    (hheld : HeldFixed pal (colourToSet.visits avr sched s)) :
    ∃ old, c = pressureTriple pal s.pads.ledSum s.pads.prevLedSum old := by
  obtain ⟨hshowing, byStatus, hfade⟩ := hheld
  have hconfined := run_confine (c := fun s => decide (Showing pal s ∧ NoFade byStatus s)) sched
    colourToSet s (c, t) (fun u hu => decide_eq_true ⟨hshowing u hu, hfade u hu⟩) hrun
  exact (colourToSet_spec hsum).run (heldAvr_sound byStatus) hconfined

/-- The settings of the LED that decide about the colour. -/
def showView (s : Firmware) :=
  (s.led.mode, s.led.status, s.led.pressureStatus, s.led.colourValues, s.led.clockStatus,
    s.led.clockRunning)

theorem nextFadeStep_eq (l : Led) (n : UInt8) :
    ∃ step, nextFadeStep l n = { l with fadeStep := step } := by
  unfold nextFadeStep
  dsimp only
  split
  · split
    · exact ⟨_, rfl⟩
    · exact ⟨_, rfl⟩
  · split
    · exact ⟨_, rfl⟩
    · exact ⟨l.fadeStep, rfl⟩

theorem colour_keeps (old : Colour) : ((baseColour old).bind clockFade).Keeps (SameOn showView) := by
  have hbase : (baseColour old).Keeps (SameOn showView) := by
    refine Keeps.mono (fun s t hst => ?_) (baseColour_keeps old)
    have hdraw : (drawView t).led = (drawView s).led := congrArg Firmware.led hst
    have hled : t.led = s.led := hdraw
    simp only [SameOn, showView, hled]
  refine Keeps.bind hbase fun c => ?_
  iterate 2 refine Keeps.bind (Keeps.atomic fun _ _ => rfl) fun _ => ?_
  refine Keeps.ite (critical_keeps (fun _ _ _ => rfl) ?_) (Keeps.ret _)
  refine Keeps.bind (Keeps.atomic fun _ _ => rfl) fun step => ?_
  refine Keeps.bind (Keeps.act fun s => ?_) fun _ => Keeps.ret _
  obtain ⟨step', hstep⟩ := nextFadeStep_eq s.led s.midi.clockTimingCount
  rw [SameOn, showView, hstep]
  rfl

theorem colourToSet_keeps : colourToSet.Keeps (SameOn showView) :=
  Keeps.bind (Keeps.atomic fun _ _ => rfl) fun old => colour_keeps old

/-- Without interrupts the LED shows the pressure all along if it does at first. -/
theorem heldFixed_steady {α : Type} {p : Code α} (hp : p.Keeps (SameOn showView)) {s : Firmware}
    (h : HeldFixed pal [s]) (env : Firmware → Input) :
    HeldFixed pal (p.visits avr (p.steady env s) s) := by
  have hsame (t : Firmware) (ht : t ∈ p.visits avr (p.steady env s) s) :
      showView t = showView s :=
    visits_steady_of_keeps (SameOn.refl showView) (fun _ _ _ => SameOn.trans) hp env s t ht
  obtain ⟨hshowing, byStatus, hfade⟩ := h
  rw [List.forall_mem_singleton] at hshowing hfade
  simp only [showView, Prod.mk.injEq] at hsame
  refine ⟨fun t ht => ?_, byStatus, fun t ht => ?_⟩
  · obtain ⟨hmode, hstatus, hpressure, hpalette, -, -⟩ := hsame t ht
    rwa [Showing, hmode, hstatus, hpressure, hpalette]
  · obtain ⟨-, -, -, -, hclock, hrunning⟩ := hsame t ht
    rwa [NoFade, hclock, hrunning]

/-- Where main keeps its locals lies `old`. -/
def withStack (old : Colour) (_ : Firmware) : Input := { Input.quiet with stack := old }

/-- The colour of a run without interrupts in which `old` lies in memory. -/
theorem colour_of_steady {s : Firmware} (hsum : s.pads.ledSum * 2 + 1 < 65536)
    (h : HeldFixed pal [s]) (old : Colour) :
    (colourToSet.exec (withStack old) s).1
      = pressureTriple pal s.pads.ledSum s.pads.prevLedSum old := by
  have hsteady := run_steady avr (withStack old) (fun _ => rfl) ((baseColour old).bind clockFade) s
  obtain ⟨hshowing, byStatus, hfade⟩ := heldFixed_steady (colour_keeps old) h (withStack old)
  have hconfined := run_confine (c := fun s => decide (Showing pal s ∧ NoFade byStatus s)) _ _ s _
    (fun u hu => decide_eq_true ⟨hshowing u hu, hfade u hu⟩) hsteady
  exact (colour_spec hsum old).run (heldAvr_sound byStatus) hconfined

theorem determined_iff {s : Firmware} (hsum : s.pads.ledSum * 2 + 1 < 65536)
    (hpal : ∀ row < 3, total (pal.row row) ≤ 1023) (hheld : HeldFixed pal [s]) :
    (∃ c, InBudget pal c ∧ Determined pal s c) ↔ Assigned s.pads.ledSum s.pads.prevLedSum := by
  constructor
  · rintro ⟨c, -, hdetermined⟩
    by_contra hnot
    have hrun (old : Colour) : c = old := by
      have hsteady : (colourToSet.exec (withStack old) s).1 = c :=
        hdetermined _ _ _ (run_steady avr (withStack old) (fun _ => rfl) colourToSet s)
          (heldFixed_steady colourToSet_keeps hheld (withStack old))
      rw [← hsteady, colour_of_steady hsum hheld, pressureTriple_of_not_assigned hnot]
    exact absurd ((hrun (0, 0, 0)).symm.trans (hrun (1, 0, 0))) (by decide)
  · intro hassigned
    refine ⟨pressureTriple pal s.pads.ledSum s.pads.prevLedSum (0, 0, 0),
      inBudget_pressureTriple hpal hassigned _, fun sched c' t hrun hfixed => ?_⟩
    obtain ⟨old, rfl⟩ := colour_of_run hsum hrun hfixed
    exact pressureTriple_of_assigned hassigned _ _

/--
**The colour for the pressure.** At every position of every pass the sum is exact and far from
wrapping around. The colour set at the end of a pass is assigned, lies between two neighbouring
colours of the palette and is within the budget exactly if the sum of the pass before is not zero or
the sum of this one is at most 511.
-/
theorem pressureColour_iff {i : Nat} {s : Firmware} (h : PassRun i s) :
    s.pads.ledSum ≤ 511 * i ∧ s.pads.ledSum * 2 + 1 ≤ 65535 ∧
      (∀ o i' t, LoopStep avr i s (some o) i' t → Summed (pressureView s) (pressureView t)) ∧
      ∀ pal : Palette, (∀ row < 3, total (pal.row row) ≤ 1023) → HeldFixed pal [s] →
        ((∃ c, InBudget pal c ∧ Determined pal s c) ↔
          Assigned s.pads.ledSum s.pads.prevLedSum) := by
  obtain ⟨hi, hs, hsum⟩ := h.ledSum_le
  have h48 : i ≤ 48 := hi
  obtain ⟨os, hscan⟩ := h.scanRun
  refine ⟨hsum, by omega, fun o i' t hstep => hstep.summed hscan hs (by omega), ?_⟩
  exact fun pal hpal hheld => determined_iff (by omega) hpal hheld

/-! ## Several pads at once -/

/-- `n` iterations of a pass without interrupts. -/
def iterated (env : Firmware → Input) (s : Firmware) : Nat → Firmware
  | 0 => s
  | n + 1 => (iteration n env (iterated env s n)).2

theorem passRun_iterated {env : Firmware → Input} {s : Firmware} (h : PassRun 0 s) {n : Nat}
    (hn : n ≤ numPads) : PassRun n (iterated env s n) := by
  induction n with
  | zero => exact h
  | succ n ih => exact .step (ih (by omega)) (iteration_step (by omega) env _)

theorem passRun_bootedAtRest : PassRun 0 bootedAtRest.2 :=
  .start _ rfl rfl (run_steady_mk avr atRest (fun _ => rfl) startUp powerOn)

/-- Nothing but the single-ended pads is pressed: the converter reads 0. -/
def lowAvr : Machine Firmware Input :=
  { avr with admits := fun _ i => decide (i.adc = 0) && i.pinE2 }

/-- What decides about the pads in such a pass. -/
structure PassView where
  padOrder : Nat → Nat
  velocitySent : Nat → Bool
  initVal : Nat → BitVec 16
  led : Led
  pressures : PressureView

def allPadsView (s : Firmware) : PassView :=
  ⟨s.pads.padOrder, s.pads.velocitySent, s.standby.initVal, s.led, pressureView s⟩

/-- The single-ended pads before position `i` are pressed, at full pressure, and no others. -/
structure HeldUpTo (l : Led) (i : Nat) (v : PassView) : Prop where
  velocityPads : ∀ j < 40, v.padOrder j < 40
  inOrder : ∀ j < numPads, 40 ≤ j → v.padOrder j = j
  sent : ∀ p < 40, v.velocitySent p = false
  threshold : ∀ p < 40, 0 ≤ (v.initVal p).toInt
  untouched : ∀ p < numPads, 40 ≤ p → i ≤ p → v.pressures.filtered p = 0 ∧
    v.pressures.initValSe p = 560 ∧ v.pressures.hysterisis p = false
  ledSum : v.pressures.ledSum = 511 * (i - 40)
  prevLedSum : v.pressures.prevLedSum = 0
  led : v.led = l

variable {u : PassView}

theorem low_of_admits {s : Firmware} {i : Input} (h : lowAvr.admits s i = true) :
    i.adc = 0 ∧ i.pinE2 = true := by
  have hadm : (decide (i.adc = 0) && i.pinE2) = true := h
  simpa using hadm

theorem adcRead_low {mode : AdcMode} {chan : AdcChannel} (hzero : adcResult mode 0 = 0) :
    Spec lowAvr allPadsView u (adcRead mode chan) fun a w => a = 0 ∧ w = u := by
  refine Spec.keeps_bind (Keeps.act fun _ => rfl) fun _ => ?_
  refine Spec.atomic_bind_of_admits fun i t ht hi => Spec.ret ⟨?_, ht⟩
  rw [← hzero, ← (low_of_admits hi).1]

/-- A velocity pad is not pressed. -/
theorem scanVelocityPad_low {pad : Nat} (hsent : u.velocitySent pad = false)
    (hthreshold : 0 ≤ (u.initVal pad).toInt) :
    Spec lowAvr allPadsView u (scanVelocityPad pad) fun _ w => w = u := by
  have hval : ¬0 < i16 (-0 - (u.initVal pad).toInt) := by
    have hlt := BitVec.toInt_lt (x := u.initVal pad)
    unfold i16
    omega
  refine Spec.bind (Q := fun x w => x.val = i16 (-0 - (u.initVal pad).toInt) ∧ w = u) ?_ ?_
  · refine Spec.keeps_bind (Keeps.atomic fun _ _ => rfl) fun dac => ?_
    refine Spec.bind (adcRead_low (by decide)) ?_
    rintro a w ⟨rfl, rfl⟩
    exact Spec.read_bind (w.initVal pad) (by rintro t rfl; rfl) (Spec.ret ⟨rfl, rfl⟩)
  rintro x w ⟨hx, rfl⟩
  refine Spec.read_bind false (by rintro t rfl; exact hsent) ?_
  exact Spec.ite (fun hpos => absurd (hx ▸ hpos) hval) fun _ => Spec.ret rfl

/-- What pressing a single-ended pad as hard as can be does. -/
def PassView.press (u : PassView) (pad : Nat) : PassView :=
  { u with pressures := { u.pressures with
      filtered := Function.update u.pressures.filtered pad 511
      initValSe := Function.update u.pressures.initValSe pad 570
      hysterisis := Function.update u.pressures.hysterisis pad true
      ledSum := ((u.pressures.ledSum + 511 : Int) % 65536).toNat } }

/-- A step of main on its own variables, as seen in the pressures. -/
theorem pressures_map_bind {α : Type} {f : Pads → Pads} {q : Unit → Code α}
    {Q : α → PassView → Prop} (F : PressureView → PressureView)
    (hf : ∀ p, (f p).pressures = F p.pressures)
    (horder : ∀ p, (f p).padOrder = p.padOrder ∧ (f p).velocitySent = p.velocitySent)
    (hq : Spec lowAvr allPadsView { u with pressures := F u.pressures } (q ()) Q) :
    Spec lowAvr allPadsView u ((padsAct f).bind q) Q := by
  refine Spec.map_bind (fun u => { u with pressures := F u.pressures }) (fun s => ?_) hq
  simp only [allPadsView, pressureView, hf, (horder s.pads).1, (horder s.pads).2]

theorem scanPressurePad_low {pad : Nat} (hfiltered : u.pressures.filtered pad = 0)
    (hse : u.pressures.initValSe pad = 560) (happlied : u.pressures.hysterisis pad = false) :
    Spec lowAvr allPadsView u (scanPressurePad pad) fun _ w => w = u.press pad := by
  refine Spec.read_bind 560 (by rintro t rfl; exact hse) ?_
  refine Spec.bind (adcRead_low (by decide)) ?_
  rintro a w ⟨rfl, rfl⟩
  refine Spec.ite (fun _ => ?_) fun h => absurd h (by decide)
  refine Spec.bind (Q := fun _ w' => w' = w.press pad) ?_ fun _ w' hw => Spec.ret hw
  unfold singleEndedPress
  refine Spec.read_bind false (by rintro t rfl; exact happlied) ?_
  refine Spec.bind (Q := fun _ w' => w' = { w with pressures := { w.pressures with
      initValSe := Function.update w.pressures.initValSe pad 570
      hysterisis := Function.update w.pressures.hysterisis pad true } })
    (Spec.when (fun _ => ?_) fun h => absurd rfl h) ?_
  · refine pressures_map_bind (fun v => { v with
      initValSe := Function.update v.initValSe pad (i16 (v.initValSe pad + 10)) })
      (fun _ => rfl) (fun _ => ⟨rfl, rfl⟩) ?_
    refine Spec.map (fun u => { u with pressures := { u.pressures with
      hysterisis := Function.update u.pressures.hysterisis pad true } }) (fun _ => rfl) ?_
    rw [hse]
    rfl
  rintro - w' rfl
  refine Spec.bind (Q := fun _ w' => w' = { w with pressures := { w.pressures with
      filtered := Function.update w.pressures.filtered pad 511
      initValSe := Function.update w.pressures.initValSe pad 570
      hysterisis := Function.update w.pressures.hysterisis pad true } })
    (spec_critical_of (fun _ _ _ => rfl) ?_) ?_
  · refine pressures_map_bind (fun v => { v with
      filtered := Function.update v.filtered pad (filter (v.filtered pad) (i16 (560 * 2))) })
      (fun _ => rfl) (fun _ => ⟨rfl, rfl⟩) ?_
    rw [hfiltered]
    refine Spec.read_bind 560 (fun t ht => ?_) ?_
    · have hread : t.pads.filteredVal = _ := congrArg (fun u => u.pressures.filtered) ht
      rw [hread]
      exact Function.update_self _ _ _
    refine Spec.bind (Q := fun _ w' => w' = { w with pressures := { w.pressures with
        filtered := Function.update w.pressures.filtered pad 511
        initValSe := Function.update w.pressures.initValSe pad 570
        hysterisis := Function.update w.pressures.hysterisis pad true } })
      (Spec.when (fun _ => ?_) fun h => absurd h (by decide)) ?_
    · refine Spec.map (fun u => { u with pressures := { u.pressures with
        filtered := Function.update u.pressures.filtered pad 511 } }) (fun _ => rfl) ?_
      simp only [Function.update_idem]
    · rintro - w' rfl
      refine Spec.keeps_bind (Keeps.act fun _ => rfl) fun _ => ?_
      exact Spec.keeps (Keeps.act fun _ => rfl) fun _ => rfl
  · rintro - w' rfl
    refine Spec.map (fun u => { u with pressures := { u.pressures with
      ledSum := ((u.pressures.ledSum + u.pressures.filtered pad) % 65536).toNat } })
      (fun _ => rfl) ?_
    simp only [PassView.press, Function.update_self]

/-- **Such an iteration presses its pad, if that is a single-ended one.** -/
theorem scanPad_low {l : Led} {i : Nat} (hi : i < numPads) (hu : HeldUpTo l i u) :
    Spec lowAvr allPadsView u (scanPad i) fun _ w => HeldUpTo l (i + 1) w := by
  have h48 : i < 48 := hi
  refine Spec.read_bind (u.padOrder i) (by rintro t rfl; rfl) ?_
  refine Spec.bind (Q := fun _ w => w = u) ?_ ?_
  · refine Spec.atomic_bind_of_admits fun _ t ht hi => ?_
    show Spec _ _ (allPadsView t) (if _ then _ else _) _
    rw [ht]
    refine Spec.ite (fun _ => ?_) fun h => absurd (low_of_admits hi).2 h
    exact Spec.keeps_bind (Keeps.act fun _ => rfl) fun _ => Spec.ret rfl
  rintro - w rfl
  refine Spec.bind (Q := fun _ w => HeldUpTo l (i + 1) w) ?_ fun _ w hw => Spec.ret hw
  refine Spec.keeps_bind (Keeps.atomic fun _ _ => rfl) fun bias => ?_
  refine Spec.keeps_bind (Keeps.act fun _ => rfl) fun _ => ?_
  refine Spec.keeps_bind (critical_keeps (fun _ _ _ => rfl) (Keeps.forEach fun i _ =>
    Keeps.bind (Keeps.act fun _ => rfl) fun _ => Keeps.atomic fun _ _ => rfl)) fun _ => ?_
  refine Spec.keeps_bind (Keeps.act fun _ => rfl) fun _ => ?_
  refine Spec.keeps_bind (Keeps.bind (Keeps.act fun _ => rfl) fun _ =>
    Keeps.bind (Keeps.atomic fun _ _ => rfl) fun _ => Keeps.act fun _ => rfl) fun _ => ?_
  refine Spec.ite (fun h40 => ?_) fun h40 => ?_
  · have hlow : i < 40 := by
      by_contra h
      rw [hu.inOrder i hi (by omega)] at h40
      exact h h40
    refine Spec.mono (scanVelocityPad_low (hu.sent _ h40) (hu.threshold _ h40)) ?_
    rintro - _ rfl
    refine ⟨hu.velocityPads, hu.inOrder, hu.sent, hu.threshold,
      fun p hp h h' => hu.untouched p hp h (by omega), ?_, hu.prevLedSum, hu.led⟩
    rw [hu.ledSum]
    omega
  · have hhigh : 40 ≤ i := by
      by_contra h
      exact h40 (hu.velocityPads i (by omega))
    rw [hu.inOrder i hi hhigh]
    obtain ⟨hfiltered, hse, happlied⟩ := hu.untouched i hi hhigh (le_refl i)
    refine Spec.mono (scanPressurePad_low hfiltered hse happlied) ?_
    rintro - _ rfl
    refine ⟨hu.velocityPads, hu.inOrder, hu.sent, hu.threshold, fun p hp h h' => ?_, ?_,
      hu.prevLedSum, hu.led⟩
    · simp only [PassView.press, Function.update_of_ne (show p ≠ i by omega)]
      exact hu.untouched p hp h (by omega)
    · simp only [PassView.press, hu.ledSum]
      omega

theorem heldUpTo_zero {codes : Nat → Nat} {s : Firmware} (hcal : Calibrated codes (scanView s))
    (hthreshold : ∀ p < 40, 0 ≤ (s.standby.initVal p).toInt)
    (hpads : ∀ p < numPads, 40 ≤ p → s.pads.initValSe p = 560 ∧
      s.pads.hysterisisApplied p = false)
    (hsum : s.pads.ledSum = 0) (hprev : s.pads.prevLedSum = 0) :
    HeldUpTo s.led 0 (allPadsView s) := by
  obtain ⟨σ, hσ, horder, -⟩ := hcal.perm
  refine ⟨fun j hj => ?_, fun j hj h40 => ?_, fun p hp => ?_, hthreshold, fun p hp h40 _ => ?_,
    hsum, hprev, rfl⟩
  · have hsame : s.pads.padOrder j = σ j := horder j (Nat.lt_trans hj (by decide))
    have hle := Bubble.perm_le hσ (show j ≤ 39 by omega)
    show s.pads.padOrder j < 40
    omega
  · exact (horder j hj).trans (hσ j (by omega))
  · exact hcal.sent p (Nat.lt_trans hp (by decide))
  · exact ⟨hcal.filtered p hp, hpads p hp h40⟩

theorem heldUpTo_bootedAtRest : HeldUpTo bootedAtRest.2.led 0 (allPadsView bootedAtRest.2) := by
  have hcal : Calibrated bootedAtRest.1 (scanView bootedAtRest.2) :=
    startUp_spec.exec atRest fun _ => rfl
  exact heldUpTo_zero hcal (by decide +kernel) (by decide +kernel) (by decide +kernel)
    (by decide +kernel)

/-- The sum is the full pressure once for each of the pads that are pressed. -/
theorem HeldUpTo.sums {l : Led} {i n : Nat} {s : Firmware} (h : HeldUpTo l i (allPadsView s))
    (hn : 511 * (i - 40) = n) : s.pads.ledSum = n ∧ s.pads.prevLedSum = 0 ∧ s.led = l :=
  ⟨h.ledSum.trans hn, h.prevLedSum, h.led⟩

theorem heldUpTo_iterated {n : Nat} (hn : n ≤ numPads) : HeldUpTo bootedAtRest.2.led n
    (allPadsView (iterated (fun _ => Input.quiet) bootedAtRest.2 n)) := by
  induction n with
  | zero => exact heldUpTo_bootedAtRest
  | succ n ih => exact (scanPad_low hn (ih (by omega))).exec (fun _ => Input.quiet) fun _ => rfl

theorem heldFixed_of_led {s t : Firmware} (hled : t.led = s.led) (h : HeldFixed pal [s]) :
    HeldFixed pal [t] := by
  obtain ⟨hshowing, byStatus, hfade⟩ := h
  rw [List.forall_mem_singleton] at hshowing hfade
  refine ⟨fun u hu => ?_, byStatus, fun u hu => ?_⟩
  · rw [List.mem_singleton.mp hu, Showing, hled]
    exact hshowing
  · rw [List.mem_singleton.mp hu, NoFade, hled]
    exact hfade

/-- The palette after the start. -/
def firstPalette : Palette := Led.init.colourValues

theorem firstPalette_le : ∀ row < 3, total (firstPalette.row row) ≤ 1023 := by decide +kernel

theorem heldFixed_bootedAtRest : HeldFixed firstPalette [bootedAtRest.2] := by
  have hshowing : Showing firstPalette bootedAtRest.2 := by decide +kernel
  have hfade : NoFade true bootedAtRest.2 := by decide +kernel
  exact ⟨by simpa using hshowing, true, by simpa using hfade⟩

/-- The first of the single-ended pads is pressed, at full pressure. -/
theorem pressureColour_iff_pressed : ∃ s, PassRun 41 s ∧ s.pads.ledSum = 511 ∧
    ∃ c, InBudget firstPalette c ∧ Determined firstPalette s c := by
  obtain ⟨hsum, -, hled⟩ := (heldUpTo_iterated (show 41 ≤ numPads by decide)).sums rfl
  have hpass : PassRun 41 (iterated (fun _ => Input.quiet) bootedAtRest.2 41) :=
    passRun_iterated passRun_bootedAtRest (by decide)
  have hfixed := heldFixed_of_led hled heldFixed_bootedAtRest
  exact ⟨_, hpass, hsum, ((pressureColour_iff hpass).2.2.2 firstPalette firstPalette_le
    hfixed).mpr (.inr (Nat.le_of_eq hsum))⟩

/-- All single-ended pads are pressed in the first pass: the colour is not assigned. -/
theorem not_pressureColour : ¬∀ s, PassRun numPads s → ∀ pal : Palette,
    (∀ row < 3, total (pal.row row) ≤ 1023) → HeldFixed pal [s] →
      ∃ c, InBudget pal c ∧ Determined pal s c := by
  intro h
  obtain ⟨hsum, hprev, hled⟩ := (heldUpTo_iterated (le_refl numPads)).sums (n := 4088) rfl
  have hfixed := heldFixed_of_led hled heldFixed_bootedAtRest
  have hassigned := (determined_iff (by omega) firstPalette_le hfixed).mp
    (h _ (passRun_iterated passRun_bootedAtRest (le_refl _)) firstPalette firstPalette_le hfixed)
  unfold Assigned at hassigned
  omega

end SphereWare
