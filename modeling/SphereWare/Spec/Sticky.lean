import SphereWare.Interrupt.Tally
import SphereWare.Spec.Pressure

/-!
# The anti-sticky offset

What main keeps for it: whether the offset is applied to a pad, how many releases have been counted
since, and whether the pad is pressed (`stickyView`). Interrupts leave all of it alone.
-/

namespace SphereWare

open Interrupt Prog

/-! ## The view -/

structure StickyView where
  applied : Nat → Bool
  sent : Nat → Bool
  count : Nat → Nat

def Pads.sticky (p : Pads) : StickyView := ⟨p.antiStickyApplied, p.velocitySent, p.stickyCount⟩

def stickyView (s : Firmware) : StickyView := s.pads.sticky

theorem stickyView_sound : (Rely.ofView stickyView).Sound avr :=
  Rely.ofView_sound (fun _ => rfl) (fun _ => rfl)
    (Keeps.mono (fun _ _ h => congrArg Pads.sticky h) timerHandler_pads)

namespace StickyView

def setApplied (v : StickyView) (pad : Nat) (b : Bool) : StickyView :=
  { v with applied := Function.update v.applied pad b }

def setSent (v : StickyView) (pad : Nat) (b : Bool) : StickyView :=
  { v with sent := Function.update v.sent pad b }

/-- What a release makes of the offset and the counter. -/
def timeout (v : StickyView) (pad : Nat) : StickyView :=
  if v.applied pad then
    if 10 < (v.count pad + 1) % 65536 then
      { v with
        applied := Function.update v.applied pad false
        count := Function.update v.count pad 0 }
    else { v with count := Function.update v.count pad ((v.count pad + 1) % 65536) }
  else v

/-- What main does to the view at a velocity pad, by the branch it takes. -/
def Steps (pad : Nat) (v w : StickyView) : PadEvent → Prop
  | .idle => v.sent pad = false ∧ w = v
  | .strike => v.sent pad = false ∧ w = v.setSent pad true
  | .pressure => v.sent pad = true ∧ ∃ b, (v.applied pad = true → b = true) ∧ w = v.setApplied pad b
  | .release => v.sent pad = true ∧ w = (v.timeout pad).setSent pad false

/-- The two views agree on a pad. -/
def SameAt (p : Nat) (v w : StickyView) : Prop :=
  w.applied p = v.applied p ∧ w.sent p = v.sent p ∧ w.count p = v.count p

theorem timeout_sameAt (v : StickyView) {p pad : Nat} (hne : p ≠ pad) :
    SameAt p v (v.timeout pad) := by
  unfold timeout SameAt
  split
  · split
    · simp [Function.update_of_ne hne]
    · simp [Function.update_of_ne hne]
  · exact ⟨rfl, rfl, rfl⟩

theorem Steps.sameAt {v w : StickyView} {pad p : Nat} {event : PadEvent}
    (h : Steps pad v w event) (hne : p ≠ pad) : SameAt p v w := by
  cases event with
  | idle =>
    obtain ⟨-, rfl⟩ := h
    exact ⟨rfl, rfl, rfl⟩
  | strike =>
    obtain ⟨-, rfl⟩ := h
    exact ⟨rfl, Function.update_of_ne hne _ _, rfl⟩
  | pressure =>
    obtain ⟨-, b, -, rfl⟩ := h
    exact ⟨Function.update_of_ne hne _ _, rfl, rfl⟩
  | release =>
    obtain ⟨-, rfl⟩ := h
    obtain ⟨happlied, hsent, hcount⟩ := v.timeout_sameAt hne
    exact ⟨happlied, (Function.update_of_ne hne _ _).trans hsent, hcount⟩

end StickyView

open StickyView

variable {v : StickyView} {pad : Nat}

/-! ## The branches -/

theorem hidAct_sticky (f : Firmware → Hid) :
    (act fun s => { s with hid := f s } : Code Unit).Keeps (SameOn stickyView) :=
  Keeps.act fun _ => rfl

theorem adjustInitVal_sticky (pad : Nat) (d : BitVec 16) :
    (adjustInitVal pad d).Keeps (SameOn stickyView) :=
  Keeps.bind (Keeps.act fun _ => rfl) fun _ => Keeps.act fun _ => rfl

theorem strike_sticky (val : Int) :
    Spec avr stickyView v (strike pad val) fun _ w => w = v.setSent pad true := by
  refine Spec.keeps_bind (peakLoop_keeps (fun _ _ => rfl) pad 200 val) fun r => ?_
  refine Spec.keeps_bind (critical_keeps (fun _ _ _ => rfl) ?_) fun _ => ?_
  · exact Keeps.bind (hidAct_sticky _) fun _ => Keeps.act fun _ => rfl
  refine Spec.map_bind (fun v => v.setSent pad true) (fun _ => rfl) ?_
  refine Spec.keeps_bind (Keeps.act fun _ => rfl) fun _ => ?_
  refine Spec.keeps_bind (Keeps.act fun _ => rfl) fun _ => ?_
  exact Spec.keeps_bind (adjustInitVal_sticky _ _) fun _ => Spec.ret rfl

/-- The offset is applied, if it was not. -/
theorem antiSticky_sticky :
    Spec avr stickyView v (antiSticky pad) fun _ w => w = v.setApplied pad true := by
  unfold antiSticky
  refine Spec.keeps_bind (Keeps.act fun _ => rfl) fun _ => ?_
  refine Spec.read_bind (v.applied pad) (by rintro t rfl; rfl) ?_
  refine Spec.when (fun _ => ?_) fun happlied => ?_
  · refine spec_critical_of (fun _ _ _ => rfl) ?_
    refine Spec.keeps_bind (Keeps.act fun _ => rfl) fun _ => ?_
    exact Spec.map (fun v => v.setApplied pad true) (fun _ => rfl) rfl
  · have htrue : v.applied pad = true := by simpa using happlied
    rw [setApplied, ← htrue, Function.update_eq_self]

theorem pressureUpdate_sticky (val : Int) :
    Spec avr stickyView v (pressureUpdate pad val) fun _ w =>
      ∃ b, (v.applied pad = true → b = true) ∧ w = v.setApplied pad b := by
  unfold pressureUpdate
  refine Spec.keeps_bind (Keeps.act fun _ => rfl) fun _ => ?_
  refine Spec.keeps_bind (Keeps.atomic fun _ _ => rfl) fun filtered => ?_
  refine Spec.bind (Q := fun _ w => ∃ b, (v.applied pad = true → b = true) ∧
    w = v.setApplied pad b) (Spec.when (fun _ => ?_) fun _ => ?_) fun _ w hw => ?_
  · refine Spec.mono antiSticky_sticky ?_
    rintro - w rfl
    exact ⟨true, fun _ => rfl, rfl⟩
  · exact ⟨v.applied pad, id, by rw [setApplied, Function.update_eq_self]⟩
  · refine Spec.keeps_bind (critical_keeps (fun _ _ _ => rfl) ?_) fun _ => ?_
    · exact Keeps.bind (hidAct_sticky _) fun _ => Keeps.act fun _ => rfl
    · exact Spec.keeps (Keeps.act fun _ => rfl) fun _ => hw

theorem stickyView_stickyTimeout (pad : Nat) (s : Firmware) :
    stickyView (stickyTimeout pad s) = (stickyView s).timeout pad := by
  have happlied : (stickyView s).applied = s.pads.antiStickyApplied := rfl
  have hcount : (stickyView s).count = s.pads.stickyCount := rfl
  unfold stickyTimeout timeout
  rw [happlied, hcount]
  dsimp only
  split
  · split
    · rfl
    · rfl
  · rfl

theorem release_sticky : Spec avr stickyView v (release pad) fun _ w =>
    w = (v.timeout pad).setSent pad false := by
  unfold release
  refine Spec.bind (Q := fun _ w => w = v.timeout pad) (spec_critical_of (fun _ _ _ => rfl) ?_) ?_
  · refine Spec.map_bind (fun v => v.timeout pad) (stickyView_stickyTimeout pad) ?_
    refine Spec.keeps_bind (hidAct_sticky _) fun _ => ?_
    exact Spec.keeps (Keeps.act fun _ => rfl) fun _ => rfl
  · rintro _ w rfl
    refine Spec.map_bind (fun v => v.setSent pad false) (fun _ => rfl) ?_
    exact Spec.keeps (adjustInitVal_sticky _ _) fun _ => rfl

/-! ## One iteration -/

/-- The reading that decided on the branch was one of a pressed pad. -/
def Touched (samples : List Sample) : Prop := ∃ x rest, samples = x :: rest ∧ 0 < x.val

theorem scanVelocityPad_sticky : Spec avr stickyView v (scanVelocityPad pad) fun r w =>
    Steps pad v w r.2 ∧ (r.2 = .strike ∨ r.2 = .pressure → Touched r.1) := by
  refine Spec.keeps_bind (sampleVelocityPad_keeps (fun _ _ => rfl) pad) fun x => ?_
  refine Spec.read_bind (v.sent pad) (by rintro t rfl; rfl) ?_
  refine Spec.ite (fun hval => Spec.ite (fun hsent => ?_) fun hsent => ?_)
    fun _ => Spec.ite (fun hsent => ?_) fun hsent => ?_
  · refine Spec.bind (pressureUpdate_sticky _) fun _ w hw => Spec.ret ?_
    exact ⟨⟨hsent, hw⟩, fun _ => ⟨x, [], rfl, hval⟩⟩
  · refine Spec.bind (strike_sticky _) fun l w hw => Spec.ret ?_
    exact ⟨⟨by simpa using hsent, hw⟩, fun _ => ⟨x, l, rfl, hval⟩⟩
  · refine Spec.bind release_sticky fun _ w hw => Spec.ret ⟨⟨hsent, hw⟩, ?_⟩
    rintro (h | h) <;> cases h
  · refine Spec.ret ⟨⟨by simpa using hsent, rfl⟩, ?_⟩
    rintro (h | h) <;> cases h

theorem singleEnded_sticky (pad : Nat) (val : Int) :
    (singleEndedPress pad val).Keeps (SameOn stickyView) ∧
      (singleEndedRelease pad).Keeps (SameOn stickyView) := by
  have hread {α : Type} (f : Firmware → α) : (read f : Code α).Keeps (SameOn stickyView) :=
    Keeps.atomic fun _ _ => rfl
  constructor
  · refine Keeps.bind (hread _) fun applied => Keeps.bind (Keeps.when ?_) fun _ => ?_
    · exact Keeps.bind (Keeps.act fun _ => rfl) fun _ => Keeps.act fun _ => rfl
    refine Keeps.bind (critical_keeps (fun _ _ _ => rfl) ?_) fun _ => Keeps.act fun _ => rfl
    refine Keeps.bind (Keeps.act fun _ => rfl) fun _ => Keeps.bind (hread _) fun _ => ?_
    refine Keeps.bind (Keeps.when (Keeps.act fun _ => rfl)) fun _ => ?_
    exact Keeps.bind (hidAct_sticky _) fun _ => Keeps.act fun _ => rfl
  · refine Keeps.bind (hread _) fun applied => Keeps.bind (Keeps.when ?_) fun _ => ?_
    · exact Keeps.bind (Keeps.act fun _ => rfl) fun _ => Keeps.act fun _ => rfl
    refine critical_keeps (fun _ _ _ => rfl) ?_
    exact Keeps.bind (hidAct_sticky _) fun _ => Keeps.act fun _ => rfl

theorem scanPressurePad_sticky (pad : Nat) :
    (scanPressurePad pad).Keeps (SameOn stickyView) := by
  refine Keeps.bind (Keeps.atomic fun _ _ => rfl) fun threshold => ?_
  refine Keeps.bind (adcRead_keeps (fun _ _ => rfl) _ _) fun a => Keeps.ite ?_ ?_
  · exact Keeps.bind (singleEnded_sticky pad _).1 fun _ => Keeps.ret _
  · exact Keeps.bind (singleEnded_sticky pad 0).2 fun _ => Keeps.ret _

theorem stickyView_approaches : Approaches (SameOn stickyView) where
  iflag _ _ := rfl
  mux _ _ := rfl
  r2r _ _ := rfl
  region _ _ _ := rfl
  elite _ _ _ _ := rfl

/-- What the part of an iteration after the reset button does. -/
def PadSteps (pad : Nat) (samples : List Sample) (event : PadEvent) (v w : StickyView) : Prop :=
  if pad < 40 then Steps pad v w event ∧ (event = .strike ∨ event = .pressure → Touched samples)
  else w = v

theorem scanRest_sticky (i pad : Nat) : Spec avr stickyView v (scanRest i pad) fun r w =>
    PadSteps pad r.1 r.2 v w := by
  refine stickyView_approaches.scanRest_spec i (Spec.ite (fun hpad => ?_) fun hpad => ?_)
  · refine Spec.mono scanVelocityPad_sticky fun r w hr => ?_
    rw [PadSteps, if_pos hpad]
    exact hr
  · refine Spec.keeps (scanPressurePad_sticky pad) fun r => ?_
    rw [PadSteps, if_neg hpad]

/-- What the reset button does: nothing, or a calibration that forgets the offset. -/
def ResetSteps (v w : StickyView) : Option (Nat → Nat) → Prop
  | none => w = v
  | some _ => (∀ p < numPads, w.applied p = false ∧ w.sent p = false) ∧ w.count = v.count

theorem stickyView_calibrates : Calibrates (SameOn stickyView) where
  iflag _ _ := rfl
  mux _ _ := rfl
  r2r _ _ := rfl
  adc _ _ := rfl
  order _ _ _ := rfl
  threshold _ _ := rfl
  filtered _ _ := rfl
  thresholdSe _ _ := rfl

theorem calibrate_sticky : Spec avr stickyView v calibrate fun codes w =>
    ResetSteps v w (some codes) := by
  refine stickyView_calibrates.calibrate_spec (Q := fun w =>
    (∀ p < numPads, w.applied p = false ∧ w.sent p = false) ∧ w.count = v.count) ?_
  refine Spec.keeps_bind (genericHIDClear_keeps fun _ _ _ _ => rfl) fun _ => ?_
  refine Spec.keeps_bind (Keeps.act fun _ => rfl) fun _ => ?_
  refine Spec.map_bind (fun v => { v with applied := zeroed v.applied numPads false })
    (fun _ => rfl) ?_
  refine Spec.keeps_bind (Keeps.act fun _ => rfl) fun _ => ?_
  refine Spec.map_bind (fun v => { v with sent := zeroed v.sent numPads false })
    (fun _ => rfl) ?_
  exact Spec.keeps (Keeps.act fun _ => rfl) fun _ => ⟨fun p hp => ⟨if_pos hp, if_pos hp⟩, rfl⟩

theorem resetButton_sticky :
    Spec avr stickyView v resetButton fun codes w => ResetSteps v w codes := by
  refine Spec.keeps_bind (Keeps.atomic fun _ _ => rfl) fun up => Spec.ite (fun _ => ?_) fun _ => ?_
  · exact Spec.keeps_bind (Keeps.act fun _ => rfl) fun _ => Spec.ret rfl
  · refine Spec.keeps_bind (Keeps.act fun _ => rfl) fun _ => ?_
    refine Spec.bind (spec_critical_of (fun _ _ _ => rfl) ?_) fun codes w hw => Spec.ret hw
    exact Spec.keeps_bind (Keeps.act fun _ => rfl) fun _ => calibrate_sticky

/-- **What an iteration does to the offset, whatever interrupts it.** -/
theorem scanPad_sticky (i : Nat) : Spec avr stickyView v (scanPad i) fun o w =>
    ∃ u, ResetSteps v u o.recalibrated ∧ PadSteps o.pad o.samples o.event u w := by
  refine Spec.keeps_bind (Keeps.atomic fun _ _ => rfl) fun pad => ?_
  refine Spec.bind resetButton_sticky fun codes u hu => ?_
  exact Spec.bind (scanRest_sticky i pad) fun r w hw => Spec.ret ⟨u, hu, hw⟩

theorem endPass_sticky : endPass.Keeps (SameOn stickyView) := by
  refine Keeps.mono (fun s t h => ?_) endPass_keeps
  simp only [SameOn, passView, Prod.mk.injEq, Pads.mk.injEq] at h
  obtain ⟨⟨-, -, -, -, h₅, -, h₇, -, h₉, -, -⟩, -⟩ := h
  simp only [SameOn, stickyView, Pads.sticky, h₅, h₇, h₉]

/-! ## Readings of a released pad -/

/-- The pad was read as not pressed. -/
def Outcome.NotPressed (o : Outcome) : Prop := ∃ x, o.samples = [x] ∧ x.val ≤ 0

/-- A release would bring the counter over `STICKY_TIMEOUT`. -/
def StickyView.Due (v : StickyView) (p : Nat) : Prop :=
  v.sent p = true ∧ 10 < (v.count p + 1) % 65536

/-- An iteration, as far as the view goes. -/
def StickyIteration (v : StickyView) (o : Outcome) (w : StickyView) : Prop :=
  ∃ u, ResetSteps v u o.recalibrated ∧ PadSteps o.pad o.samples o.event u w

section Iteration

variable {v w : StickyView} {o : Outcome}

/-- A reading of a pad that is not pressed leads to the release branch or to none. -/
theorem PadSteps.of_notPressed {u : StickyView} (h : PadSteps o.pad o.samples o.event u w)
    (hpad : o.pad < 40) (ho : o.NotPressed) :
    u.sent o.pad = false ∧ w = u ∨
      u.sent o.pad = true ∧ w = (u.timeout o.pad).setSent o.pad false := by
  rw [PadSteps, if_pos hpad] at h
  obtain ⟨hsteps, htouched⟩ := h
  have hnot : ¬Touched o.samples := by
    rintro ⟨x, rest, hx, hpos⟩
    obtain ⟨y, hy, hneg⟩ := ho
    rw [hx, List.cons.injEq] at hy
    rw [hy.1] at hpos
    omega
  cases hevent : o.event with
  | idle =>
    rw [hevent] at hsteps
    exact Or.inl hsteps
  | strike => exact absurd (htouched (Or.inl hevent)) hnot
  | pressure => exact absurd (htouched (Or.inr hevent)) hnot
  | release =>
    rw [hevent] at hsteps
    exact Or.inr hsteps

theorem PadSteps.sameAt {u : StickyView} (h : PadSteps o.pad o.samples o.event u w)
    (hne : p ≠ o.pad) : SameAt p u w := by
  unfold PadSteps at h
  split at h
  · exact h.1.sameAt hne
  · rw [h]
    exact ⟨rfl, rfl, rfl⟩

/-- An offset that is not applied stays so while the pad is released. -/
theorem StickyIteration.off (h : StickyIteration v o w) (hp : p < 40)
    (ho : o.pad = p → o.NotPressed) (hv : v.applied p = false) : w.applied p = false := by
  obtain ⟨u, hreset, hsteps⟩ := h
  have hu : u.applied p = false := by
    cases hcodes : o.recalibrated with
    | none =>
      rw [hcodes] at hreset
      obtain rfl : u = v := hreset
      exact hv
    | some codes =>
      rw [hcodes] at hreset
      exact (hreset.1 p (Nat.lt_trans hp (by decide))).1
  rcases eq_or_ne p o.pad with rfl | hne
  · rcases hsteps.of_notPressed hp (ho rfl) with ⟨-, rfl⟩ | ⟨-, rfl⟩
    · exact hu
    · simp [setSent, timeout, hu]
  · exact (hsteps.sameAt hne).1.trans hu

/-- A reading of the released pad with the timeout due takes the offset back. -/
theorem StickyIteration.due (h : StickyIteration v o w) (hp : o.pad < 40)
    (hcodes : o.recalibrated = none) (ho : o.NotPressed) (hv : v.applied o.pad = true)
    (hdue : v.Due o.pad) : w.applied o.pad = false := by
  obtain ⟨u, hreset, hsteps⟩ := h
  rw [hcodes] at hreset
  obtain rfl : u = v := hreset
  rcases hsteps.of_notPressed hp ho with ⟨hsent, -⟩ | ⟨-, rfl⟩
  · exact absurd (hsent.symm.trans hdue.1) Bool.false_ne_true
  · simp [setSent, timeout, hv, hdue.2]

/-- Without it being due, the offset stays, and the timeout will not be due later on. -/
theorem StickyIteration.stuck (h : StickyIteration v o w) (hp : p < 40)
    (hcodes : o.recalibrated = none) (ho : o.pad = p → o.NotPressed) (hv : v.applied p = true)
    (hdue : ¬v.Due p) : w.applied p = true ∧ ¬w.Due p := by
  obtain ⟨u, hreset, hsteps⟩ := h
  rw [hcodes] at hreset
  obtain rfl : u = v := hreset
  rcases eq_or_ne p o.pad with rfl | hne
  · rcases hsteps.of_notPressed hp (ho rfl) with ⟨-, rfl⟩ | ⟨hsent, rfl⟩
    · exact ⟨hv, hdue⟩
    · have hcount : ¬10 < (u.count o.pad + 1) % 65536 := fun h => hdue ⟨hsent, h⟩
      refine ⟨by simp [setSent, timeout, hv, hcount], fun h => ?_⟩
      -- the pad is released now
      simp [Due, setSent] at h
  · obtain ⟨happlied, hsent, hcount⟩ := hsteps.sameAt hne
    rw [Due, hsent, hcount]
    exact ⟨happlied.trans hv, hdue⟩

/-- An iteration for another pad. -/
theorem StickyIteration.sameAt (h : StickyIteration v o w) (hcodes : o.recalibrated = none)
    (hne : p ≠ o.pad) : SameAt p v w := by
  obtain ⟨u, hreset, hsteps⟩ := h
  rw [hcodes] at hreset
  obtain rfl : u = v := hreset
  exact hsteps.sameAt hne

end Iteration

/-- The readings of the pad. -/
def readingsOf (p : Nat) (os : List Outcome) : List Outcome := os.filter fun o => o.pad == p

theorem readingsOf_singleton (p : Nat) (o : Outcome) : readingsOf p [o] = [] ↔ p ≠ o.pad := by
  unfold readingsOf
  by_cases hpad : o.pad = p
  · simp [hpad]
  · simp [hpad, Ne.symm hpad]

/-! ## Taking the offset back -/

/-- The offset is applied to the pad. -/
def stickyFlag (p : Nat) (s : Firmware) : Bool := s.pads.antiStickyApplied p

theorem stickyFlag_sound (p : Nat) : (Rely.ofView (stickyFlag p)).Sound avr :=
  Rely.ofView_sound (fun _ => rfl) (fun _ => rfl)
    (Keeps.mono (fun _ _ h => congrArg (fun q => Pads.antiStickyApplied q p) h) timerHandler_pads)

/-- The step takes the 50 counts back and notes that the offset is no longer applied. -/
def takesBack (p : Nat) (s t : Firmware) : Bool :=
  lowers (stickyFlag p) s t && t.standby.initVal p == s.standby.initVal p - 50

/-- Where the offset is taken off, the counts are taken back. -/
def Fair (p : Nat) (s t : Firmware) : Prop := takesBack p s t = lowers (stickyFlag p) s t

theorem fair_of_sameOn {p : Nat} {s t : Firmware} (h : SameOn stickyView s t) : Fair p s t := by
  have hflag : stickyFlag p t = stickyFlag p s := congrArg (fun v => StickyView.applied v p) h
  cases hs : stickyFlag p s <;> simp [Fair, takesBack, lowers, hflag, hs]

theorem keeps_fair {α : Type} {p : Nat} {c : Code α} (h : c.Keeps (SameOn stickyView)) :
    c.Keeps (Fair p) := Keeps.mono (fun _ _ => fair_of_sameOn) h

theorem fair_of_flag {p : Nat} {s t : Firmware} (h : stickyFlag p s = true → stickyFlag p t = true) :
    Fair p s t := by
  cases hs : stickyFlag p s with
  | false => simp [Fair, takesBack, lowers, hs]
  | true => simp [Fair, takesBack, lowers, hs, h hs]

theorem stickyTimeout_fair (p pad : Nat) (s : Firmware) : Fair p s (stickyTimeout pad s) := by
  unfold stickyTimeout
  dsimp only
  split
  · split
    · rcases eq_or_ne p pad with rfl | hne
      · simp [Fair, takesBack, Standby.setInitVal]
      · exact fair_of_flag fun h => by simpa [stickyFlag, Function.update_of_ne hne] using h
    · exact fair_of_flag id
  · exact fair_of_flag id

theorem critical_fair {α : Type} {p : Nat} {r : Region} {body : Code α} (h : body.Keeps (Fair p)) :
    (critical r body).Keeps (Fair p) := critical_keeps (fun _ _ _ => fair_of_flag id) h

theorem strike_fair (p pad : Nat) (val : Int) : (strike pad val).Keeps (Fair p) := by
  refine Keeps.bind (keeps_fair (peakLoop_keeps (fun _ _ => rfl) pad 200 val)) fun r => ?_
  refine Keeps.bind (critical_fair (Keeps.bind (keeps_fair (hidAct_sticky _)) fun _ =>
    Keeps.act fun _ => fair_of_flag id)) fun _ => ?_
  iterate 3 refine Keeps.bind (Keeps.act fun _ => fair_of_flag id) fun _ => ?_
  exact Keeps.bind (keeps_fair (adjustInitVal_sticky _ _)) fun _ => Keeps.ret _

theorem pressureUpdate_fair (p pad : Nat) (val : Int) : (pressureUpdate pad val).Keeps (Fair p) := by
  have hread {α : Type} (f : Firmware → α) : (read f : Code α).Keeps (Fair p) :=
    Keeps.atomic fun _ _ => fair_of_flag id
  refine Keeps.bind (Keeps.act fun _ => fair_of_flag id) fun _ => Keeps.bind (hread _) fun _ => ?_
  refine Keeps.bind (Keeps.when ?_) fun _ => ?_
  · refine Keeps.bind (Keeps.act fun _ => fair_of_flag id) fun _ => Keeps.bind (hread _) fun _ => ?_
    refine Keeps.when (critical_fair (Keeps.bind (Keeps.act fun _ => fair_of_flag id) fun _ => ?_))
    -- the flag of the pad goes up, all others stay
    refine Keeps.act fun s => fair_of_flag fun h => ?_
    rcases eq_or_ne p pad with rfl | hne
    · exact Function.update_self _ _ _
    · exact (Function.update_of_ne hne _ _).trans h
  · refine Keeps.bind (critical_fair ?_) fun _ => Keeps.act fun _ => fair_of_flag id
    exact Keeps.bind (keeps_fair (hidAct_sticky _)) fun _ => Keeps.act fun _ => fair_of_flag id

theorem release_fair (p pad : Nat) : (release pad).Keeps (Fair p) := by
  refine Keeps.bind (critical_fair ?_) fun _ => ?_
  · refine Keeps.bind (Keeps.act fun s => stickyTimeout_fair p pad s) fun _ => ?_
    exact Keeps.bind (keeps_fair (hidAct_sticky _)) fun _ => Keeps.act fun _ => fair_of_flag id
  · refine Keeps.bind (Keeps.act fun _ => fair_of_flag id) fun _ => ?_
    exact keeps_fair (adjustInitVal_sticky _ _)

theorem scanSelected_fair (p pad : Nat) : (scanSelected pad).Keeps (Fair p) := by
  refine Keeps.ite ?_ (keeps_fair (scanPressurePad_sticky pad))
  refine Keeps.bind (keeps_fair (sampleVelocityPad_keeps (fun _ _ => rfl) pad)) fun x => ?_
  refine Keeps.bind (Keeps.atomic fun _ _ => fair_of_flag id) fun sent => ?_
  refine Keeps.ite (Keeps.ite ?_ ?_) (Keeps.ite ?_ (Keeps.ret _))
  · exact Keeps.bind (pressureUpdate_fair p pad _) fun _ => Keeps.ret _
  · exact Keeps.bind (strike_fair p pad _) fun _ => Keeps.ret _
  · exact Keeps.bind (release_fair p pad) fun _ => Keeps.ret _

/-- **After the reset button, main takes the offset off only by taking the counts back.** -/
theorem scanRest_fair (p i pad : Nat) : (scanRest i pad).Keeps (Fair p) := by
  have happroaches : Approaches (Fair p) := stickyView_approaches.mono fun _ _ => fair_of_sameOn
  exact happroaches.scanRest_keeps i (scanSelected_fair p pad)

/-- The step neither applies the offset nor takes it back. -/
def Neutral (p : Nat) (s t : Firmware) : Prop :=
  takesBack p s t = false ∧ raises (stickyFlag p) s t = false

theorem neutral_of_flag {p : Nat} {s t : Firmware} (h : stickyFlag p t = stickyFlag p s) :
    Neutral p s t := by
  cases hs : stickyFlag p s <;> simp [Neutral, takesBack, lowers, raises, h, hs]

theorem neutral_of_sameOn {p : Nat} {s t : Firmware} (h : SameOn stickyView s t) :
    Neutral p s t := neutral_of_flag (congrArg (fun v => StickyView.applied v p) h)

theorem keeps_neutral {α : Type} {p : Nat} {c : Code α} (h : c.Keeps (SameOn stickyView)) :
    c.Keeps (Neutral p) := Keeps.mono (fun _ _ => neutral_of_sameOn) h

/-- The flags are cleared without a look at the thresholds. -/
theorem clearFlags_neutral (p : Nat) (s : Firmware) :
    Neutral p s { s with pads := { s.pads with
      antiStickyApplied := zeroed s.pads.antiStickyApplied numPads false } } := by
  have hne : s.standby.initVal p ≠ s.standby.initVal p - 50 := by
    intro h
    have hsum : s.standby.initVal p + 50 = s.standby.initVal p := by
      nth_rewrite 1 [h]
      exact BitVec.sub_add_cancel _ _
    exact absurd (BitVec.add_right_eq_self.mp hsum) (by decide)
  constructor
  · have hbeq : (s.standby.initVal p == s.standby.initVal p - 50) = false :=
      beq_eq_false_iff_ne.mpr hne
    show (_ && (s.standby.initVal p == s.standby.initVal p - 50)) = false
    rw [hbeq, Bool.and_false]
  · have hdown : zeroed s.pads.antiStickyApplied numPads false p = true →
        s.pads.antiStickyApplied p = true := by
      unfold zeroed
      split
      · exact fun h => absurd h Bool.false_ne_true
      · exact id
    cases hs : s.pads.antiStickyApplied p with
    | true => simp [raises, stickyFlag, hs]
    | false =>
      have hfalse : zeroed s.pads.antiStickyApplied numPads false p = false := by
        rw [← Bool.not_eq_true]
        intro h
        exact absurd (hs.symm.trans (hdown h)) Bool.false_ne_true
      simp [raises, stickyFlag, hs, hfalse]

theorem calibrateReset_neutral (p : Nat) : calibrateReset.Keeps (Neutral p) := by
  refine Keeps.bind (genericHIDClear_keeps fun _ _ _ _ => neutral_of_sameOn rfl) fun _ => ?_
  refine Keeps.bind (Keeps.act fun _ => neutral_of_sameOn rfl) fun _ => ?_
  refine Keeps.bind (Keeps.act fun s => clearFlags_neutral p s) fun _ => ?_
  refine Keeps.bind (Keeps.act fun _ => neutral_of_flag rfl) fun _ => ?_
  refine Keeps.bind (Keeps.act fun _ => neutral_of_flag rfl) fun _ => ?_
  exact Keeps.act fun _ => neutral_of_flag rfl

/-- **The reset button neither applies the offset nor takes it back.** -/
theorem resetButton_neutral (p : Nat) : resetButton.Keeps (Neutral p) := by
  have hcalibrates : Calibrates (Neutral p) :=
    stickyView_calibrates.mono fun _ _ => neutral_of_sameOn
  refine Keeps.bind (Keeps.atomic fun _ _ => neutral_of_sameOn rfl) fun up => Keeps.ite ?_ ?_
  · exact Keeps.bind (Keeps.act fun _ => neutral_of_sameOn rfl) fun _ => Keeps.ret _
  refine Keeps.bind (Keeps.act fun _ => neutral_of_sameOn rfl) fun _ => ?_
  refine Keeps.bind (critical_keeps (fun _ _ _ => neutral_of_sameOn rfl) ?_) fun _ => Keeps.ret _
  refine Keeps.bind (Keeps.act fun _ => neutral_of_sameOn rfl) fun _ => ?_
  exact hcalibrates.calibrate_keeps (calibrateReset_neutral p)

end SphereWare
