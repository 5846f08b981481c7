import SphereWare.Properties.ClockSources
import SphereWare.Spec.MainProgram
import SphereWare.Spec.ScanView

/-!
# The fade with the beat

AlphaLive sends a timing message on each beat. Main starts a fade at full brightness and takes off
the same amount at the end of each pass, in a byte and with no floor: where the next beat is late
the byte wraps around and the LED lights up again.
-/

namespace SphereWare

open Interrupt Prog

/-! ## The steps of a fade -/

/-- `LED_Fade_Step` after a pass. -/
def nextStep (tempo : Nat) (step : Int) : Int := toI8 ((step : ℚ) - tempo / 25)

/-- `LED_Fade_Step` after `n` passes since the beat. -/
def stepAfter (tempo : Nat) : Nat → Int
  | 0 => 100
  | n + 1 => nextStep tempo (stepAfter tempo n)

/-- `LED_Tempo / 25.0`, rounded up. -/
def perPass (tempo : Nat) : Nat := (tempo + 24) / 25

/--
For how many passes a fade only fades. Each pass takes off `tempo / 25`, rounded up as long as
there is as much to take off and rounded down after that. What counts in the end is how much that
is modulo 256.
-/
def FadesFor (tempo n : Nat) : Prop :=
  n = 0 ∨ tempo / 25 % 256 = 0 ∨
  (0 < tempo / 25 % 256 ∧ tempo / 25 % 256 ≤ 127 ∧
    n ≤ 100 / perPass tempo + (100 % perPass tempo + 128) / (tempo / 25 % 256)) ∨
  (128 ≤ tempo / 25 % 256 ∧ tempo / 25 % 256 ≤ 228 ∧ n * (256 - tempo / 25 % 256) ≤ 156)

theorem nextStep_eq (tempo : Nat) (s : Int) :
    nextStep tempo s = i8 (if (perPass tempo : Int) ≤ s then s - perPass tempo
      else s - (tempo / 25 : Nat)) := by
  have hceil : ⌈(tempo : ℚ) / 25⌉ = (perPass tempo : Int) := by
    have hlow : (tempo : ℚ) ≤ 25 * perPass tempo := by
      have h : tempo ≤ 25 * perPass tempo := by unfold perPass; omega
      exact_mod_cast h
    have hhigh : (25 : ℚ) * perPass tempo < tempo + 25 := by
      have h : 25 * perPass tempo < tempo + 25 := by unfold perPass; omega
      exact_mod_cast h
    rw [Int.ceil_eq_iff, Int.cast_natCast]
    constructor
    · linarith
    · linarith
  have hfloor : ⌊(tempo : ℚ) / 25⌋ = ((tempo / 25 : Nat) : Int) := by
    have h := Rat.floor_intCast_div_natCast (tempo : Int) 25
    push_cast at h ⊢
    exact h
  have hpos : 0 ≤ (s : ℚ) - tempo / 25 ↔ (perPass tempo : Int) ≤ s := by
    rw [sub_nonneg, ← hceil, Int.ceil_le]
  have hdown : ⌊(s : ℚ) - tempo / 25⌋ = s - perPass tempo := by
    rw [sub_eq_add_neg, Int.floor_intCast_add, Int.floor_neg, hceil, sub_eq_add_neg]
  have hup : ⌈(s : ℚ) - tempo / 25⌉ = s - (tempo / 25 : Nat) := by
    rw [sub_eq_add_neg, Int.ceil_intCast_add, Int.ceil_neg, hfloor, sub_eq_add_neg]
  simp only [nextStep, toI8, hpos, hdown, hup]

/-! ### Above zero -/

/-- Down to zero the step goes down evenly. -/
theorem stepAfter_above {tempo n : Nat} (hn : n * perPass tempo ≤ 100) :
    stepAfter tempo n = 100 - n * perPass tempo := by
  induction n with
  | zero => simp [stepAfter]
  | succ n ih =>
    have hsucc : (n + 1) * perPass tempo = n * perPass tempo + perPass tempo := Nat.succ_mul _ _
    have hle : ((n * perPass tempo + perPass tempo : Nat) : Int) ≤ 100 := by
      rw [← hsucc]
      exact_mod_cast hn
    push_cast at hle
    have hprev := ih (by omega)
    have hpos : (0 : Int) ≤ n * perPass tempo := by positivity
    rw [stepAfter, nextStep_eq, hprev, if_pos (by linarith), i8_of_range (by linarith) (by linarith)]
    push_cast
    ring

/-- What is left where the step cannot go down evenly any more. -/
theorem stepAfter_turn (tempo : Nat) :
    stepAfter tempo (100 / perPass tempo) = (100 % perPass tempo : Nat) := by
  have hle : 100 / perPass tempo * perPass tempo ≤ 100 := Nat.div_mul_le_self _ _
  have hdiv : perPass tempo * (100 / perPass tempo) + 100 % perPass tempo = 100 :=
    Nat.div_add_mod 100 (perPass tempo)
  have hcast : (perPass tempo : Int) * (100 / perPass tempo : Nat) + (100 % perPass tempo : Nat)
      = 100 := by exact_mod_cast hdiv
  rw [stepAfter_above hle]
  linarith

/-! ### Below zero -/

section Below

variable {tempo d r : Nat}

/-- Where there is less to take off, it is taken off modulo 256. -/
theorem nextStep_below (hd : tempo / 25 % 256 = d) {s : Int} (hs : s < perPass tempo) :
    nextStep tempo s = i8 (s - d) := by
  rw [nextStep_eq, if_neg (by omega), ← hd]
  unfold i8
  omega

theorem perPass_pos (hd : tempo / 25 % 256 = d) (hpos : 0 < d) : 0 < perPass tempo := by
  unfold perPass
  omega

/-- Slow tempos: down to -128 the step goes down evenly. -/
theorem stepAfter_slow (hd : tempo / 25 % 256 = d) (hr : 100 % perPass tempo = r) (hpos : 0 < d)
    (hslow : d ≤ 127) {j : Nat} (hj : j * d ≤ r + 128) :
    stepAfter tempo (100 / perPass tempo + j) = r - j * d := by
  have hturn : r < perPass tempo := hr ▸ Nat.mod_lt _ (perPass_pos hd hpos)
  have hleft : r ≤ 100 := hr ▸ Nat.mod_le _ _
  induction j with
  | zero => simpa [hr] using stepAfter_turn tempo
  | succ j ih =>
    rw [Nat.succ_mul] at hj
    have hprev := ih (by omega)
    have hdone : (0 : Int) ≤ j * d := by positivity
    have hj' : (j : Int) * d + d ≤ r + 128 := by exact_mod_cast hj
    rw [← Nat.add_assoc, stepAfter, hprev, nextStep_below hd (by omega),
      i8_of_range (by omega) (by omega), Nat.cast_succ, add_mul, one_mul]
    omega

/-- The pass after that lights the LED up. -/
theorem nextStep_slow (hd : tempo / 25 % 256 = d) (hslow : d ≤ 127) {s : Int} (hlow : -128 ≤ s)
    (hwrap : s < d - 128) (hs : s < perPass tempo) :
    0 < nextStep tempo s ∧ s < nextStep tempo s := by
  rw [nextStep_below hd hs]
  unfold i8
  omega

/-- Fast tempos: from below zero the step goes up evenly, until the LED lights up. -/
theorem stepAfter_fast {e : Nat} (hd : tempo / 25 % 256 = d) (he : d + e = 256) (hlow : 28 ≤ e)
    (hhigh : e ≤ 128) {j : Nat} (hj : j * e ≤ 156) :
    stepAfter tempo (j + 1) = (j + 1) * e - 156 := by
  have hperPass : 100 < perPass tempo := by unfold perPass; omega
  induction j with
  | zero =>
    have hfirst : stepAfter tempo 0 = 100 := rfl
    rw [stepAfter, hfirst, nextStep_below hd (by omega)]
    unfold i8
    omega
  | succ j ih =>
    rw [Nat.succ_mul] at hj
    have hprev := ih (by omega)
    have hdone : (0 : Int) ≤ j * e := by positivity
    have hj' : (j : Int) * e + e ≤ 156 := by exact_mod_cast hj
    -- 128 steps at a time miss the top of the byte
    have htop : (j : Int) * e + 2 * e ≤ 283 := by
      by_cases hfull : e = 128
      · subst hfull
        omega
      · omega
    rw [add_mul, one_mul] at hprev
    rw [stepAfter, hprev, nextStep_below hd (by omega), Nat.cast_succ, add_mul (j + 1 : Int),
      one_mul, add_mul, one_mul]
    unfold i8
    omega

end Below

/-! ### How long a fade only fades -/

/-- In `n` passes the LED never gets brighter. -/
def Fades (tempo n : Nat) : Prop :=
  ∀ k < n, max (stepAfter tempo (k + 1)) 0 ≤ max (stepAfter tempo k) 0

section Fades

variable {tempo d : Nat} (hd : tempo / 25 % 256 = d)

include hd

/-- Where a pass takes off a multiple of 256 below zero, the fade stops at or above zero. -/
theorem fades_of_zero (hzero : d = 0) (n : Nat) : Fades tempo n := by
  subst hzero
  have hstep {s : Int} (hlow : 0 ≤ s) (hhigh : s ≤ 100) :
      0 ≤ nextStep tempo s ∧ nextStep tempo s ≤ s := by
    by_cases hs : s < perPass tempo
    · rw [nextStep_below hd hs]
      unfold i8
      omega
    · rw [nextStep_eq, if_pos (by omega)]
      unfold i8
      omega
  have hrange (k : Nat) : 0 ≤ stepAfter tempo k ∧ stepAfter tempo k ≤ 100 := by
    induction k with
    | zero => simp [stepAfter]
    | succ k ih =>
      obtain ⟨hlow, hle⟩ := hstep ih.1 ih.2
      exact ⟨hlow, le_trans hle ih.2⟩
  intro k _
  obtain ⟨hlow, hle⟩ := hstep (hrange k).1 (hrange k).2
  exact max_le_max hle (le_refl 0)

theorem fades_slow_iff (hpos : 0 < d) (hslow : d ≤ 127) (n : Nat) :
    Fades tempo n ↔ n ≤ 100 / perPass tempo + (100 % perPass tempo + 128) / d := by
  have hperPass := perPass_pos hd hpos
  obtain ⟨r, hr⟩ : ∃ r, 100 % perPass tempo = r := ⟨_, rfl⟩
  obtain ⟨m, hm⟩ : ∃ m, 100 / perPass tempo = m := ⟨_, rfl⟩
  obtain ⟨j, hj⟩ : ∃ j, (r + 128) / d = j := ⟨_, rfl⟩
  have hturn : r < perPass tempo := hr ▸ Nat.mod_lt _ hperPass
  have hmul : j * d ≤ r + 128 := hj ▸ Nat.div_mul_le_self _ _
  rw [hr, hm, hj]
  constructor
  · intro h
    by_contra hn
    -- the pass that wraps around
    have hlast := h (m + j) (Nat.lt_of_not_le hn)
    have hstep := hm ▸ stepAfter_slow hd hr hpos hslow hmul
    have hover : r + 128 < j * d + d := hj ▸ Nat.lt_div_mul_add hpos
    have hdone : (0 : Int) ≤ j * d := by positivity
    have hmul' : (j : Int) * d ≤ r + 128 := by exact_mod_cast hmul
    have hover' : (r : Int) + 128 < j * d + d := by exact_mod_cast hover
    rw [stepAfter, hstep] at hlast
    have hbright := nextStep_slow (s := r - j * d) hd hslow (by omega) (by omega) (by omega)
    omega
  · intro hn k hk
    refine max_le_max ?_ (le_refl 0)
    by_cases hkm : k < m
    · have hle : (k + 1) * perPass tempo ≤ 100 :=
        le_trans (Nat.mul_le_mul_right _ (hm ▸ hkm)) (Nat.div_mul_le_self _ _)
      have hle' : k * perPass tempo ≤ 100 := le_trans (Nat.mul_le_mul_right _ (by omega)) hle
      rw [stepAfter_above hle, stepAfter_above hle', Nat.cast_succ, add_mul]
      omega
    · obtain ⟨i, rfl⟩ := Nat.exists_eq_add_of_le (Nat.le_of_not_lt hkm)
      have hnext : (i + 1) * d ≤ r + 128 :=
        le_trans (Nat.mul_le_mul_right _ (by omega)) hmul
      have hprev : i * d ≤ r + 128 := le_trans (Nat.mul_le_mul_right _ (by omega)) hnext
      rw [Nat.add_assoc, ← hm, stepAfter_slow hd hr hpos hslow hnext,
        stepAfter_slow hd hr hpos hslow hprev, Nat.cast_succ, add_mul]
      omega

theorem fades_fast_iff {e : Nat} (he : d + e = 256) (hlow : 28 ≤ e) (hhigh : e ≤ 128) (n : Nat) :
    Fades tempo n ↔ n * e ≤ 156 := by
  obtain ⟨j, hj⟩ : ∃ j, 156 / e = j := ⟨_, rfl⟩
  have hmul : j * e ≤ 156 := hj ▸ Nat.div_mul_le_self _ _
  have hover : 156 < j * e + e := hj ▸ Nat.lt_div_mul_add (by omega)
  constructor
  · intro h
    by_contra hn
    have hjn : j < n := by
      by_contra hle
      exact hn (le_trans (Nat.mul_le_mul_right e (Nat.le_of_not_lt hle)) hmul)
    -- the pass in which the step comes up above zero
    have hlast := h j hjn
    obtain ⟨i, rfl⟩ : ∃ i, j = i + 1 := by
      refine Nat.exists_eq_succ_of_ne_zero fun hzero => ?_
      rw [hzero] at hover
      omega
    rw [Nat.succ_mul] at hmul hover
    have hprev := stepAfter_fast hd he hlow hhigh (j := i) (by omega)
    have hnext := stepAfter_fast hd he hlow hhigh (j := i + 1) (by rw [Nat.succ_mul]; omega)
    have hmul' : (i : Int) * e + e ≤ 156 := by exact_mod_cast hmul
    have hover' : (156 : Int) < i * e + e + e := by exact_mod_cast hover
    rw [hprev, hnext, Nat.cast_succ] at hlast
    simp only [add_mul, one_mul] at hlast
    omega
  · intro hn k hk
    have hle : (k + 1) * e ≤ 156 := le_trans (Nat.mul_le_mul_right e hk) hn
    rw [Nat.succ_mul] at hle
    have hnext := stepAfter_fast hd he hlow hhigh (j := k) (by omega)
    have hle' : (k : Int) * e + e ≤ 156 := by exact_mod_cast hle
    have hdark : stepAfter tempo (k + 1) ≤ 0 := by
      rw [hnext, add_mul, one_mul]
      omega
    rw [max_eq_right hdark]
    exact le_max_right _ _

theorem fades_furious_iff (hhigh : 229 ≤ d) (n : Nat) : Fades tempo n ↔ n = 0 := by
  constructor
  · intro h
    by_contra hn
    have hfirst := h 0 (Nat.pos_of_ne_zero hn)
    have hperPass : 100 < perPass tempo := by unfold perPass; omega
    have hlt : d < 256 := hd ▸ Nat.mod_lt _ (by decide)
    have hnext : stepAfter tempo (0 + 1) = 356 - d := by
      have hstart : stepAfter tempo 0 = 100 := rfl
      rw [stepAfter, hstart, nextStep_below hd (by omega)]
      unfold i8
      omega
    rw [hnext, stepAfter] at hfirst
    omega
  · rintro rfl k hk
    exact absurd hk (Nat.not_lt_zero k)

end Fades

/-- **The exact number of passes for which the fade only fades.** -/
theorem fades_iff (tempo n : Nat) : Fades tempo n ↔ FadesFor tempo n := by
  obtain ⟨d, hd⟩ : ∃ d, tempo / 25 % 256 = d := ⟨_, rfl⟩
  have hlt : d < 256 := hd ▸ Nat.mod_lt _ (by decide)
  rw [FadesFor, hd]
  by_cases hzero : d = 0
  · simp [hzero, fades_of_zero hd hzero n]
  · by_cases hslow : d ≤ 127
    · rw [fades_slow_iff hd (by omega) hslow]
      generalize 100 / perPass tempo + (100 % perPass tempo + 128) / d = limit
      omega
    · by_cases hfast : d ≤ 228
      · rw [fades_fast_iff hd (e := 256 - d) (by omega) (by omega) (by omega)]
        constructor
        · exact fun h => Or.inr (Or.inr (Or.inr ⟨by omega, hfast, h⟩))
        · rintro (h | h | h | h)
          · simp [h]
          · exact absurd h hzero
          · exact absurd h.2.1 hslow
          · exact h.2.2
      · rw [fades_furious_iff hd (by omega)]
        omega

/-! ## Runs of main -/

/-- What the fade depends on. -/
structure Beat where
  running : UInt8
  on : Bool
  tempo : Nat
  step : Int

def beat (s : Firmware) : Beat :=
  ⟨s.led.clockRunning, decide (s.led.clockStatus ≠ 0), s.led.tempo, s.led.fadeStep⟩

/-- A fade with the clock of AlphaLive, `n` passes after the beat. -/
def fading (tempo n : Nat) : Beat := ⟨1, true, tempo, stepAfter tempo n⟩

/-- The brightness factor. -/
def brightness (s : Firmware) : ℚ := (max s.led.fadeStep 0 : Int) / 100

/-- An iteration or the end of a pass in which no tick brings a clock message. -/
inductive BeatStep : Nat → Nat → Firmware → Nat → Nat → Firmware → Prop where
  | pad {n i : Nat} {s t : Firmware} {o : Outcome} (hi : i < numPads) (sched : Sched Input)
      (hrun : (scanPad i).run avr sched s = some (o, t))
      (hquiet : (scanPad i).along avr anyStep anyStep (leavesView avr beat) sched s) :
      BeatStep n i s n (i + 1) t
  | pass {n : Nat} {s t : Firmware} (sched : Sched Input)
      (hrun : endPass.run avr sched s = some ((), t))
      (hquiet : endPass.along avr anyStep anyStep (leavesView avr beat) sched s) :
      BeatStep n numPads s (n + 1) 0 t

/-- What main reaches so: the passes that have ended, the position in the next one, the state. -/
inductive BeatRun (s₀ : Firmware) : Nat → Nat → Firmware → Prop where
  | start (i : Nat) : BeatRun s₀ 0 i s₀
  | step {n i n' i' : Nat} {s t : Firmware} (h : BeatRun s₀ n i s)
      (hstep : BeatStep n i s n' i' t) : BeatRun s₀ n' i' t

/--
From a timing message of AlphaLive, which starts a fade, to the end of the `n`th pass after it the
brightness is at most 1, never increases, and stays 0 once it is 0.
-/
def OnlyFades (env : Firmware → Input) (b1 b2 b3 : UInt8) (n : Nat) : Prop :=
  ∀ s, s.led.clockStatus ≠ 0 → s.led.clockRunning ≠ 2 → ∀ k i t k' i' u, k' ≤ n →
    BeatRun (clockStep env s (.alphaLive b1 b2 b3)) k i t → BeatStep k i t k' i' u →
    brightness t ≤ 1 ∧ brightness u ≤ brightness t ∧ (brightness t = 0 → brightness u = 0)

/-! ### What a step does to the fade -/

theorem beat_of_led {s t : Firmware} (h : t.led = s.led) : beat t = beat s := by
  simp only [beat, h]

theorem beat_of_boardView {s t : Firmware} (h : SameOn boardView s t) : SameOn beat s t := by
  simp only [SameOn, boardView, Prod.mk.injEq] at h
  exact beat_of_led h.1

theorem baseColour_beat (old : Colour) : (baseColour old).Keeps (SameOn beat) := by
  refine Keeps.mono (fun s t h => ?_) (baseColour_keeps old)
  have hdraw : beat (drawView t) = beat (drawView s) := congrArg beat h
  exact hdraw

theorem ledSetColour_beat (r g b : Nat) : (ledSetColour r g b).Keeps (SameOn beat) := by
  refine Keeps.mono (fun s t h => ?_) (ledSetColour_keeps_settings r g b)
  simp only [SameOn, colourView, Led.settings, Prod.mk.injEq] at h
  obtain ⟨-, -, -, -, hstatus, hrunning, htempo, hstep, -⟩ := h
  simp only [SameOn, beat, hstatus, hrunning, htempo, hstep]

variable {tempo n : Nat} {M : Machine Firmware Input}

theorem clockFade_beat (c : Colour) :
    Spec M beat (fading tempo n) (clockFade c) fun _ w => w = fading tempo (n + 1) := by
  refine Spec.read_bind true (fun t ht => congrArg Beat.on ht) ?_
  refine Spec.read_bind true (fun t ht => ?_) ?_
  · have hone : t.led.clockRunning = 1 := congrArg Beat.running ht
    simp [hone]
  · rw [if_pos ⟨rfl, rfl⟩]
    refine spec_critical_of (fun _ _ _ => rfl) ?_
    refine Spec.keeps_bind (Keeps.atomic fun _ _ => rfl) fun step => ?_
    refine Spec.act_bind (fading tempo (n + 1)) (fun t ht => ?_) (Spec.ret rfl)
    have hone : t.led.clockRunning = 1 := congrArg Beat.running ht
    simp only [beat, fading, Beat.mk.injEq] at ht
    obtain ⟨-, hon, htempo, hstep⟩ := ht
    simp [beat, fading, nextFadeStep, hone, hon, htempo, hstep, stepAfter, nextStep]

theorem colourToSet_beat :
    Spec M beat (fading tempo n) colourToSet fun _ w => w = fading tempo (n + 1) := by
  refine Spec.keeps_bind (Keeps.atomic fun _ _ => rfl) fun old => ?_
  exact Spec.keeps_bind (baseColour_beat old) clockFade_beat

/-- **The end of a pass takes the fade one step further, or leaves it where it is.** -/
theorem endPass_beat : Spec M beat (fading tempo n) endPass fun _ w =>
    w = fading tempo n ∨ w = fading tempo (n + 1) := by
  have hread {α : Type} (f : Firmware → α) : (read f : Code α).Keeps (SameOn beat) :=
    Keeps.atomic fun _ _ => rfl
  refine Spec.bind (Q := fun _ w => w = fading tempo n ∨ w = fading tempo (n + 1)) ?_ ?_
  · refine Spec.keeps_bind (hread _) fun mode => Spec.ite (fun _ => ?_) fun _ => ?_
    · rw [normalColour_eq]
      refine Spec.keeps_bind (hread _) fun status => Spec.when (fun _ => ?_) fun _ => Or.inl rfl
      refine Spec.bind colourToSet_beat ?_
      rintro c w rfl
      exact Spec.keeps (ledSetColour_beat _ _ _) fun _ => Or.inr rfl
    · refine Spec.keeps_bind (hread _) fun mode => Spec.when (fun _ => ?_) fun _ => Or.inl rfl
      refine Spec.keeps (critical_keeps (fun _ _ _ => rfl) ?_) fun _ => Or.inl rfl
      exact Keeps.bind (hread _) fun c => ledSetColour_beat _ _ _
  · intro _ w hw
    exact Spec.keeps (Keeps.bind (Keeps.act fun _ => rfl) fun _ => Keeps.act fun _ => rfl)
      fun _ => hw

theorem BeatStep.beat {n i n' i' j : Nat} {s t : Firmware} (h : BeatStep n i s n' i' t)
    (hs : beat s = fading tempo j) :
    n ≤ n' ∧ (beat t = fading tempo j ∨ (n' = n + 1 ∧ beat t = fading tempo (j + 1))) := by
  cases h with
  | pad hi sched hrun hquiet =>
    have hkeeps : Spec avr SphereWare.beat (SphereWare.beat s) (scanPad i) fun _ w =>
        w = SphereWare.beat s :=
      Spec.keeps (Keeps.mono (fun _ _ => beat_of_boardView) (scanPad_board i)) fun _ => rfl
    exact ⟨Nat.le_refl n, Or.inl ((hkeeps.run_of_along hquiet hrun).trans hs)⟩
  | pass sched hrun hquiet =>
    have hspec := @endPass_beat tempo j avr
    rw [← hs] at hspec
    rcases hspec.run_of_along hquiet hrun with hsame | hnext
    · exact ⟨Nat.le_succ n, Or.inl (hsame.trans hs)⟩
    · exact ⟨Nat.le_succ n, Or.inr ⟨rfl, hnext⟩⟩

theorem BeatRun.beat {s₀ s : Firmware} {n i : Nat} (h : BeatRun s₀ n i s)
    (hs₀ : beat s₀ = fading tempo 0) : ∃ j ≤ n, beat s = fading tempo j := by
  induction h with
  | start i => exact ⟨0, Nat.le_refl 0, hs₀⟩
  | step _ hstep ih =>
    obtain ⟨j, hj, hs⟩ := ih
    obtain ⟨hle, hsame | ⟨hn, hnext⟩⟩ := hstep.beat hs
    · exact ⟨j, le_trans hj hle, hsame⟩
    · exact ⟨j + 1, by omega, hnext⟩

/-- A timing message starts a fade. -/
theorem beat_alphaLive (env : Firmware → Input) {s : Firmware} (hon : s.led.clockStatus ≠ 0)
    (hrunning : s.led.clockRunning ≠ 2) {b1 : UInt8} (hb1 : b1 ≠ 0) (b2 b3 : UInt8) :
    beat (clockStep env s (.alphaLive b1 b2 b3)) = fading (b2.toNat + 256 * b3.toNat) 0 := by
  have hview := clockView_alphaLive env s b1 b2 b3
  simp only [ClockView.next, clockView, hrunning, hb1, if_false, ClockView.mk.injEq] at hview
  obtain ⟨hstatus, hone, hstep, htempo, -⟩ := hview
  simp [beat, fading, stepAfter, hstatus, hone, hstep, htempo, hon]

/-! ### Brightness -/

theorem brightness_of_beat {s : Firmware} (h : beat s = fading tempo n) :
    brightness s = (max (stepAfter tempo n) 0 : Int) / 100 := by
  have hstep : s.led.fadeStep = stepAfter tempo n := congrArg Beat.step h
  rw [brightness, hstep]

theorem brightness_le_iff {s t : Firmware} {m : Nat} (hs : beat s = fading tempo m)
    (ht : beat t = fading tempo n) : brightness s ≤ brightness t ↔
      max (stepAfter tempo m) 0 ≤ max (stepAfter tempo n) 0 := by
  rw [brightness_of_beat hs, brightness_of_beat ht, div_le_div_iff_of_pos_right (by norm_num),
    Int.cast_le]

theorem brightness_nonneg (s : Firmware) : 0 ≤ brightness s := by
  have h : (0 : ℚ) ≤ (max s.led.fadeStep 0 : Int) := by exact_mod_cast le_max_right _ _
  exact div_nonneg h (by norm_num)

theorem Fades.le_full (h : Fades tempo n) {k : Nat} (hk : k ≤ n) :
    max (stepAfter tempo k) 0 ≤ 100 := by
  induction k with
  | zero => simp [stepAfter]
  | succ k ih => exact le_trans (h k hk) (ih (Nat.le_of_succ_le hk))

theorem onlyFades_of_fades (env : Firmware → Input) {b1 : UInt8} (hb1 : b1 ≠ 0) {b2 b3 : UInt8}
    (h : Fades (b2.toNat + 256 * b3.toNat) n) : OnlyFades env b1 b2 b3 n := by
  intro s hon hrunning k i t k' i' u hk' hrun hstep
  obtain ⟨j, hj, ht⟩ := hrun.beat (beat_alphaLive env hon hrunning hb1 b2 b3)
  obtain ⟨hkk', hu⟩ := hstep.beat ht
  have hle : brightness u ≤ brightness t := by
    rcases hu with hsame | ⟨hnext, hu⟩
    · exact (brightness_le_iff hsame ht).mpr (le_refl _)
    · exact (brightness_le_iff hu ht).mpr (h j (by omega))
  refine ⟨?_, hle, fun hzero => le_antisymm (hzero ▸ hle) (brightness_nonneg u)⟩
  have hfull : ((max (stepAfter (b2.toNat + 256 * b3.toNat) j) 0 : Int) : ℚ) ≤ 100 := by
    exact_mod_cast h.le_full (show j ≤ n by omega)
  rw [brightness_of_beat ht]
  linarith

/-! ### Runs that fade in every pass -/

def litView (s : Firmware) := (s.led.mode, s.led.status, beat s)

/-- The normal mode with the LED on, and a fade `n` passes after the beat. -/
def lit (status : UInt8) (tempo n : Nat) : UInt8 × UInt8 × Beat := (0, status, fading tempo n)

theorem litView_of_boardView {s t : Firmware} (h : SameOn boardView s t) : SameOn litView s t := by
  simp only [SameOn, boardView, Prod.mk.injEq] at h
  simp only [SameOn, litView, beat, h.1]

theorem colourToSet_lit (status : UInt8) :
    Spec M litView (lit status tempo n) colourToSet fun _ w => w = lit status tempo (n + 1) := by
  have hfade : Spec M litView (lit status tempo n) colourToSet fun _ w =>
      w.2.2 = fading tempo (n + 1) :=
    Spec.of_part (f := fun v : UInt8 × UInt8 × Beat => v.2.2)
      (Q := fun _ w => w = fading tempo (n + 1)) (fun _ => rfl) colourToSet_beat
  have hkeeps : Spec M litView (lit status tempo n) colourToSet fun _ w =>
      (w.1, w.2.1) = (0, status) := by
    refine Spec.of_keeps (S := fun v w : UInt8 × UInt8 × Beat => (w.1, w.2.1) = (v.1, v.2.1))
      (fun _ => rfl) (fun _ _ _ h₁ h₂ => h₂.trans h₁) (Keeps.mono (fun s t h => ?_) colourToSet_lamp)
    simp only [SameOn, lampView, Prod.mk.injEq] at h
    simp only [litView, h.2.2.1, h.2.2.2]
  refine Spec.mono (hfade.and hkeeps) fun _ w hw => ?_
  obtain ⟨hstep, hsame⟩ := hw
  simp only [Prod.mk.injEq] at hsame
  exact Prod.ext hsame.1 (Prod.ext hsame.2 hstep)

theorem endPass_lit {status : UInt8} (hstatus : status ≠ 0) :
    Spec M litView (lit status tempo n) endPass fun _ w => w = lit status tempo (n + 1) := by
  refine Spec.bind (Q := fun _ w => w = lit status tempo (n + 1)) ?_ ?_
  · refine Spec.read_bind 0 (fun t ht => congrArg Prod.fst ht) ?_
    rw [if_pos rfl, normalColour_eq]
    refine Spec.read_bind status (fun t ht => congrArg (fun v => v.2.1) ht) ?_
    refine Spec.when (fun _ => ?_) fun h => absurd hstatus h
    refine Spec.bind (colourToSet_lit status) ?_
    rintro c w rfl
    refine Spec.keeps (Keeps.mono (fun s t h => ?_) (ledSetColour_keeps_settings _ _ _)) fun _ => rfl
    simp only [SameOn, colourView, Led.settings, Prod.mk.injEq] at h
    obtain ⟨-, hmode, hstatus, -, hclock, hrunning, htempo, hstep, -⟩ := h
    simp only [SameOn, litView, beat, hmode, hstatus, hclock, hrunning, htempo, hstep]
  · rintro _ w rfl
    exact Spec.keeps (Keeps.bind (Keeps.act fun _ => rfl) fun _ => Keeps.act fun _ => rfl)
      fun _ => rfl

/-- Without ticks. -/
theorem beatStep_pad (n : Nat) {i : Nat} (hi : i < numPads) (s : Firmware) :
    ∃ t, BeatStep n i s n (i + 1) t ∧ litView t = litView s := by
  have hkeeps : Spec avr litView (litView s) (scanPad i) fun _ w => w = litView s :=
    Spec.keeps (Keeps.mono (fun _ _ => litView_of_boardView) (scanPad_board i)) fun _ => rfl
  obtain ⟨sched, o, t, hrun, hquiet, hview⟩ := hkeeps.exists_run (fun _ => .quiet) fun _ => rfl
  exact ⟨t, .pad hi sched hrun hquiet, hview⟩

theorem beatStep_pass {status : UInt8} (hstatus : status ≠ 0) (m : Nat) {s : Firmware}
    (hs : litView s = lit status tempo n) :
    ∃ t, BeatStep m numPads s (m + 1) 0 t ∧ litView t = lit status tempo (n + 1) := by
  have hspec := @endPass_lit tempo n avr status hstatus
  rw [← hs] at hspec
  obtain ⟨sched, o, t, hrun, hquiet, hview⟩ := hspec.exists_run (fun _ => .quiet) fun _ => rfl
  exact ⟨t, .pass sched hrun hquiet, hview⟩

/-- From a lit state main reaches the end of any pass, fading each time. -/
theorem beatRun_lit {status : UInt8} (hstatus : status ≠ 0) {s₀ : Firmware}
    (hs₀ : litView s₀ = lit status tempo 0) (n : Nat) {i : Nat} (hi : i ≤ numPads) :
    ∃ t, BeatRun s₀ n i t ∧ litView t = lit status tempo n := by
  have hpads (m : Nat) {s : Firmware} (h : BeatRun s₀ m 0 s) (hs : litView s = lit status tempo m)
      {i : Nat} (hi : i ≤ numPads) : ∃ t, BeatRun s₀ m i t ∧ litView t = lit status tempo m := by
    induction i with
    | zero => exact ⟨s, h, hs⟩
    | succ i ih =>
      obtain ⟨t, ht, hview⟩ := ih (Nat.le_of_succ_le hi)
      obtain ⟨u, hstep, hsame⟩ := beatStep_pad m hi t
      exact ⟨u, ht.step hstep, hsame.trans hview⟩
  induction n generalizing i with
  | zero => exact hpads 0 (.start 0) hs₀ hi
  | succ n ih =>
    obtain ⟨t, ht, hview⟩ := ih (Nat.le_refl numPads)
    obtain ⟨u, hstep, hlit⟩ := beatStep_pass hstatus n hview
    exact hpads (n + 1) (ht.step hstep) hlit hi

/-- After the start, with the clock interaction on. -/
def clockOn : Firmware := { powerOn with led := { powerOn.led with clockStatus := 1 } }

theorem litView_clockOn (env : Firmware → Input) {b1 : UInt8} (hb1 : b1 ≠ 0) (b2 b3 : UInt8) :
    litView (clockStep env clockOn (.alphaLive b1 b2 b3)) = lit 1 (b2.toNat + 256 * b3.toNat) 0 := by
  have hbeat := beat_alphaLive env (s := clockOn) (by decide) (by decide) hb1 b2 b3
  have hmode : (clockStep env clockOn (.alphaLive b1 b2 b3)).led.mode = 0 ∧
      (clockStep env clockOn (.alphaLive b1 b2 b3)).led.status = 1 := by
    simp [clockStep, processMessage, alphaLiveClock, readData, ledAct, RxBuffer.get,
      RxBuffer.ofList, clockOn, powerOn, Led.init, Led.setColourValues, hb1, when]
  exact Prod.ext hmode.1 (Prod.ext hmode.2 hbeat)

theorem fades_of_onlyFades {env : Firmware → Input} {b1 : UInt8} (hb1 : b1 ≠ 0) {b2 b3 : UInt8}
    (h : OnlyFades env b1 b2 b3 n) : Fades (b2.toNat + 256 * b3.toNat) n := by
  intro k hk
  have hlit := litView_clockOn env hb1 b2 b3
  obtain ⟨t, hrun, ht⟩ := beatRun_lit (show (1 : UInt8) ≠ 0 by decide) hlit k (Nat.le_refl numPads)
  obtain ⟨u, hstep, hu⟩ := beatStep_pass (show (1 : UInt8) ≠ 0 by decide) k ht
  obtain ⟨-, hle, -⟩ := h clockOn (by decide) (by decide) k numPads t (k + 1) 0 u hk hrun hstep
  exact (brightness_le_iff (congrArg (fun v => v.2.2) hu) (congrArg (fun v => v.2.2) ht)).mp hle

/--
**When the fade only fades.** After a timing message of AlphaLive with any tempo, in all runs of `n`
passes with no further clock message: exactly for the numbers of passes of `FadesFor`.
-/
theorem onlyFades_iff (env : Firmware → Input) (b1 b2 b3 : UInt8) (hb1 : b1 ≠ 0) (n : Nat) :
    OnlyFades env b1 b2 b3 n ↔ FadesFor (b2.toNat + 256 * b3.toNat) n := by
  rw [← fades_iff]
  exact ⟨fades_of_onlyFades hb1, onlyFades_of_fades env hb1⟩

/-- At 120 beats per minute and for 52 passes. -/
theorem onlyFades_iff_tempo120 : OnlyFades (fun _ => .quiet) 1 120 0 52 :=
  (onlyFades_iff (fun _ => .quiet) 1 120 0 (by decide) 52).mpr (by unfold FadesFor perPass; decide)

/-- At 120 beats per minute the 53rd pass lights the LED up again. -/
theorem not_onlyFades : ¬∀ (env : Firmware → Input) (b1 b2 b3 : UInt8) (n : Nat), b1 ≠ 0 →
    OnlyFades env b1 b2 b3 n := by
  intro h
  have hfades := fades_of_onlyFades (by decide) (h (fun _ => .quiet) 1 120 0 53 (by decide))
  have hlimit := (fades_iff 120 53).mp hfades
  exact absurd hlimit (by unfold FadesFor perPass; decide)

end SphereWare
