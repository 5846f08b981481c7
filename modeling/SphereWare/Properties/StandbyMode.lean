import SphereWare.Interrupt.Taken
import SphereWare.Spec.MainFrame
import SphereWare.Properties.Thresholds

/-!
# Standby after idleness

The tick counts how long nothing has been played and raises the thresholds after 20000 ticks. It
raises `init_val` for all 48 pads. Main compares the single-ended pads with `init_val_se`, so these
are as sensitive in standby as before.
-/

namespace SphereWare

open Interrupt Prog

/-! ## Ticks and the rest -/

/-- What every step but the first of a tick keeps: the count, and it does not begin standby. -/
def CountKept (s t : Firmware) : Prop :=
  t.standby.count = s.standby.count ∧
    (t.standby.thresholdsRaised = true → s.standby.thresholdsRaised = true)

theorem CountKept.refl (s : Firmware) : CountKept s s := ⟨rfl, id⟩

theorem CountKept.trans (s t u : Firmware) (h₁ : CountKept s t) (h₂ : CountKept t u) :
    CountKept s u := ⟨h₂.1.trans h₁.1, fun h => h₁.2 (h₂.2 h)⟩

theorem countKept_of_standby {s t : Firmware} (h : SameOn Firmware.standby s t) :
    CountKept s t := by
  rw [CountKept, show t.standby = s.standby from h]
  exact ⟨rfl, id⟩

theorem keeps_count {α : Type} {p : Code α} (h : p.Keeps (SameOn Firmware.standby)) :
    p.Keeps CountKept := Keeps.mono (fun _ _ => countKept_of_standby) h

/-! ## Main -/

theorem countKept_calibrates : Calibrates CountKept where
  iflag _ _ := ⟨rfl, id⟩
  mux _ _ := ⟨rfl, id⟩
  r2r _ _ := ⟨rfl, id⟩
  adc _ _ := ⟨rfl, id⟩
  order _ _ _ := ⟨rfl, id⟩
  threshold _ _ := ⟨rfl, id⟩
  filtered _ _ := ⟨rfl, id⟩
  thresholdSe _ _ := ⟨rfl, id⟩

theorem calibrate_count : calibrate.Keeps CountKept :=
  countKept_calibrates.calibrate_keeps
    (calibrateReset_keeps (genericHIDClear_keeps fun _ _ _ _ => ⟨rfl, id⟩) fun _ _ => ⟨rfl, id⟩)

theorem countKept_of_workView {s t : Firmware} (h : SameOn workView s t) : CountKept s t := by
  simp only [SameOn, workView, Prod.mk.injEq] at h
  obtain ⟨hcount, hraised, -⟩ := h
  rw [CountKept, hcount, hraised]
  exact ⟨rfl, id⟩

theorem critical_count {α : Type} {r : Region} {body : Code α} (h : body.Keeps CountKept) :
    (critical r body).Keeps CountKept := critical_keeps (fun _ _ _ => ⟨rfl, id⟩) h

theorem countKept_worked : Worked fun p => p.Keeps CountKept where
  keeps := Keeps.mono fun _ _ => countKept_of_workView
  bind := Keeps.bind
  critical hbody := critical_count (Keeps.mono (fun _ _ => countKept_of_workView) hbody)
  delay := delay_keeps fun _ _ => ⟨rfl, id⟩

/-- **No step of an iteration counts, and none begins standby.** -/
theorem scanPad_count (i : Nat) : (scanPad i).Keeps CountKept := by
  refine countKept_worked.of_scanPad (critical_count ?_) i
  refine Keeps.bind (Keeps.act fun _ => ⟨rfl, fun h => ?_⟩) fun _ => calibrate_count
  exact absurd h Bool.false_ne_true

theorem endPass_count : endPass.Keeps CountKept := by
  refine keeps_count (Keeps.mono (fun s t h => ?_) endPass_keeps)
  simp only [SameOn, passView, Prod.mk.injEq] at h
  exact h.2.1

theorem startUp_count : startUp.Keeps CountKept := by
  refine Keeps.bind (keeps_count (Keeps.mono (fun s t h => ?_) (ledSetColour_keeps 0 0 1023)))
    fun _ => ?_
  · simp only [SameOn, ledView, Prod.mk.injEq] at h
    exact h.2.1
  refine Keeps.bind (Keeps.act fun _ => ⟨rfl, id⟩) fun _ => ?_
  refine Keeps.bind (Keeps.atomic fun _ _ => ⟨rfl, id⟩) fun _ => ?_
  refine Keeps.bind calibrate_count fun _ => ?_
  exact Keeps.bind (Keeps.act fun _ => ⟨rfl, id⟩) fun _ => Keeps.ret _

/-- **A tick counts in its first step, and nowhere else.** -/
theorem avr_beginsWith : avr.BeginsWith CountKept standbyTick where
  refl := CountKept.refl
  trans := CountKept.trans
  handler := by
    refine ⟨_, rfl, Keeps.mono (fun s t h => ?_) timerServices_keeps⟩
    exact countKept_of_standby (congrArg Prod.fst h)
  off _ := rfl
  leave _ := ⟨rfl, id⟩

/-! ## The ticks of a run -/

/-- The state after the first part of a tick that strikes in the state `s`. -/
abbrev ticked (s : Firmware) : Firmware := avr.afterFirst standbyTick s

/-- The programs main runs through, and where it goes on from. -/
inductive MainRun : List Firmware → Nat → Firmware → Prop where
  | start {s₀ s : Firmware} {codes : Nat → Nat} (sched : Sched Input)
      (hcount : s₀.standby.count = 0) (hrun : startUp.run avr sched s₀ = some (codes, s)) :
      MainRun (startUp.taken avr sched s₀) 0 s
  | pad {l : List Firmware} {i : Nat} {s t : Firmware} {o : Outcome} (h : MainRun l i s)
      (sched : Sched Input) (hi : i < numPads)
      (hrun : (scanPad i).run avr sched s = some (o, t)) :
      MainRun (l ++ (scanPad i).taken avr sched s) (i + 1) t
  | pass {l : List Firmware} {s t : Firmware} (h : MainRun l numPads s) (sched : Sched Input)
      (hrun : endPass.run avr sched s = some ((), t)) :
      MainRun (l ++ endPass.taken avr sched s) 0 t

/--
The states in which ticks strike, in the order of time, up to any moment of a run: during the
start, during an iteration or during the end of a pass.
-/
inductive Ticks : List Firmware → Prop where
  | start (s₀ : Firmware) (sched : Sched Input) (hcount : s₀.standby.count = 0) :
      Ticks (startUp.taken avr sched s₀)
  | pad {l : List Firmware} {i : Nat} {s : Firmware} (h : MainRun l i s) (sched : Sched Input)
      (hi : i < numPads) : Ticks (l ++ (scanPad i).taken avr sched s)
  | pass {l : List Firmware} {s : Firmware} (h : MainRun l numPads s) (sched : Sched Input) :
      Ticks (l ++ endPass.taken avr sched s)

theorem MainRun.linked {l : List Firmware} {i : Nat} {s : Firmware} (h : MainRun l i s) :
    ∃ s₀, s₀.standby.count = 0 ∧ Linked CountKept ticked s₀ l ∧
      CountKept (lastAfter ticked s₀ l) s := by
  induction h with
  | start sched hcount hrun =>
    obtain ⟨hlinked, hend⟩ := taken_linked avr_beginsWith sched startUp _ startUp_count
    exact ⟨_, hcount, hlinked, hend _ _ hrun⟩
  | pad h sched hi hrun ih =>
    obtain ⟨s₀, hcount, hl, hs⟩ := ih
    obtain ⟨hlinked, hend⟩ := taken_linked avr_beginsWith sched (scanPad _) _ (scanPad_count _)
    refine ⟨s₀, hcount, linked_append.mpr ⟨hl, hlinked.of_rel CountKept.trans hs⟩, ?_⟩
    rw [lastAfter_append]
    exact lastAfter_of_rel CountKept.trans hs (hend _ _ hrun)
  | pass h sched hrun ih =>
    obtain ⟨s₀, hcount, hl, hs⟩ := ih
    obtain ⟨hlinked, hend⟩ := taken_linked avr_beginsWith sched endPass _ endPass_count
    refine ⟨s₀, hcount, linked_append.mpr ⟨hl, hlinked.of_rel CountKept.trans hs⟩, ?_⟩
    rw [lastAfter_append]
    exact lastAfter_of_rel CountKept.trans hs (hend _ _ hrun)

theorem Ticks.linked {l : List Firmware} (h : Ticks l) :
    ∃ s₀, s₀.standby.count = 0 ∧ Linked CountKept ticked s₀ l := by
  cases h with
  | start s₀ sched hcount =>
    exact ⟨s₀, hcount, (taken_linked avr_beginsWith sched startUp s₀ startUp_count).1⟩
  | @pad l i s h sched hi =>
    obtain ⟨s₀, hcount, hl, hs⟩ := h.linked
    have htaken := (taken_linked avr_beginsWith sched (scanPad i) s (scanPad_count i)).1
    exact ⟨s₀, hcount, linked_append.mpr ⟨hl, htaken.of_rel CountKept.trans hs⟩⟩
  | @pass l s h sched =>
    obtain ⟨s₀, hcount, hl, hs⟩ := h.linked
    have htaken := (taken_linked avr_beginsWith sched endPass s endPass_count).1
    exact ⟨s₀, hcount, linked_append.mpr ⟨hl, htaken.of_rel CountKept.trans hs⟩⟩

/-! ## The counter -/

/-- The last `n` of the ticks found nothing played. -/
def IdleFor (n : Int) (l : List Firmware) : Prop :=
  ∃ before idle, l = before ++ idle ∧ (idle.length : Int) = n ∧ ∀ s ∈ idle, s.pads.anyPlayed = false

theorem idleFor_zero (l : List Firmware) : IdleFor 0 l := ⟨l, [], by simp, rfl, by simp⟩

theorem IdleFor.snoc {n : Int} {l : List Firmware} (h : IdleFor n l) {b : Firmware}
    (hb : b.pads.anyPlayed = false) : IdleFor (n + 1) (l ++ [b]) := by
  obtain ⟨before, idle, rfl, hlen, hidle⟩ := h
  refine ⟨before, idle ++ [b], by simp, by simp [hlen], fun s hs => ?_⟩
  rw [List.mem_append, List.mem_singleton] at hs
  rcases hs with hs | rfl
  · exact hidle s hs
  · exact hb

/-- The counter says for how many ticks nothing has been played, and starts again after 20000. -/
structure Counted (l : List Firmware) (s : Firmware) : Prop where
  low : 0 ≤ s.standby.count
  high : s.standby.count ≤ 20000
  idle : IdleFor s.standby.count l

theorem Counted.of_countKept {l : List Firmware} {s t : Firmware} (h : Counted l s)
    (hst : CountKept s t) : Counted l t := by
  have hcount : t.standby.count = s.standby.count := hst.1
  exact ⟨hcount ▸ h.low, hcount ▸ h.high, hcount ▸ h.idle⟩

/-- The step lemma. -/
theorem Counted.tick {l : List Firmware} {b : Firmware} (h : Counted l b) :
    Counted (l ++ [b]) (ticked b) := by
  have hcount : (ticked b).standby.count
      = if b.pads.anyPlayed = true ∨ 20000 < b.standby.count + 1 then 0
        else b.standby.count + 1 := b.standby.count_tick b.pads.anyPlayed
  have hlow := h.low
  split at hcount
  · exact ⟨by omega, by omega, hcount ▸ idleFor_zero _⟩
  · next hnot =>
    rw [not_or, Bool.not_eq_true] at hnot
    exact ⟨by omega, by omega, hcount ▸ h.idle.snoc hnot.1⟩

theorem counted_lastAfter {s₀ : Firmware} (hcount : s₀.standby.count = 0) {l : List Firmware}
    (h : Linked CountKept ticked s₀ l) : Counted l (lastAfter ticked s₀ l) := by
  induction l using List.reverseRecOn with
  | nil =>
    have hzero : (lastAfter ticked s₀ []).standby.count = 0 := hcount
    exact ⟨by omega, by omega, hzero ▸ idleFor_zero _⟩
  | append_singleton l b ih =>
    obtain ⟨hl, hb, -⟩ := linked_append.mp h
    rw [lastAfter_append]
    exact ((ih hl).of_countKept hb).tick

/-- What each tick finds in the counter. -/
theorem Ticks.counted {l l₁ l₂ : List Firmware} {b : Firmware} (h : Ticks l)
    (hl : l = l₁ ++ b :: l₂) : Counted l₁ b := by
  obtain ⟨s₀, hcount, hlinked⟩ := h.linked
  rw [hl] at hlinked
  obtain ⟨hbefore, hb, -⟩ := linked_append.mp hlinked
  exact (counted_lastAfter hcount hbefore).of_countKept hb

/-- Standby begins and ends with ticks as it should. -/
structure StandbyAfterIdleness (l : List Firmware) : Prop where
  /-- The counter neither wraps around nor becomes negative. -/
  noOverflow : ∀ b ∈ l, 0 ≤ b.standby.count ∧ b.standby.count + 1 < 32768
  /-- It begins with a tick that ends more than 20000 ticks at which nothing was played. -/
  begins : ∀ l₁ b l₂, l = l₁ ++ b :: l₂ → b.standby.thresholdsRaised = false →
    (ticked b).standby.thresholdsRaised = true → ∃ n > 20000, IdleFor n (l₁ ++ [b])
  /-- It ends with the first tick at which something is played. -/
  ends : ∀ b ∈ l, b.standby.thresholdsRaised = true →
    ((ticked b).standby.thresholdsRaised = false ↔ b.pads.anyPlayed = true)
  /-- It does not begin between two ticks. -/
  between : ∀ l₁ b c l₂, l = l₁ ++ b :: c :: l₂ → c.standby.thresholdsRaised = true →
    (ticked b).standby.thresholdsRaised = true
  /-- The tick it begins with raises the threshold of every pad. -/
  raises : ∀ b ∈ l, b.standby.thresholdsRaised = false →
    (ticked b).standby.thresholdsRaised = true →
      ∀ pad < numPads, (ticked b).standby.initVal pad = b.standby.initVal pad + 100
  /-- The tick it ends with lowers the threshold of every pad. -/
  lowers : ∀ b ∈ l, b.standby.thresholdsRaised = true →
    (ticked b).standby.thresholdsRaised = false →
      ∀ pad < numPads, (ticked b).standby.initVal pad = b.standby.initVal pad - 100
  /-- Every other tick leaves the thresholds alone. -/
  leaves : ∀ b ∈ l, (ticked b).standby.thresholdsRaised = b.standby.thresholdsRaised →
    (ticked b).standby.initVal = b.standby.initVal

theorem raised_ticked (b : Firmware) : (ticked b).standby.thresholdsRaised
    = (!b.pads.anyPlayed && (b.standby.thresholdsRaised || decide (20000 < b.standby.count + 1))) :=
  b.standby.raised_tick b.pads.anyPlayed

/-- The thresholds after a tick are those before it, less the standby offset, plus the new one. -/
theorem initVal_ticked (b : Firmware) {pad : Nat} (hpad : pad < numPads) :
    (ticked b).standby.initVal pad
      = b.standby.initVal pad - b.standby.raised + (ticked b).standby.raised :=
  b.standby.initVal_tick b.pads.anyPlayed hpad

/-- **Standby comes after idleness only, and goes with it.** -/
theorem Ticks.standbyAfterIdleness {l : List Firmware} (h : Ticks l) : StandbyAfterIdleness l where
  noOverflow b hb := by
    obtain ⟨l₁, l₂, hl⟩ := List.append_of_mem hb
    have hcounted := h.counted hl
    have hlow := hcounted.low
    have hhigh := hcounted.high
    exact ⟨hlow, by omega⟩
  begins l₁ b l₂ hl hfalse htrue := by
    rw [raised_ticked, hfalse, Bool.false_or, Bool.and_eq_true, Bool.not_eq_true',
      decide_eq_true_eq] at htrue
    exact ⟨_, htrue.2, (h.counted hl).idle.snoc htrue.1⟩
  ends b _ htrue := by
    rw [raised_ticked, htrue, Bool.true_or, Bool.and_true, Bool.not_eq_false']
  between l₁ b c l₂ hl hraised := by
    obtain ⟨s₀, -, hlinked⟩ := h.linked
    rw [hl] at hlinked
    obtain ⟨-, -, hbetween, -⟩ := linked_append.mp hlinked
    exact hbetween.2 hraised
  raises b _ hfalse htrue pad hpad := by
    rw [initVal_ticked b hpad, Standby.raised, Standby.raised, hfalse, htrue]
    simp
  lowers b _ htrue hfalse pad hpad := by
    rw [initVal_ticked b hpad, Standby.raised, Standby.raised, hfalse, htrue]
    simp
  leaves b _ hsame := (Standby.tick_of_not_flips (by
    rw [tickFlips, bne_eq_false_iff_eq]
    exact hsame)).1

/-! ## Detection -/

/-- The deflection of a pad, in counts of the converter. -/
def deflectionOf (pad : Nat) (raw : BitVec 10) : Int :=
  -adcResult (if pad < 40 then .diff1X10 else .singleEnded) raw

/-- Main takes the pad for pressed when it reads it. -/
def TakenForPressed (env : Firmware → Input) (pad : Nat) (s : Firmware) : Prop :=
  ((scanSelected pad).exec env s).1.2 = .strike ∨ ((scanSelected pad).exec env s).1.2 = .pressure

/-- The deflection is above the threshold of the pad. -/
def Firmware.Detects (s : Firmware) (pad : Nat) (d : Int) : Prop :=
  0 < if pad < 40 then i16 (d - (s.standby.initVal pad).toInt) else i16 (s.pads.initValSe pad + d)

theorem takenForPressed_iff {env : Firmware → Input} {raw : BitVec 10}
    (henv : ∀ t, (env t).adc = raw) (pad : Nat) (s : Firmware) :
    TakenForPressed env pad s ↔ s.Detects pad (deflectionOf pad raw) := by
  unfold TakenForPressed Firmware.Detects deflectionOf scanSelected
  by_cases hpad : pad < 40
  · by_cases hval : 0 < i16 (-adcResult .diff1X10 raw - (s.standby.initVal pad).toInt) <;>
      cases hsent : s.pads.velocitySent pad <;>
      simp [hpad, scanVelocityPad, sampleVelocityPad, adcRead, henv, hval, hsent]
  · by_cases hval : 0 < i16 (s.pads.initValSe pad - adcResult .singleEnded raw) <;>
      simp [hpad, scanPressurePad, adcRead, henv, hval, ← sub_eq_add_neg]

/-- The pad needs a deflection 100 counts larger in the state `s` than in the state `t`. -/
def Harder (s t : Firmware) (pad : Nat) : Prop := ∀ d, s.Detects pad (d + 100) ↔ t.Detects pad d

/-- The same offsets without standby: what is left of them when a tick has ended it. -/
def Firmware.standbyEnded (s : Firmware) : Firmware := { s with standby := s.standby.tick true }

/-- A threshold 100 counts higher makes a velocity pad harder to press, and no other. -/
theorem harder_iff {s t : Firmware} {pad : Nat}
    (hraised : s.standby.initVal pad = t.standby.initVal pad + 100)
    (hse : s.pads.initValSe = t.pads.initValSe) : Harder s t pad ↔ pad < 40 := by
  unfold Harder Firmware.Detects
  rw [hraised, hse]
  constructor
  · intro h
    by_contra hpad
    -- half way up, a single-ended pad is pressed in standby and not without
    have hhalf := h (-50 - t.pads.initValSe pad)
    simp only [hpad, if_false, i16] at hhalf
    omega
  · intro h d
    have hword : (t.standby.initVal pad + 100).toInt % 65536
        = ((t.standby.initVal pad).toInt + 100) % 65536 := by
      rw [BitVec.toInt_add]
      exact Int.bmod_emod
    simp only [h, if_true, i16]
    omega

/-- **Standby makes the velocity pads harder to press and no others**, and its end undoes that. -/
theorem harder_standbyEnded_iff {s : Firmware} (hraised : s.standby.thresholdsRaised = true)
    {pad : Nat} (hpad : pad < numPads) : Harder s s.standbyEnded pad ↔ pad < 40 := by
  refine harder_iff (s := s) (t := s.standbyEnded) ?_ rfl
  have htick := s.standby.initVal_tick true hpad
  have hended : (s.standby.tick true).thresholdsRaised = false := by rw [Standby.raised_tick]; rfl
  rw [Standby.raised, Standby.raised, hraised, hended] at htick
  show s.standby.initVal pad = (s.standby.tick true).initVal pad + 100
  rw [htick, if_pos rfl, if_neg Bool.false_ne_true]
  simp only [BitVec.ofNat_eq_ofNat, BitVec.add_zero, BitVec.sub_add_cancel]

/-! ## The property -/

theorem bootedAtRest_state : bootedAtRest.2.pads.anyPlayed = false ∧
    bootedAtRest.2.usb.deviceState ≠ .configured ∧
    bootedAtRest.2.usb.bank .midiOut = none ∧ bootedAtRest.2.standby.count = 0 ∧
    bootedAtRest.2.cpu.iflag = true := by
  decide +kernel

/-- Standby begins, at the tick 20001 after the start. -/
def inStandbyAtRest : Firmware := afterIrq avr atRest (idle 20000 bootedAtRest.2)

theorem inStandbyAtRest_pad : inStandbyAtRest.standby.thresholdsRaised = true ∧
    inStandbyAtRest.pads.initValSe 40 = 560 := by
  decide +kernel

theorem bootedAtRest_mainRun :
    MainRun (startUp.taken avr (startUp.steady atRest powerOn) powerOn) 0 bootedAtRest.2 :=
  .start _ rfl (run_steady_mk avr atRest (fun _ => rfl) startUp powerOn)

/-- The tick after that one finds the thresholds raised. -/
theorem ticks_inStandbyAtRest : ∃ l, Ticks l ∧ inStandbyAtRest ∈ l := by
  obtain ⟨hplayed, hstate, hbank, hcount, hflag⟩ := bootedAtRest_state
  have hidle (n : Nat) (hn : n + 1 ≤ 20000) :
      afterIrqs avr atRest (n + 1) bootedAtRest.2 = idle (n + 1) bootedAtRest.2 :=
    afterIrqs_idle (fun _ => rfl) hplayed hstate hbank (by omega)
  have hraised : afterIrqs avr atRest (20000 + 1) bootedAtRest.2 = inStandbyAtRest := by
    rw [afterIrqs_succ, hidle 19999 (by omega)]
    rfl
  refine ⟨_, .pad bootedAtRest_mainRun (irqs avr atRest 20002 (fun _ => .stop) bootedAtRest.2)
    (by decide), List.mem_append_right _ ?_⟩
  have hmem := mem_taken_irqs avr atRest (fun _ => rfl) (n := 20002) (fun _ => .stop) (scanPad 0)
    bootedAtRest.2 (fun k hk => ?_) (k := 20001) (by omega)
  · rwa [hraised] at hmem
  rcases Nat.eq_or_lt_of_le (Nat.le_of_lt_succ hk) with rfl | hlt
  · rw [hraised]
    rfl
  · cases k with
    | zero => rw [afterIrqs, avr_enabled, hflag]
    | succ k =>
      rw [hidle k (by omega)]
      rfl

end SphereWare
