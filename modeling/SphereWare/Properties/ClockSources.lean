import SphereWare.Firmware.Scan
import SphereWare.Interference.Purge

/-!
# The two clocks

The LED fades with the clock of AlphaLive or with a MIDI clock. The one that starts first owns the
fade until it stops, and the messages of the other are ignored.
-/

namespace SphereWare

open Interrupt Prog Interference

/-! ## Events -/

/-- The MIDI clock messages. -/
def midiRealTime (b : UInt8) : Bool := b = 248 ∨ b = 250 ∨ b = 251 ∨ b = 252

inductive ClockEvent where
  /-- A timing message from AlphaLive. -/
  | alphaLive (b1 b2 b3 : UInt8)
  /-- A MIDI message. -/
  | midi (b0 b1 b2 : UInt8)
  /-- Main dims the colour. -/
  | fade (c : Colour)
  /-- A message that switches the clock interaction on or off. -/
  | clockStatus (v : UInt8)

variable (env : Firmware → Input)

/-- What the code does with an event. -/
def clockStep (s : Firmware) : ClockEvent → Firmware
  | .alphaLive b1 b2 b3 => ((processMessage (.ofList [1, 1, 5, b1, b2, b3]) 0).exec env s).2
  | .midi b0 b1 b2 => ((midiProcessUsbMidi (.ofList [b0, b1, b2])).exec env s).2
  | .fade c => ((clockFade c).exec env s).2
  | .clockStatus v => ((processMessage (.ofList [1, 1, 1, 3, v, 0]) 0).exec env s).2

/-! ## What the clocks share -/

structure ClockView where
  status : UInt8
  running : UInt8
  fadeStep : Int
  tempo : Nat
  timingCount : UInt8
  deriving DecidableEq, Repr

def clockView (s : Firmware) : ClockView :=
  ⟨s.led.clockStatus, s.led.clockRunning, s.led.fadeStep, s.led.tempo, s.midi.clockTimingCount⟩

/-- What the four kinds of events do to it. -/
def ClockView.next (v : ClockView) : ClockEvent → ClockView
  | .alphaLive b1 b2 b3 =>
    if v.running = 2 then v
    else
      { v with
        running := if b1 = 0 then 0 else 1
        fadeStep := if b1 = 0 then v.fadeStep else 100
        tempo := b2.toNat + 256 * b3.toNat }
  | .midi b0 _ _ =>
    if v.running = 1 then v
    else if b0 = 250 ∨ b0 = 251 then { v with running := 2, fadeStep := 100, timingCount := 0 }
    else if b0 = 252 then { v with running := 0 }
    else if b0 = 248 then
      if 24 ≤ (v.timingCount + 1).toNat then { v with fadeStep := 100, timingCount := 0 }
      else { v with timingCount := v.timingCount + 1 }
    else v
  | .fade _ =>
    if v.status ≠ 0 ∧ v.running = 1 then
      { v with fadeStep := toI8 ((v.fadeStep : ℚ) - v.tempo / 25) }
    else if v.status ≠ 0 ∧ v.running = 2 then
      { v with fadeStep := toI8 (100 - v.timingCount.toNat * (9 / 2)) }
    else v
  | .clockStatus x => { v with status := x }

theorem clockView_midiLedControl (s : Firmware) (b0 b1 b2 : UInt8) :
    clockView { s with led := midiLedControl s.led b0 b1 b2 } = clockView s := by
  unfold midiLedControl
  repeat' split
  all_goals rfl

theorem clockView_midiClock (s : Firmware) (b0 b1 b2 : UInt8) :
    clockView (midiClock b0 s) = (clockView s).next (.midi b0 b1 b2) := by
  simp only [midiClock, ClockView.next, apply_ite clockView]
  rfl

theorem clockView_clockFade (s : Firmware) (c : Colour) :
    clockView ((clockFade c).exec env s).2 = (clockView s).next (.fade c) := by
  by_cases hstatus : s.led.clockStatus = 0
  · simp [clockFade, ClockView.next, clockView, hstatus]
  · by_cases hone : s.led.clockRunning = 1
    · simp [clockFade, critical, nextFadeStep, ClockView.next, clockView, hstatus, hone]
    · by_cases htwo : s.led.clockRunning = 2
      · simp [clockFade, critical, nextFadeStep, ClockView.next, clockView, hstatus, htwo]
      · by_cases hzero : s.led.clockRunning = 0 <;>
          simp [clockFade, critical, nextFadeStep, ClockView.next, clockView, hstatus, hone, htwo,
            hzero]

theorem clockView_alphaLive (s : Firmware) (b1 b2 b3 : UInt8) :
    clockView (clockStep env s (.alphaLive b1 b2 b3))
      = (clockView s).next (.alphaLive b1 b2 b3) := by
  by_cases htwo : s.led.clockRunning = 2
  · simp [clockStep, processMessage, alphaLiveClock, readData, ledAct, RxBuffer.get,
      RxBuffer.ofList, ClockView.next, clockView, htwo, when]
  · by_cases hstop : b1 = 0 <;>
      simp [clockStep, processMessage, alphaLiveClock, readData, ledAct, RxBuffer.get,
        RxBuffer.ofList, ClockView.next, clockView, htwo, hstop, when]

/-- The step lemma: the code does to the view what `ClockView.next` says. -/
theorem clockView_clockStep (s : Firmware) (e : ClockEvent) :
    clockView (clockStep env s e) = (clockView s).next e := by
  cases e with
  | alphaLive b1 b2 b3 => exact clockView_alphaLive env s b1 b2 b3
  | midi b0 b1 b2 =>
    simp only [clockStep, midiProcessUsbMidi, readData, ledAct, RxBuffer.get, RxBuffer.ofList,
      bind_eq, exec_bind, exec_atomic, exec_act]
    rw [clockView_midiLedControl, clockView_midiClock]
    rfl
  | fade c => exact clockView_clockFade env s c
  | clockStatus x =>
    simp [clockStep, processMessage, ledSetting, readData, ledAct, RxBuffer.get, RxBuffer.ofList,
      ClockView.next, clockView, when]

/-! ## Invariant -/

/-- The clock followed is none, AlphaLive or MIDI, and the count is one of the 24 of a beat. -/
structure ClockView.Valid (v : ClockView) : Prop where
  running : v.running = 0 ∨ v.running = 1 ∨ v.running = 2
  count : v.timingCount.toNat ≤ 23

theorem clockView_powerOn_valid : (clockView powerOn).Valid := ⟨.inl rfl, by decide⟩

theorem timingCount_next {n : UInt8} (h : ¬24 ≤ (n + 1).toNat) : (n + 1).toNat ≤ 23 := by omega

theorem ClockView.Valid.next {v : ClockView} (h : v.Valid) (e : ClockEvent) : (v.next e).Valid := by
  cases e with
  | alphaLive b1 b2 b3 =>
    rw [ClockView.next]
    split
    · exact h
    · refine ⟨?_, h.count⟩
      by_cases hstop : b1 = 0 <;> simp [hstop]
  | midi b0 b1 b2 =>
    rw [ClockView.next]
    split
    · exact h
    · split
      · exact ⟨.inr (.inr rfl), Nat.zero_le _⟩
      · split
        · exact ⟨.inl rfl, h.count⟩
        · split
          · split
            · exact ⟨h.running, Nat.zero_le _⟩
            · next hless => exact ⟨h.running, timingCount_next hless⟩
          · exact h
  | fade c =>
    rw [ClockView.next]
    split
    · exact ⟨h.running, h.count⟩
    · split
      · exact ⟨h.running, h.count⟩
      · exact h
  | clockStatus x => exact ⟨h.running, h.count⟩

/-- The clock followed does not change from one to the other at once. -/
theorem ClockView.next_running (v : ClockView) (e : ClockEvent) :
    ¬(v.running = 1 ∧ (v.next e).running = 2) ∧ ¬(v.running = 2 ∧ (v.next e).running = 1) := by
  refine ⟨fun ⟨hone, hnext⟩ => ?_, fun ⟨htwo, hnext⟩ => ?_⟩
  · revert hnext
    cases e with
    | alphaLive b1 b2 b3 => by_cases hstop : b1 = 0 <;> simp [ClockView.next, hone, hstop]
    | midi b0 b1 b2 => simp [ClockView.next, hone]
    | fade c => by_cases hstatus : v.status = 0 <;> simp [ClockView.next, hone, hstatus]
    | clockStatus x => simp [ClockView.next, hone]
  · revert hnext
    cases e with
    | alphaLive b1 b2 b3 => simp [ClockView.next, htwo]
    | midi b0 b1 b2 =>
      simp only [ClockView.next, htwo]
      repeat' split
      all_goals simp_all
    | fade c => by_cases hstatus : v.status = 0 <;> simp [ClockView.next, htwo, hstatus]
    | clockStatus x => simp [ClockView.next, htwo]

/-- The steps of the fade through a beat of the MIDI clock. -/
theorem toI8_beat {n : Nat} (hn : n ≤ 23) :
    -3 ≤ toI8 (100 - n * (9 / 2)) ∧ toI8 (100 - n * (9 / 2)) ≤ 100 := by
  have hbeat : ∀ n : Fin 24, -3 ≤ toI8 (100 - (n : Nat) * (9 / 2)) ∧
      toI8 (100 - (n : Nat) * (9 / 2)) ≤ 100 := by
    decide +kernel
  exact hbeat ⟨n, by omega⟩

/-! ## The messages of the other clock -/

/-- A message of a clock that the LED does not follow while it follows the other one. -/
def foreignClock (s : Firmware) : ClockEvent → Bool
  | .alphaLive _ _ _ => s.led.clockRunning = 2
  | .midi b0 _ _ => midiRealTime b0 ∧ s.led.clockRunning = 1
  | _ => false

theorem clockView_foreign (s : Firmware) (e : ClockEvent) (h : foreignClock s e = true) :
    clockView (clockStep env s e) = clockView s := by
  rw [clockView_clockStep]
  cases e with
  | alphaLive b1 b2 b3 => exact if_pos (by simpa [foreignClock, clockView] using h)
  | midi b0 b1 b2 =>
    simp only [foreignClock, decide_eq_true_eq] at h
    exact if_pos h.2
  | fade c => simp [foreignClock] at h
  | clockStatus x => simp [foreignClock] at h

theorem clockView_congr (s t : Firmware) (e : ClockEvent) (h : clockView s = clockView t) :
    clockView (clockStep env s e) = clockView (clockStep env t e) := by
  rw [clockView_clockStep, clockView_clockStep, h]

/--
**The clocks do not interfere.** After any sequence of events from the start the LED follows none
of the clocks, AlphaLive or MIDI, and the count is below 24. No event changes from one clock to the
other, a step of the fade with the MIDI clock lies between -3 and 100, and the messages of the clock
that is not followed leave no trace.
-/
theorem clocks_dont_interfere (es : List ClockEvent) :
    let s := run (clockStep env) powerOn es
    (s.led.clockRunning = 0 ∨ s.led.clockRunning = 1 ∨ s.led.clockRunning = 2) ∧
    s.midi.clockTimingCount.toNat ≤ 23 ∧
    (∀ e, ¬(s.led.clockRunning = 1 ∧ (clockStep env s e).led.clockRunning = 2) ∧
      ¬(s.led.clockRunning = 2 ∧ (clockStep env s e).led.clockRunning = 1)) ∧
    (∀ c, s.led.clockRunning = 2 → s.led.clockStatus ≠ 0 →
      -3 ≤ (clockStep env s (.fade c)).led.fadeStep ∧
        (clockStep env s (.fade c)).led.fadeStep ≤ 100) ∧
    clockView (run (clockStep env) powerOn (purge (clockStep env) foreignClock powerOn es))
      = clockView s := by
  intro s
  have hvalid : (clockView s).Valid := by
    refine run_invariant (I := fun s => (clockView s).Valid) (fun s e h => ?_)
      clockView_powerOn_valid es
    rw [clockView_clockStep]
    exact h.next e
  refine ⟨hvalid.running, hvalid.count, fun e => ?_, fun c htwo hstatus => ?_, ?_⟩
  · have hview := congrArg ClockView.running (clockView_clockStep env s e)
    have hnext := (clockView s).next_running e
    rwa [← hview] at hnext
  · have hview := congrArg ClockView.fadeStep (clockView_clockStep env s (.fade c))
    have hstep : ((clockView s).next (.fade c)).fadeStep
        = toI8 (100 - s.midi.clockTimingCount.toNat * (9 / 2)) := by
      simp [ClockView.next, clockView, htwo, hstatus]
    rw [show (clockStep env s (.fade c)).led.fadeStep = _ from hview, hstep]
    exact toI8_beat hvalid.count
  · exact obs_run_purge (clockView_foreign env) (clockView_congr env) rfl es

end SphereWare
