import SphereWare.Interrupt.Position
import SphereWare.Spec.LedLine
import SphereWare.Spec.MainFrame

/-!
# The whole program

Main and the timer interrupt share the LED. Main sends colours at the start and at the ends of its
passes and leaves the LED alone in between (`scanPad_board`). The timer interrupt sends colours in
`LED_Set_Status` and `LED_Set_Pressure_Status` and otherwise leaves alone all that sending a colour
depends on: `timerHandler_of` takes it apart accordingly. MIDI, USB and what the host has set are
the timer interrupt's alone (`mainProgram_host`).
-/

namespace SphereWare

open Interrupt Prog

/-! ## Main as one program -/

/-- One pass of the main loop. -/
def pass : Code Unit := do
  forEach (List.range numPads) fun i => do
    let _ ← scanPad i
    pure ()
  endPass

/-- `n` passes. -/
def passes : Nat → Code Unit
  | 0 => pure ()
  | n + 1 => do
    passes n
    pass

/-- `main` up to the end of its `n`th pass. -/
def mainProgram (n : Nat) : Code Unit := do
  let _ ← startUp
  passes n

/-! ## What main leaves alone -/

/-- The LED with the pins of its line, MIDI and USB. -/
def boardView (s : Firmware) := (s.led, s.ports.clock, s.ports.latch, s.midi, s.usb)

theorem padsAct_board (f : Pads → Pads) : (padsAct f).Keeps (SameOn boardView) :=
  Keeps.act fun _ => rfl

theorem read_board {α : Type} (f : Firmware → α) : (read f : Code α).Keeps (SameOn boardView) :=
  Keeps.atomic fun _ _ => rfl

theorem buttonsAndDials_board (pad : Nat) (base : Option Nat) :
    (buttonsAndDials pad base).Keeps (SameOn boardView) := Keeps.atomic fun _ _ => rfl

theorem muxSelect_board (channel : Nat) : (muxSelect channel).Keeps (SameOn boardView) :=
  Keeps.act fun _ => rfl

theorem boardView_calibrates : Calibrates (SameOn boardView) where
  iflag _ _ := rfl
  mux _ _ := rfl
  r2r _ _ := rfl
  adc _ _ := rfl
  order _ _ _ := rfl
  threshold _ _ := rfl
  filtered _ _ := rfl
  thresholdSe _ _ := rfl

theorem calibrate_board : calibrate.Keeps (SameOn boardView) :=
  boardView_calibrates.calibrate_keeps
    (calibrateReset_keeps (genericHIDClear_keeps fun _ _ _ _ => rfl) fun _ _ => rfl)

theorem keeps_boardView {α : Type} {p : Code α} (h : p.Keeps (SameOn workView)) :
    p.Keeps (SameOn boardView) := by
  refine Keeps.mono (fun s t hst => ?_) h
  simp only [SameOn, workView, Prod.mk.injEq] at hst
  obtain ⟨-, -, hled, hportC, hportE, -, -, -, hmidi, husb⟩ := hst
  simp only [SameOn, boardView, Ports.clock, Ports.latch, hled, hportC, hportE, hmidi, husb]

theorem boardView_worked : Worked fun p => p.Keeps (SameOn boardView) where
  keeps := keeps_boardView
  bind := Keeps.bind
  critical hbody := critical_keeps (fun _ _ _ => rfl) (keeps_boardView hbody)
  delay := delay_keeps fun _ _ => rfl

/-- **An iteration of main leaves the LED, MIDI and USB alone.** -/
theorem scanPad_board (i : Nat) : (scanPad i).Keeps (SameOn boardView) := by
  refine boardView_worked.of_scanPad (critical_keeps (fun _ _ _ => rfl) ?_) i
  exact Keeps.bind (Keeps.act fun _ => rfl) fun _ => calibrate_board

theorem iterations_board : (forEach (List.range numPads) fun i =>
    (scanPad i).bind fun _ => ret () : Code Unit).Keeps (SameOn boardView) :=
  Keeps.forEach fun i _ => Keeps.bind (scanPad_board i) fun _ => Keeps.ret _

theorem startUp_eq : ∃ rest : Code (Nat → Nat), rest.Keeps (SameOn boardView) ∧
    startUp = (ledSetColour 0 0 1023).bind fun _ => rest := by
  refine ⟨_, Keeps.bind (muxSelect_board 5) fun _ => ?_, rfl⟩
  refine Keeps.bind (buttonsAndDials_board 5 none) fun _ =>
    Keeps.bind calibrate_board fun codes => ?_
  exact Keeps.bind (Keeps.act fun _ => rfl) fun _ => Keeps.ret _

/-! ### Its colour -/

/-- The LED as main's other work leaves it. -/
def lampView (s : Firmware) := (lineView s, s.led.latched, s.led.mode, s.led.status)

theorem keeps_lampView {α : Type} {p : Code α} (h : p.Keeps (SameOn boardView)) :
    p.Keeps (SameOn lampView) := by
  refine Keeps.mono (fun s t hst => ?_) h
  simp only [SameOn, boardView, Prod.mk.injEq] at hst
  obtain ⟨hled, hclock, hlatch, -⟩ := hst
  simp only [SameOn, lampView, lineView, hled, hclock, hlatch]

theorem read_lamp {α : Type} (f : Firmware → α) : (read f : Code α).Keeps (SameOn lampView) :=
  keeps_lampView (read_board f)

theorem padsAct_lamp (f : Pads → Pads) : (padsAct f).Keeps (SameOn lampView) :=
  keeps_lampView (padsAct_board f)

theorem iterations_lamp : (forEach (List.range numPads) fun i =>
    (scanPad i).bind fun _ => ret () : Code Unit).Keeps (SameOn lampView) :=
  keeps_lampView iterations_board

/-- The colour given to `LED_Set_Colour` in the normal mode. -/
def colourToSet : Code Colour := do
  let old ← input fun i => i.stack
  let c ← baseColour old
  clockFade c

theorem normalColour_eq : normalColour = (read fun s => s.led.status).bind fun status =>
    when (status ≠ 0) (colourToSet.bind fun c => ledSetColour c.1 c.2.1 c.2.2) := by
  simp only [normalColour, colourToSet, bind_eq, bind_assoc]

/-- Choosing a colour leaves the LED alone. -/
theorem baseColour_lamp (old : Colour) : (baseColour old).Keeps (SameOn lampView) := by
  refine Keeps.mono (fun s t h => ?_) (baseColour_keeps old)
  have hdraw : lampView (drawView t) = lampView (drawView s) := congrArg lampView h
  exact hdraw

theorem lampView_nextFadeStep (s : Firmware) (n : UInt8) :
    SameOn lampView s { s with led := nextFadeStep s.led n } := by
  unfold nextFadeStep
  dsimp only
  repeat' split
  all_goals rfl

theorem clockFade_lamp (c : Colour) : (clockFade c).Keeps (SameOn lampView) := by
  iterate 2 refine Keeps.bind (read_lamp _) fun _ => ?_
  refine Keeps.ite (critical_keeps (fun _ _ _ => rfl) ?_) (Keeps.ret _)
  refine Keeps.bind (read_lamp _) fun step => ?_
  exact Keeps.bind (Keeps.act fun s => lampView_nextFadeStep s _) fun _ => Keeps.ret _

theorem colourToSet_lamp : colourToSet.Keeps (SameOn lampView) := by
  refine Keeps.bind (Keeps.atomic fun _ _ => rfl) fun old => ?_
  exact Keeps.bind (baseColour_lamp old) clockFade_lamp

/-! ### The host's part -/

/-- What the host has set, MIDI and USB. -/
def hostView (s : Firmware) :=
  (s.midi, s.usb, s.led.mode, s.led.status, s.led.pressureStatus, s.led.clockStatus,
    s.led.clockRunning, s.led.tempo, s.led.colourValues, s.led.staticColourValues)

theorem keeps_hostView {α : Type} {p : Code α} (h : p.Keeps (SameOn boardView)) :
    p.Keeps (SameOn hostView) := by
  refine Keeps.mono (fun s t hst => ?_) h
  simp only [SameOn, boardView, Prod.mk.injEq] at hst
  obtain ⟨hled, -, -, hmidi, husb⟩ := hst
  simp only [SameOn, hostView, hled, hmidi, husb]

theorem read_host {α : Type} (f : Firmware → α) : (read f : Code α).Keeps (SameOn hostView) :=
  keeps_hostView (read_board f)

theorem ledSetColour_host (r g b : Nat) : (ledSetColour r g b).Keeps (SameOn hostView) := by
  refine Keeps.mono (fun s t hst => ?_) (ledSetColour_keeps_settings r g b)
  simp only [SameOn, colourView, ledView, Led.settings, Prod.mk.injEq] at hst
  obtain ⟨⟨-, -, -, hmidi, husb, -⟩, h₁, h₂, h₃, h₄, h₅, h₆, -, h₈, h₉⟩ := hst
  simp only [SameOn, hostView, hmidi, husb, h₁, h₂, h₃, h₄, h₅, h₆, h₈, h₉]

/-- The step of the fade is main's own. -/
theorem hostView_nextFadeStep (s : Firmware) (n : UInt8) :
    SameOn hostView s { s with led := nextFadeStep s.led n } := by
  unfold nextFadeStep
  dsimp only
  repeat' split
  all_goals rfl

theorem colourToSet_host : colourToSet.Keeps (SameOn hostView) := by
  refine Keeps.bind (Keeps.atomic fun _ _ => rfl) fun old => Keeps.bind ?_ fun c => ?_
  · refine Keeps.mono (fun s t h => ?_) (baseColour_keeps old)
    exact show hostView (drawView t) = hostView (drawView s) from congrArg hostView h
  · iterate 2 refine Keeps.bind (read_host _) fun _ => ?_
    refine Keeps.ite (critical_keeps (fun _ _ _ => rfl) ?_) (Keeps.ret _)
    refine Keeps.bind (read_host _) fun step => ?_
    exact Keeps.bind (Keeps.act fun s => hostView_nextFadeStep s _) fun _ => Keeps.ret _

theorem ledColour_host : ledColour.Keeps (SameOn hostView) := by
  refine Keeps.bind (read_host _) fun mode => Keeps.ite ?_ (Keeps.bind (read_host _) fun mode => ?_)
  · rw [normalColour_eq]
    refine Keeps.bind (read_host _) fun status => Keeps.when ?_
    exact Keeps.bind colourToSet_host fun c => ledSetColour_host _ _ _
  · refine Keeps.when (critical_keeps (fun _ _ _ => rfl) ?_)
    exact Keeps.bind (read_host _) fun c => ledSetColour_host _ _ _

theorem pass_host : pass.Keeps (SameOn hostView) := by
  refine Keeps.bind (keeps_hostView iterations_board) fun _ => Keeps.bind ledColour_host fun _ => ?_
  exact Keeps.bind (keeps_hostView (padsAct_board _)) fun _ => keeps_hostView (padsAct_board _)

theorem startUp_host : startUp.Keeps (SameOn hostView) := by
  obtain ⟨rest, hrest, hstart⟩ := startUp_eq
  rw [hstart]
  exact Keeps.bind (ledSetColour_host _ _ _) fun _ => keeps_hostView hrest

/-- **Main leaves to the host what is the host's.** -/
theorem mainProgram_host (n : Nat) : (mainProgram n).Keeps (SameOn hostView) := by
  refine Keeps.bind startUp_host fun _ => ?_
  induction n with
  | zero => exact Keeps.ret _
  | succ n ih => exact Keeps.bind ih fun _ => pass_host

theorem mainProgram_usb (n : Nat) (env : Firmware → Input) (s : Firmware) :
    ((mainProgram n).exec env s).2.usb = s.usb := by
  have h := (mainProgram_host n).exec (SameOn.refl _) (fun _ _ _ => SameOn.trans) env s
  exact congrArg (fun v => v.2.1) h

/-- Main comes out of its start with interrupts on. -/
theorem startUp_enabled (env : Firmware → Input) (s : Firmware) :
    avr.enabled ((mainProgram 0).exec env s).2 = true := by
  simp only [mainProgram, startUp, passes, bind_eq, pure_eq, exec_bind, exec_ret, sei, exec_act,
    avr_enabled]

/-! ## Invariants of main -/

section Main

variable {K : Contract Firmware Input} {Φ : Firmware → Prop} (hK : K.Mono)
  (hlamp : ∀ {α : Type} {p : Code α}, p.Keeps (SameOn lampView) → p.Carries avr K Φ)
  (hcolour : ledColour.Carries avr K Φ)

include hK hlamp hcolour

theorem pass_carries : pass.Carries avr K Φ := by
  refine .bind hK (hlamp iterations_lamp) fun _ => .bind hK hcolour fun _ => ?_
  exact .bind hK (hlamp (padsAct_lamp _)) fun _ => hlamp (padsAct_lamp _)

theorem passes_carries (n : Nat) : (passes n).Carries avr K Φ := by
  induction n with
  | zero => exact hlamp (Keeps.ret ())
  | succ n ih => exact .bind hK ih fun _ => pass_carries hK hlamp hcolour

/-- Main sends its first colour and then passes on what that has left. -/
theorem mainProgram_pwp {s : Firmware}
    (h : (ledSetColour 0 0 1023).pwp avr K (fun _ => Φ) s) (n : Nat) :
    (mainProgram n).pwp avr K (fun _ => Φ) s := by
  obtain ⟨rest, hrest, hstart⟩ := startUp_eq
  have hpasses (codes : Nat → Nat) := passes_carries hK hlamp hcolour n
  refine pwp_bind hK (pwp_mono (fun codes t ht => hpasses codes t ht) ?_)
  rw [hstart]
  exact pwp_bind hK (pwp_mono (fun _ t ht => hlamp (keeps_lampView hrest) t ht) h)

end Main

/-! ## The timer interrupt -/

/-- All that sending a colour depends on, and the status the LED has. -/
def panelView (s : Firmware) := (wireView s, s.led.latched, s.led.status, s.cpu.iflag)

/-- A property of programs that the whole handler has if its parts have it. -/
structure Composed (R : ∀ {α : Type}, Code α → Prop) : Prop where
  keeps : ∀ {α : Type} {p : Code α}, p.Keeps (SameOn panelView) → R p
  bind : ∀ {α β : Type} {p : Code α} {q : α → Code β}, R p → (∀ a, R (q a)) → R (p.bind q)
  status : ∀ v, R (ledSetStatus v)
  pressureStatus : ∀ v, R (ledSetPressureStatus v)

namespace Composed

variable {R : ∀ {α : Type}, Code α → Prop} (h : Composed R)

include h

theorem ret {α : Type} (a : α) : R (Prog.ret a : Code α) := h.keeps (Keeps.ret a)

omit h in
theorem ite {α : Type} {c : Prop} [Decidable c] {p q : Code α} (hp : R p) (hq : R q) :
    R (if c then p else q) := by
  split
  · exact hp
  · exact hq

theorem when {c : Prop} [Decidable c] {p : Code Unit} (hp : R p) : R (Prog.when c p) :=
  ite hp (h.ret ())

theorem forEach {β : Type} {body : β → Code Unit} (hbody : ∀ b, R (body b)) (l : List β) :
    R (Prog.forEach l body) := by
  induction l with
  | nil => exact h.ret ()
  | cons b bs ih => exact h.bind (hbody b) fun _ => ih

end Composed

theorem readData_panel (d : RxBuffer) (i : Nat) : (readData d i).Keeps (SameOn panelView) :=
  Keeps.atomic fun _ _ => rfl

theorem alphaLiveClock_panel (d : RxBuffer) (m : Nat) :
    (alphaLiveClock d m).Keeps (SameOn panelView) := by
  refine Keeps.bind (Keeps.atomic fun _ _ => rfl) fun _ => ?_
  refine Keeps.when (Keeps.bind (readData_panel _ _) fun start => ?_)
  refine Keeps.bind (Keeps.act fun s => ?_) fun _ => ?_
  · dsimp only
    split <;> rfl
  refine Keeps.bind (readData_panel _ _) fun low => Keeps.bind (readData_panel _ _) fun high => ?_
  exact Keeps.act fun _ => rfl

theorem midiSend_panel (b1 b2 b3 : UInt8) :
    (midiSendUsbMidi b1 b2 b3).Keeps (SameOn panelView) :=
  midiSendUsbMidi_of (fun _ _ _ _ => rfl) b1 b2 b3

theorem midiProcessUsbMidi_panel (d : RxBuffer) :
    (midiProcessUsbMidi d).Keeps (SameOn panelView) := by
  iterate 3 refine Keeps.bind (readData_panel _ _) fun _ => ?_
  refine Keeps.bind (Keeps.act fun _ => rfl) fun _ => Keeps.bind (Keeps.act fun s => ?_) fun _ => ?_
  · unfold midiClock
    repeat' split
    all_goals rfl
  · refine Keeps.act fun s => ?_
    unfold midiLedControl
    repeat' split
    all_goals rfl

theorem midiRecieveUsbMidi_panel : midiRecieveUsbMidi.Keeps (SameOn panelView) := by
  refine Keeps.bind (Keeps.act fun _ => rfl) fun _ => ?_
  refine Keeps.bind (Keeps.atomic fun _ _ => rfl) fun _ => ?_
  refine Keeps.when (Keeps.bind (Keeps.atomic fun _ _ => rfl) fun d => ?_)
  refine Keeps.bind (midiProcessUsbMidi_panel _) fun _ => ?_
  exact Keeps.bind (Keeps.atomic fun _ _ => rfl) fun _ => Keeps.when (Keeps.act fun _ => rfl)

theorem genericHIDTaskIn_panel : genericHIDTaskIn.Keeps (SameOn panelView) := by
  refine Keeps.bind (Keeps.act fun _ => rfl) fun _ => ?_
  refine Keeps.bind (Keeps.atomic fun _ _ => rfl) fun _ => ?_
  refine Keeps.when (Keeps.bind (Keeps.atomic fun _ _ => rfl) fun _ => ?_)
  exact Keeps.bind (Keeps.act fun _ => rfl) fun _ => Keeps.act fun _ => rfl

theorem usbUSBTask_panel : usbUSBTask.Keeps (SameOn panelView) := by
  unfold usbUSBTask
  refine Keeps.atomic fun i s => ?_
  dsimp only
  split <;> rfl

section Handler

variable {R : ∀ {α : Type}, Code α → Prop} (h : Composed R)

include h

theorem ledSetting_of (d : RxBuffer) (m : Nat) : R (ledSetting d m) := by
  refine h.bind (h.keeps (readData_panel _ _)) fun setting => ?_
  refine Composed.ite (h.bind (h.keeps (readData_panel _ _)) fun v => h.status v) ?_
  refine Composed.ite (h.bind (h.keeps (readData_panel _ _)) fun v => h.pressureStatus v) ?_
  refine h.keeps ?_
  refine Keeps.ite (Keeps.bind (readData_panel _ _) fun v => Keeps.act fun _ => rfl) ?_
  exact Keeps.when (Keeps.bind (readData_panel _ _) fun v => Keeps.act fun _ => rfl)

theorem processMessage_of (d : RxBuffer) (i : Nat) : R (processMessage d i) := by
  refine h.bind (h.keeps (readData_panel _ _)) fun kind => ?_
  refine Composed.ite (h.keeps ?_) (Composed.ite ?_ (h.keeps ?_))
  · iterate 3 refine Keeps.bind (readData_panel _ _) fun _ => ?_
    exact Keeps.bind (midiSend_panel _ _ _) fun _ => Keeps.act fun _ => rfl
  · exact ledSetting_of h d _
  · refine Keeps.ite ?_ (Keeps.when (alphaLiveClock_panel _ _))
    iterate 3 refine Keeps.bind (readData_panel _ _) fun _ => ?_
    exact Keeps.act fun _ => rfl

theorem genericHIDProcessReport_of (d : RxBuffer) : R (genericHIDProcessReport d) := by
  refine h.bind (h.keeps (readData_panel _ _)) fun id => h.when ?_
  refine h.bind (h.keeps (readData_panel _ _)) fun n => ?_
  exact h.forEach (processMessage_of h d) _

theorem genericHIDTaskOut_of : R genericHIDTaskOut := by
  refine h.bind (h.keeps (Keeps.act fun _ => rfl)) fun _ => ?_
  refine h.bind (h.keeps (Keeps.atomic fun _ _ => rfl)) fun received => h.when ?_
  refine h.bind (h.keeps (Keeps.atomic fun _ _ => rfl)) fun allowed => ?_
  refine h.bind (h.when ?_) fun _ => h.keeps (Keeps.act fun _ => rfl)
  exact h.bind (h.keeps (Keeps.atomic fun _ _ => rfl)) fun d => genericHIDProcessReport_of h d

/-- **The timer interrupt touches the LED in two functions only.** -/
theorem timerHandler_of : R timerHandler := by
  refine h.bind (h.keeps (Keeps.act fun _ => rfl)) fun _ => ?_
  refine h.bind (h.keeps midiRecieveUsbMidi_panel) fun _ => ?_
  refine h.bind ?_ fun _ => h.keeps usbUSBTask_panel
  refine h.bind (h.keeps (Keeps.atomic fun _ _ => rfl)) fun state => h.when ?_
  exact h.bind (h.keeps genericHIDTaskIn_panel) fun _ => genericHIDTaskOut_of h

end Handler

end SphereWare
