import SphereWare.Firmware.Scan

/-!
# What each function leaves alone

The functions of the timer interrupt change few of the variables. What none of their steps touches
is collected in views of the state, from `ledView` for the LED functions to `handlerView` for the
whole handler.
-/

namespace SphereWare

open Interrupt Prog

variable {R : Firmware → Firmware → Prop}

/-- The two steps around a critical section change nothing but what they are for. -/
theorem critical_keeps {α : Type}
    (hR : ∀ s i c, R s { s with cpu := { s.cpu with iflag := i, region := c } })
    {r : Region} {body : Code α} (h : body.Keeps R) : (critical r body).Keeps R := by
  refine Keeps.bind (Keeps.act fun s => hR s false (some r)) fun _ => Keeps.bind h fun _ => ?_
  exact Keeps.bind (Keeps.act fun s => hR s true none) fun _ => Keeps.ret _

/-- So do those of `Delay`. -/
theorem delay_keeps (hR : ∀ s b, R s { s with cpu := { s.cpu with iflag := b } }) (pad : Nat) :
    (delay pad).Keeps R := by
  refine Keeps.bind (Keeps.act fun s => hR s false) fun _ => ?_
  exact Keeps.bind (Keeps.atomic fun _ s => hR s s.cpu.iflag) fun _ => Keeps.act fun s => hR s true

/-! ## Sensors -/

section Sensors

variable (hR : ∀ s a, R s { s with adc := a })

include hR

/-- A conversion changes the settings of the converter and nothing else. -/
theorem adcRead_keeps (mode : AdcMode) (chan : AdcChannel) : (adcRead mode chan).Keeps R := by
  refine Keeps.bind (Keeps.act fun s => hR s _) fun _ => ?_
  exact Keeps.bind (Keeps.atomic fun _ s => hR s s.adc) fun _ => Keeps.ret _

theorem sampleVelocityPad_keeps (pad : Nat) : (sampleVelocityPad pad).Keeps R := by
  refine Keeps.bind (Keeps.atomic fun _ s => hR s s.adc) fun _ => ?_
  refine Keeps.bind (adcRead_keeps hR _ _) fun _ => ?_
  exact Keeps.bind (Keeps.atomic fun _ s => hR s s.adc) fun _ => Keeps.ret _

theorem peakLoop_keeps (pad n : Nat) (p : Int) : (peakLoop pad n p).Keeps R := by
  induction n generalizing p with
  | zero => exact Keeps.ret _
  | succ n ih =>
    refine Keeps.bind (sampleVelocityPad_keeps hR pad) fun _ => ?_
    exact Keeps.bind (ih _) fun _ => Keeps.ret _

end Sensors

/-! ## The LED -/

/-- What the LED functions leave alone: all but the LED, its pins and the interrupt flag. -/
def ledView (s : Firmware) :=
  (s.pads, s.standby, s.hid, s.midi, s.usb, s.adc, s.elite, s.ports.dac, s.ports.channel,
    s.cpu.region, s.cpu.isrDepth, s.cpu.loaded)

/-- What the host and main set and sending a colour leaves alone. -/
def Led.settings (l : Led) :=
  (l.mode, l.status, l.pressureStatus, l.clockStatus, l.clockRunning, l.tempo, l.fadeStep,
    l.colourValues, l.staticColourValues)

/-- What sending a colour leaves alone. -/
def colourView (s : Firmware) := (ledView s, s.led.settings)

/-- What showing a status on the LED leaves alone. -/
def statusView (s : Firmware) := (ledView s, s.led.clockRunning)

theorem settings_clockHigh (s : Firmware) : (clockHigh s).led.settings = s.led.settings := by
  show Led.settings (if s.ports.portC &&& 0x80 = 0 then _ else s.led) = s.led.settings
  split <;> rfl

theorem settings_latchHigh (s : Firmware) : (latchHigh s).led.settings = s.led.settings := by
  show Led.settings (if s.ports.portE &&& 0x40 = 0 then _ else s.led) = s.led.settings
  split <;> rfl

theorem settings_loadSetting (l : Led) : l.loadSetting.settings = l.settings := by
  unfold Led.loadSetting
  split <;> rfl

theorem ledSendBit_keeps (j : Nat) : (ledSendBit j).Keeps (SameOn colourView) := by
  refine Keeps.bind (Keeps.act fun _ => rfl) fun _ => ?_
  refine Keeps.bind (Keeps.act fun s => ?_) fun _ => Keeps.act fun _ => rfl
  exact congrArg (Prod.mk (ledView s)) (settings_clockHigh s)

theorem ledSendPacket_keeps : ledSendPacket.Keeps (SameOn colourView) := by
  unfold ledSendPacket cli sei ledAct
  refine Keeps.bind (Keeps.act fun _ => rfl) fun _ => ?_
  refine Keeps.bind (Keeps.act fun s => ?_) fun _ => ?_
  · exact congrArg (Prod.mk (ledView s)) (settings_loadSetting s.led)
  · iterate 5 refine Keeps.bind (Keeps.act fun _ => rfl) fun _ => ?_
    exact Keeps.forEach fun j _ => ledSendBit_keeps j

theorem ledLatch_keeps : ledLatch.Keeps (SameOn colourView) := by
  unfold ledLatch
  refine Keeps.bind (Keeps.act fun s => ?_) fun _ => ?_
  · exact congrArg (Prod.mk (ledView s)) (settings_latchHigh s)
  · iterate 2 refine Keeps.bind (Keeps.act fun _ => rfl) fun _ => ?_
    exact Keeps.act fun _ => rfl

theorem ledSetColour_keeps_settings (r g b : Nat) :
    (ledSetColour r g b).Keeps (SameOn colourView) := by
  unfold ledSetColour ledAct
  iterate 4 refine Keeps.bind (Keeps.act fun _ => rfl) fun _ => ?_
  refine Keeps.bind ledSendPacket_keeps fun _ => ?_
  refine Keeps.bind ledLatch_keeps fun _ => ?_
  refine Keeps.bind (Keeps.act fun _ => rfl) fun _ => ?_
  exact Keeps.bind ledSendPacket_keeps fun _ => ledLatch_keeps

theorem ledSetColour_keeps (r g b : Nat) : (ledSetColour r g b).Keeps (SameOn ledView) :=
  Keeps.mono (fun _ _ => congrArg Prod.fst) (ledSetColour_keeps_settings r g b)

theorem statusView_of_colourView {s t : Firmware} (h : SameOn colourView s t) :
    SameOn statusView s t := by
  simp only [SameOn, colourView, Led.settings, Prod.mk.injEq] at h
  obtain ⟨hview, -, -, -, -, hrunning, -⟩ := h
  rw [SameOn, statusView, statusView, hview, hrunning]

theorem ledSetColour_keeps_status (r g b : Nat) :
    (ledSetColour r g b).Keeps (SameOn statusView) :=
  Keeps.mono (fun _ _ => statusView_of_colourView) (ledSetColour_keeps_settings r g b)

theorem ledSetStatus_keeps (v : UInt8) : (ledSetStatus v).Keeps (SameOn statusView) := by
  refine Keeps.bind (Keeps.act fun _ => rfl) fun _ => ?_
  refine Keeps.bind (Keeps.atomic fun _ _ => rfl) fun _ => ?_
  refine Keeps.when (Keeps.ite (ledSetColour_keeps_status _ _ _) ?_)
  exact Keeps.bind (Keeps.atomic fun _ _ => rfl) fun _ => ledSetColour_keeps_status _ _ _

theorem ledSetPressureStatus_keeps (v : UInt8) :
    (ledSetPressureStatus v).Keeps (SameOn statusView) := by
  refine Keeps.bind (Keeps.act fun _ => rfl) fun _ => ?_
  refine Keeps.bind (Keeps.atomic fun _ _ => rfl) fun _ => ?_
  refine Keeps.when (Keeps.bind (Keeps.atomic fun _ _ => rfl) fun _ => ?_)
  refine Keeps.when (Keeps.bind (Keeps.atomic fun _ _ => rfl) fun _ => ?_)
  exact ledSetColour_keeps_status _ _ _

/-! ## HID OUT reports -/

/-- What a message other than a MIDI message leaves alone. -/
def messageView (s : Firmware) :=
  (s.pads, s.standby, s.hid, s.midi, s.usb.deviceState, s.usb.selected, s.usb.bank, s.usb.ops,
    s.adc, s.elite, s.ports.dac, s.ports.channel, s.cpu.region, s.cpu.isrDepth, s.cpu.loaded)

theorem messageView_of_statusView {s t : Firmware} (h : SameOn statusView s t) :
    SameOn messageView s t := by
  simp only [SameOn, statusView, ledView, Prod.mk.injEq] at h
  obtain ⟨⟨h₁, h₂, h₃, h₄, h₅, h₆, h₇, h₈, h₉, h₁₀, h₁₁, h₁₂⟩, -⟩ := h
  simp only [SameOn, messageView, h₁, h₂, h₃, h₄, h₅, h₆, h₇, h₈, h₉, h₁₀, h₁₁, h₁₂]

theorem readData_keeps (d : RxBuffer) (i : Nat) : (readData d i).Keeps (SameOn messageView) :=
  Keeps.atomic fun _ _ => rfl

theorem ledAct_keeps (f : Led → Led) : (ledAct f).Keeps (SameOn messageView) :=
  Keeps.act fun _ => rfl

theorem ledSetting_keeps (d : RxBuffer) (m : Nat) :
    (ledSetting d m).Keeps (SameOn messageView) := by
  refine Keeps.bind (readData_keeps _ _) fun _ => ?_
  refine Keeps.ite (Keeps.bind (readData_keeps _ _) fun v => ?_) ?_
  · exact Keeps.mono (fun _ _ => messageView_of_statusView) (ledSetStatus_keeps v)
  refine Keeps.ite (Keeps.bind (readData_keeps _ _) fun v => ?_) ?_
  · exact Keeps.mono (fun _ _ => messageView_of_statusView) (ledSetPressureStatus_keeps v)
  refine Keeps.ite (Keeps.bind (readData_keeps _ _) fun _ => ledAct_keeps _) ?_
  exact Keeps.when (Keeps.bind (readData_keeps _ _) fun _ => ledAct_keeps _)

theorem alphaLiveClock_keeps (d : RxBuffer) (m : Nat) :
    (alphaLiveClock d m).Keeps (SameOn messageView) := by
  refine Keeps.bind (Keeps.atomic fun _ _ => rfl) fun _ => ?_
  refine Keeps.when (Keeps.bind (readData_keeps _ _) fun _ => ?_)
  refine Keeps.bind (ledAct_keeps _) fun _ => ?_
  refine Keeps.bind (readData_keeps _ _) fun _ => ?_
  exact Keeps.bind (readData_keeps _ _) fun _ => ledAct_keeps _

/-- The messages of every type but 0. -/
theorem otherMessage_keeps (d : RxBuffer) (m : Nat) (kind : UInt8) :
    (if kind = 1 then ledSetting d m
      else if 2 ≤ kind ∧ kind ≤ 4 then do
        let red ← readData d (m + 1)
        let green ← readData d (m + 2)
        let blue ← readData d (m + 3)
        ledAct fun l => l.setColourValues (kind - 2).toNat red green blue
      else when (kind = 5) (alphaLiveClock d m) : Code Unit).Keeps (SameOn messageView) := by
  refine Keeps.ite (ledSetting_keeps _ _) (Keeps.ite ?_ (Keeps.when (alphaLiveClock_keeps _ _)))
  iterate 3 refine Keeps.bind (readData_keeps _ _) fun _ => ?_
  exact ledAct_keeps _

/-- What the handling of a HID OUT report leaves alone. -/
def reportView (s : Firmware) :=
  (s.pads, s.standby, s.hid, s.adc, s.elite, s.usb.deviceState, s.ports.dac, s.ports.channel,
    s.cpu.region, s.cpu.isrDepth, s.cpu.loaded)

theorem reportView_of_messageView {s t : Firmware} (h : SameOn messageView s t) :
    SameOn reportView s t := by
  simp only [SameOn, messageView, Prod.mk.injEq] at h
  obtain ⟨h₁, h₂, h₃, -, h₅, -, -, -, h₉, h₁₀, h₁₁, h₁₂, h₁₃, h₁₄, h₁₅⟩ := h
  simp only [SameOn, reportView, h₁, h₂, h₃, h₅, h₉, h₁₀, h₁₁, h₁₂, h₁₃, h₁₄, h₁₅]

theorem keeps_reportView {α : Type} {p : Code α} (h : p.Keeps (SameOn messageView)) :
    p.Keeps (SameOn reportView) := Keeps.mono (fun _ _ => reportView_of_messageView) h

/-- Of the USB controller sending a message changes the selection, the banks and the operations. -/
theorem midiSendUsbMidi_of {R : Firmware → Firmware → Prop}
    (h : ∀ s u, u.deviceState = s.usb.deviceState → u.reads = s.usb.reads →
      R s { s with usb := u }) (b1 b2 b3 : UInt8) : (midiSendUsbMidi b1 b2 b3).Keeps R := by
  have hread {α : Type} (f : Input → Firmware → α) :
      (atomic fun i s => (f i s, s) : Code α).Keeps R :=
    Keeps.atomic fun _ s => h s s.usb rfl rfl
  refine Keeps.bind (hread _) fun _ => Keeps.when (Keeps.bind (Keeps.act fun s => h s _ rfl rfl)
    fun _ => Keeps.when (Keeps.bind (hread _) fun _ => ?_))
  refine Keeps.bind (Keeps.when (Keeps.act fun s => h s _ rfl rfl)) fun _ => ?_
  exact Keeps.act fun s => h s _ rfl rfl

theorem midiSendUsbMidi_keeps (b1 b2 b3 : UInt8) :
    (midiSendUsbMidi b1 b2 b3).Keeps (SameOn reportView) :=
  midiSendUsbMidi_of (fun s u hstate _ => by simp only [SameOn, reportView, hstate]) b1 b2 b3

theorem processMessage_keeps (d : RxBuffer) (i : Nat) :
    (processMessage d i).Keeps (SameOn reportView) := by
  refine Keeps.bind (keeps_reportView (readData_keeps _ _)) fun kind => ?_
  refine Keeps.ite ?_ (keeps_reportView (otherMessage_keeps _ _ _))
  iterate 3 refine Keeps.bind (keeps_reportView (readData_keeps _ _)) fun _ => ?_
  exact Keeps.bind (midiSendUsbMidi_keeps _ _ _) fun _ => Keeps.act fun _ => rfl

theorem genericHIDProcessReport_keeps (d : RxBuffer) :
    (genericHIDProcessReport d).Keeps (SameOn reportView) := by
  refine Keeps.bind (keeps_reportView (readData_keeps _ _)) fun _ => ?_
  refine Keeps.when (Keeps.bind (keeps_reportView (readData_keeps _ _)) fun _ => ?_)
  exact Keeps.forEach fun i _ => processMessage_keeps d i

/-- **The OUT half of the HID task changes no variable of the pads, the report or the scan.** -/
theorem genericHIDTaskOut_keeps : genericHIDTaskOut.Keeps (SameOn reportView) := by
  refine Keeps.bind (Keeps.act fun _ => rfl) fun _ => ?_
  refine Keeps.bind (Keeps.atomic fun i s => ?_) fun _ => ?_
  · show reportView { s with usb := s.usb.receive _ } = reportView s
    unfold Usb.receive
    split <;> rfl
  · refine Keeps.when (Keeps.bind (Keeps.atomic fun _ _ => rfl) fun _ => ?_)
    refine Keeps.bind (Keeps.when ?_) fun _ => Keeps.act fun _ => rfl
    exact Keeps.bind (Keeps.atomic fun _ _ => rfl) fun d => genericHIDProcessReport_keeps d

/-! ## The handler -/

/-- What the timer interrupt leaves alone, up to the depth of the handlers. -/
def handlerView (s : Firmware) :=
  (s.pads, (fun j : Fin 97 => s.hid.buffer j), s.adc, s.elite, s.ports.dac, s.ports.channel,
    s.cpu.region, s.cpu.loaded)

/-- What it leaves alone after its first step, which looks after the standby mode. -/
def serviceView (s : Firmware) := (s.standby, handlerView s)

theorem serviceView_of_reportView {s t : Firmware} (h : SameOn reportView s t) :
    SameOn serviceView s t := by
  simp only [SameOn, reportView, Prod.mk.injEq] at h
  obtain ⟨h₁, h₂, h₃, h₄, h₅, -, h₇, h₈, h₉, -, h₁₁⟩ := h
  simp only [SameOn, serviceView, handlerView, h₁, h₂, h₃, h₄, h₅, h₇, h₈, h₉, h₁₁]

theorem genericHIDTaskIn_keeps : genericHIDTaskIn.Keeps (SameOn serviceView) := by
  refine Keeps.bind (Keeps.act fun _ => rfl) fun _ => ?_
  refine Keeps.bind (Keeps.atomic fun _ _ => rfl) fun _ => ?_
  refine Keeps.when (Keeps.bind (Keeps.atomic fun _ s => ?_) fun _ => ?_)
  · have hbuf : (fun j : Fin 97 => s.hid.afterHalf.buffer j) = fun j : Fin 97 => s.hid.buffer j :=
      funext fun j => s.hid.buffer_afterHalf j.isLt
    simp only [SameOn, serviceView, handlerView, hbuf]
  · exact Keeps.bind (Keeps.act fun _ => rfl) fun _ => Keeps.act fun _ => rfl

theorem genericHIDTask_keeps : genericHIDTask.Keeps (SameOn serviceView) := by
  refine Keeps.bind (Keeps.atomic fun _ _ => rfl) fun _ => ?_
  refine Keeps.when (Keeps.bind genericHIDTaskIn_keeps fun _ => ?_)
  exact Keeps.mono (fun _ _ => serviceView_of_reportView) genericHIDTaskOut_keeps

/-- The clock messages change the clock and the fade and nothing else. -/
theorem midiClock_same {τ : Type} {g : Firmware → τ}
    (hg : ∀ s l m, g { s with led := l, midi := m } = g s) (b : UInt8) (s : Firmware) :
    g (midiClock b s) = g s := by
  unfold midiClock
  repeat' split
  all_goals first | rfl | exact hg _ _ _

theorem midiProcessUsbMidi_keeps (d : RxBuffer) :
    (midiProcessUsbMidi d).Keeps (SameOn serviceView) := by
  iterate 3 refine Keeps.bind (Keeps.atomic fun _ _ => rfl) fun _ => ?_
  refine Keeps.bind (Keeps.act fun s => ?_) fun _ => ?_
  · have hbuf (d0 d1 d2 : UInt8) : (fun j : Fin 97 => (s.hid.writeMidiData d0 d1 d2).buffer j)
        = fun j : Fin 97 => s.hid.buffer j :=
      funext fun j => s.hid.buffer_writeMidiData d0 d1 d2 (by omega)
    simp only [SameOn, serviceView, handlerView, hbuf]
  · refine Keeps.bind (Keeps.act fun s => midiClock_same (fun _ _ _ => rfl) _ s) fun _ => ?_
    exact Keeps.act fun _ => rfl

theorem midiRecieveUsbMidi_keeps : midiRecieveUsbMidi.Keeps (SameOn serviceView) := by
  refine Keeps.bind (Keeps.act fun _ => rfl) fun _ => ?_
  refine Keeps.bind (Keeps.atomic fun i s => ?_) fun _ => ?_
  · show serviceView { s with usb := s.usb.receive _ } = serviceView s
    unfold Usb.receive
    split <;> rfl
  · refine Keeps.when (Keeps.bind (Keeps.atomic fun _ _ => rfl) fun d => ?_)
    refine Keeps.bind (midiProcessUsbMidi_keeps _) fun _ => ?_
    refine Keeps.bind (Keeps.atomic fun _ _ => rfl) fun _ => ?_
    exact Keeps.when (Keeps.act fun _ => rfl)

theorem usbUSBTask_keeps : usbUSBTask.Keeps (SameOn serviceView) := by
  unfold usbUSBTask
  refine Keeps.atomic fun i s => ?_
  dsimp only
  split <;> rfl

/-- The handler after its first step. -/
theorem timerServices_keeps :
    (do midiRecieveUsbMidi; genericHIDTask; usbUSBTask : Code Unit).Keeps (SameOn serviceView) := by
  refine Keeps.bind midiRecieveUsbMidi_keeps fun _ => ?_
  exact Keeps.bind genericHIDTask_keeps fun _ => usbUSBTask_keeps

/-- **The timer interrupt changes no variable main owns and no byte of a pad in the report.** -/
theorem timerHandler_keeps : timerHandler.Keeps (SameOn handlerView) := by
  refine Keeps.bind (Keeps.act fun _ => rfl) fun _ => ?_
  exact Keeps.mono (fun _ _ => congrArg Prod.snd) timerServices_keeps

/-! ## The end of a pass -/

/-- What the end of a pass leaves alone. -/
def passView (s : Firmware) :=
  ({ s.pads with ledSum := 0, prevLedSum := 0 }, s.standby, s.hid, s.midi, s.usb, s.adc, s.elite,
    s.ports.dac, s.ports.channel, s.cpu.isrDepth, s.cpu.loaded)

theorem passView_of_ledView {s t : Firmware} (h : SameOn ledView s t) : SameOn passView s t := by
  simp only [SameOn, ledView, Prod.mk.injEq] at h
  obtain ⟨h₁, h₂, h₃, h₄, h₅, h₆, h₇, h₈, h₉, -, h₁₁, h₁₂⟩ := h
  simp only [SameOn, passView, h₁, h₂, h₃, h₄, h₅, h₆, h₇, h₈, h₉, h₁₁, h₁₂]

/-- The state up to the two sums: all that choosing a colour leaves alone. -/
def drawView (s : Firmware) : Firmware :=
  { s with pads := { s.pads with ledSum := 0, prevLedSum := 0 } }

theorem passView_of_drawView {s t : Firmware} (h : SameOn drawView s t) : SameOn passView s t := by
  have hdraw : drawView t = drawView s := h
  show passView (drawView t) = passView (drawView s)
  rw [hdraw]

theorem read_keeps_drawView {α : Type} (f : Firmware → α) :
    (read f : Code α).Keeps (SameOn drawView) := Keeps.atomic fun _ _ => rfl

theorem paletteRow_keeps (row : Nat) : (paletteRow row).Keeps (SameOn drawView) := by
  iterate 3 refine Keeps.bind (read_keeps_drawView _) fun _ => ?_
  exact Keeps.ret _

theorem fadeColour_keeps (row ledSum : Nat) :
    (fadeColour row ledSum).Keeps (SameOn drawView) := by
  iterate 3 refine Keeps.bind (read_keeps_drawView _) fun _ => ?_
  exact Keeps.bind (paletteRow_keeps row) fun _ => Keeps.ret _

theorem ledSum_keeps (f : Pads → Nat) :
    (padsAct fun p => { p with ledSum := f p }).Keeps (SameOn drawView) := Keeps.act fun _ => rfl

theorem pressureColour_keeps (old : Colour) : (pressureColour old).Keeps (SameOn drawView) := by
  refine Keeps.bind (ledSum_keeps _) fun _ => ?_
  refine Keeps.bind (read_keeps_drawView _) fun sum => Keeps.ite ?_ ?_
  · refine Keeps.bind (read_keeps_drawView _) fun prev => ?_
    exact Keeps.ite (fadeColour_keeps _ _) (paletteRow_keeps _)
  · refine Keeps.bind (ledSum_keeps _) fun _ => ?_
    iterate 2 refine Keeps.bind (read_keeps_drawView _) fun _ => ?_
    exact Keeps.ite (fadeColour_keeps _ _) (Keeps.ret _)

theorem baseColour_keeps (old : Colour) : (baseColour old).Keeps (SameOn drawView) :=
  Keeps.bind (read_keeps_drawView _) fun _ =>
    Keeps.ite (pressureColour_keeps old) (paletteRow_keeps 0)

theorem keeps_passView {α : Type} {p : Code α} (h : p.Keeps (SameOn drawView)) :
    p.Keeps (SameOn passView) := Keeps.mono (fun _ _ => passView_of_drawView) h

theorem ledSetColour_keeps_passView (r g b : Nat) :
    (ledSetColour r g b).Keeps (SameOn passView) :=
  Keeps.mono (fun _ _ => passView_of_ledView) (ledSetColour_keeps r g b)

theorem clockFade_keeps (c : Colour) : (clockFade c).Keeps (SameOn passView) := by
  iterate 2 refine Keeps.bind (keeps_passView (read_keeps_drawView _)) fun _ => ?_
  refine Keeps.ite (critical_keeps (fun _ _ _ => rfl) ?_) (Keeps.ret _)
  refine Keeps.bind (keeps_passView (read_keeps_drawView _)) fun step => ?_
  exact Keeps.bind (Keeps.act fun _ => rfl) fun _ => Keeps.ret _

theorem normalColour_keeps : normalColour.Keeps (SameOn passView) := by
  refine Keeps.bind (keeps_passView (read_keeps_drawView _)) fun status => Keeps.when ?_
  refine Keeps.bind (Keeps.atomic fun _ _ => rfl) fun old => ?_
  refine Keeps.bind (keeps_passView (baseColour_keeps old)) fun c => ?_
  exact Keeps.bind (clockFade_keeps c) fun c => ledSetColour_keeps_passView _ _ _

theorem staticColour_keeps : staticColour.Keeps (SameOn passView) := by
  refine critical_keeps (fun _ _ _ => rfl) ?_
  refine Keeps.bind (keeps_passView (read_keeps_drawView _)) fun c => ?_
  exact ledSetColour_keeps_passView _ _ _

theorem ledColour_keeps : ledColour.Keeps (SameOn passView) := by
  refine Keeps.bind (keeps_passView (read_keeps_drawView _)) fun mode => ?_
  refine Keeps.ite normalColour_keeps ?_
  refine Keeps.bind (keeps_passView (read_keeps_drawView _)) fun mode => ?_
  exact Keeps.when staticColour_keeps

/-- **The end of a pass changes `led_sum` and `prev_led_sum` and no other variable of the pads.** -/
theorem endPass_keeps : endPass.Keeps (SameOn passView) := by
  refine Keeps.bind ledColour_keeps fun _ => ?_
  exact Keeps.bind (Keeps.act fun _ => rfl) fun _ => keeps_passView (ledSum_keeps _)

end SphereWare
