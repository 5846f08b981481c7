import SphereWare.Firmware.Midi

/-!
# The timer interrupt (GenericHID.c, SphereWare.c)

A thousand times a second the timer interrupt looks after the standby mode, takes a MIDI event and
serves the HID endpoints: it sends one half of the report and handles a report from the host.
-/

namespace SphereWare

open Interrupt Prog

/-! ## HID OUT reports -/

/-- A clock message from AlphaLive, unless the LED follows the MIDI clock. -/
def alphaLiveClock (d : RxBuffer) (messageIndex : Nat) : Code Unit := do
  let running ← read fun s => s.led.clockRunning
  when (running ≠ 2) do
    let start ← readData d (messageIndex + 1)
    ledAct fun l =>
      if start = 0x00 then { l with clockRunning := 0 }
      else { l with clockRunning := 1, fadeStep := 100 }
    let low ← readData d (messageIndex + 2)
    let high ← readData d (messageIndex + 3)
    ledAct fun l => { l with tempo := low.toNat + 256 * high.toNat }

/-- One of the general LED settings. -/
def ledSetting (d : RxBuffer) (messageIndex : Nat) : Code Unit := do
  let setting ← readData d (messageIndex + 1)
  if setting = 0x01 then do
    let v ← readData d (messageIndex + 2)
    ledSetStatus v
  else if setting = 0x02 then do
    let v ← readData d (messageIndex + 2)
    ledSetPressureStatus v
  else if setting = 0x03 then do
    let v ← readData d (messageIndex + 2)
    ledAct fun l => { l with clockStatus := v }
  else when (setting = 0x04) do
    let v ← readData d (messageIndex + 2)
    ledAct fun l => { l with mode := v }

/-- The body of the loop of `GenericHID_ProcessReport`. -/
def processMessage (d : RxBuffer) (i : Nat) : Code Unit := do
  let messageIndex := i * 4 + 2
  let kind ← readData d messageIndex
  if kind = 0 then do
    let b1 ← readData d (messageIndex + 1)
    let b2 ← readData d (messageIndex + 2)
    let b3 ← readData d (messageIndex + 3)
    midiSendUsbMidi b1 b2 b3
    midiSendUartMidi b1 b2 b3
  else if kind = 1 then
    ledSetting d messageIndex
  else if 2 ≤ kind ∧ kind ≤ 4 then do
    let red ← readData d (messageIndex + 1)
    let green ← readData d (messageIndex + 2)
    let blue ← readData d (messageIndex + 3)
    ledAct fun l => l.setColourValues (kind - 2).toNat red green blue
  else when (kind = 5) (alphaLiveClock d messageIndex)

/-- `GenericHID_ProcessReport`. The number of messages is what the host put into byte 1. -/
def genericHIDProcessReport (d : RxBuffer) : Code Unit := do
  let id ← readData d 0
  when (id = 0x01) do
    let noOfMessages ← readData d 1
    forEach (List.range noOfMessages.toNat) (processMessage d)

/-! ## The HID task -/

/-- The IN half of `GenericHID_Task`: sends the half `flip` points at if the host takes it. -/
def genericHIDTaskIn : Code Unit := do
  endpointSelectEndpoint .genericIn
  let ready ← endpointIsINReady
  when ready do
    -- interrupts are off up to here in every handler, so copying and clearing are one step
    let data ← atomic fun _ s => (s.hid.half, { s with hid := s.hid.afterHalf })
    endpointWriteStream data
    endpointClearIN

/-- Handles a report if there is one. The result of the stream read is not looked at. -/
def genericHIDReceive : Code Unit := do
  let received ← endpointIsOUTReceived TickInput.hidOut
  when received do
    let allowed ← endpointIsReadWriteAllowed
    when allowed do
      let d ← endpointReadStream genericReportSize TickInput.hidLater TickInput.hidStack
      genericHIDProcessReport d
    endpointClearOUT

/-- The OUT half of `GenericHID_Task`. -/
def genericHIDTaskOut : Code Unit := do
  endpointSelectEndpoint .genericOut
  genericHIDReceive

/-- `GenericHID_Task`. -/
def genericHIDTask : Code Unit := do
  let state ← read fun s => s.usb.deviceState
  when (state = .configured) do
    genericHIDTaskIn
    genericHIDTaskOut

/-! ## The handler -/

/-- `any_played`. -/
def Pads.anyPlayed (p : Pads) : Bool := (List.range numPlayed).any p.beingPlayed

/-- Moves the threshold of every pad. -/
def Standby.shift (b : Standby) (amount : BitVec 16) : Nat → BitVec 16 :=
  fun p => if p < numPads then b.initVal p + amount else b.initVal p

/-- The first part of the handler: standby after 20000 ticks at which nothing was played. -/
def Standby.tick (b : Standby) (anyPlayed : Bool) : Standby :=
  if anyPlayed then
    if b.thresholdsRaised then
      { initVal := b.shift (-100), thresholdsRaised := false, count := 0 }
    else { b with count := 0 }
  else if 20000 < b.count + 1 then
    if b.thresholdsRaised then { b with count := 0 }
    else { initVal := b.shift 100, thresholdsRaised := true, count := 0 }
  else { b with count := b.count + 1 }

def standbyTick (s : Firmware) : Firmware := { s with standby := s.standby.tick s.pads.anyPlayed }

/-- `ISR(TIMER1_COMPA_vect)`. -/
def timerHandler : Code Unit := do
  act standbyTick
  midiRecieveUsbMidi
  genericHIDTask
  usbUSBTask

/-- The processor: the hardware clears the interrupt flag on entry, `reti` sets it again. -/
def avr : Machine Firmware Input where
  handler := timerHandler
  enabled s := s.cpu.iflag
  enter s := { s with cpu := { s.cpu with iflag := false, isrDepth := s.cpu.isrDepth + 1 } }
  leave s := { s with cpu := { s.cpu with iflag := true, isrDepth := s.cpu.isrDepth - 1 } }
  admits _ _ := true

@[simp] theorem avr_enabled (s : Firmware) : avr.enabled s = s.cpu.iflag := rfl

end SphereWare
