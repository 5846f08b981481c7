import SphereWare.Firmware.GenericHID
import SphereWare.Firmware.Led

/-!
# MIDI (MIDI.c)

MIDI comes in over USB (`MIDI_Recieve_Usb_Midi`, one event a tick) and goes on to the HID report,
to the clock of the LED fade and to the static LED colour. MIDI messages in HID OUT reports go out
over USB and over the serial line.
-/

namespace SphereWare

open Interrupt Prog

/-! ## Sending -/

/--
`MIDI_Send_Usb_Midi`. The selected endpoint is the MIDI IN endpoint afterwards, also when the
status byte is zero and nothing is sent. An event fits into the bank, so the write puts in all of
it or, when the host does not make room in time, nothing. Its result is not looked at.
-/
def midiSendUsbMidi (statusByte dataByte1 dataByte2 : UInt8) : Code Unit := do
  let state ← read fun s => s.usb.deviceState
  when (state = .configured) do
    endpointSelectEndpoint .midiIn
    when (statusByte ≠ 0) do
      -- while the host leaves the packet before in the bank nothing is written
      let fetched ← atomic fun i s => (i.tick.midiFetched s.usb.midiReleases, s)
      when fetched (endpointWriteStream
        [(statusByte &&& 0xF0) >>> (4 : UInt8), statusByte, dataByte1, dataByte2])
      endpointClearIN

/-- `MIDI_Send_Uart_Midi`: always three bytes. -/
def midiSendUartMidi (statusByte dataByte1 dataByte2 : UInt8) : Code Unit :=
  act fun s => { s with midi := { s.midi with
    uart := s.midi.uart ++ [statusByte, dataByte1, dataByte2] } }

/-! ## Receiving -/

/-- The MIDI clock messages: start or continue, stop, timing. -/
def midiClock (b : UInt8) (s : Firmware) : Firmware :=
  if s.led.clockRunning = 1 then s
  else if b = 250 ∨ b = 251 then
    { s with
      led := { s.led with clockRunning := 2, fadeStep := 100 }
      midi := { s.midi with clockTimingCount := 0 } }
  else if b = 252 then
    { s with led := { s.led with clockRunning := 0 } }
  else if b = 248 then
    if 24 ≤ (s.midi.clockTimingCount + 1).toNat then
      { s with
        led := { s.led with fadeStep := 100 }
        midi := { s.midi with clockTimingCount := 0 } }
    else
      { s with midi := { s.midi with clockTimingCount := s.midi.clockTimingCount + 1 } }
  else s

/-- The control changes on channel 16 that set the LED mode and the static colour. -/
def midiLedControl (l : Led) (b0 b1 b2 : UInt8) : Led :=
  if b0 = 191 then
    if b1 = 20 then { l with mode := if b2 = 0 then 0 else 1 }
    else if b1 = 21 then l.setStaticColour 0 b2
    else if b1 = 22 then l.setStaticColour 1 b2
    else if b1 = 23 then l.setStaticColour 2 b2
    else l
  else l

/-- `MIDI_Process_Usb_Midi`. -/
def midiProcessUsbMidi (message : RxBuffer) : Code Unit := do
  let b0 ← readData message 0
  let b1 ← readData message 1
  let b2 ← readData message 2
  act fun s => { s with hid := s.hid.writeMidiData b0 b1 b2 }
  act (midiClock b0)
  ledAct fun l => midiLedControl l b0 b1 b2

/-- `MIDI_Recieve_Usb_Midi`. The event is processed whether or not the read got all of it. -/
def midiRecieveUsbMidi : Code Unit := do
  endpointSelectEndpoint .midiOut
  let received ← endpointIsOUTReceived TickInput.midiOut
  when received do
    let event ← endpointReadStream 4 TickInput.midiLater TickInput.midiStack
    -- the first byte of an event names the cable
    midiProcessUsbMidi (event.drop 1)
    let left ← endpointBytesInEndpoint
    when (left = 0) endpointClearOUT

end SphereWare
