import SphereWare.Firmware.Endpoint

/-!
# The LED (LED.c)

The LED is a 32-bit shift register on three port pins. `LED_SendPacket` clocks a packet out bit by
bit and `LED_Latch` makes the LED take it over.

`LED_SendPacket` ends its short critical section with `sei()` whatever the interrupt flag was
before. Everything that sends a colour therefore enables interrupts: `LED_Set_Colour`, and through
it `LED_Set_Status` and `LED_Set_Pressure_Status`, which the timer interrupt calls.

The `float` arithmetic is exact here; a conversion to an integer truncates.
-/

namespace SphereWare

open Interrupt Prog

/-- `cli()`. -/
def cli : Code Unit := act fun s => { s with cpu := { s.cpu with iflag := false } }

/-- `sei()`. -/
def sei : Code Unit := act fun s => { s with cpu := { s.cpu with iflag := true } }

def ledAct (f : Led → Led) : Code Unit := act fun s => { s with led := f s.led }

/-! ## The serial line -/

/-- `DATPORT`: bit 7 of port F. -/
def Ports.writeData (p : Ports) (b : Bool) : Ports :=
  { p with portF := if b then p.portF ||| 0x80 else p.portF &&& 0x7F }

/-- A rising edge of `CLKPIN` moves the data pin into the register. -/
def clockHigh (s : Firmware) : Firmware :=
  let bit : BitVec 32 := if s.ports.portF &&& 0x80 = 0 then 0 else 1
  { s with
    led := if s.ports.portC &&& 0x80 = 0 then
        { s.led with shiftRegister := (s.led.shiftRegister <<< 1) ||| bit }
      else s.led
    ports := { s.ports with portC := s.ports.portC ||| 0x80 } }

def clockLow (s : Firmware) : Firmware :=
  { s with ports := { s.ports with portC := s.ports.portC &&& 0x7F } }

/-- A rising edge of `LATPIN` makes the LED take the register over. -/
def latchHigh (s : Firmware) : Firmware :=
  { s with
    led := if s.ports.portE &&& 0x40 = 0 then
        { s.led with latched := s.led.latched ++ [s.led.shiftRegister] }
      else s.led
    ports := { s.ports with portE := s.ports.portE ||| 0x40 } }

def latchLow (s : Firmware) : Firmware :=
  { s with ports := { s.ports with portE := s.ports.portE &&& 0xBF } }

def enable (b : Bool) (s : Firmware) : Firmware :=
  { s with ports := { s.ports with
    portC := if b then s.ports.portC ||| 0x40 else s.ports.portC &&& 0xBF } }

/-- In command mode 01 the channels are the current settings. -/
def Led.loadSetting (l : Led) : Led :=
  if l.commandMode = 0b01 then
    { l with redCommand := l.setting 0, greenCommand := l.setting 1, blueCommand := l.setting 2 }
  else l

/-- `led_command_packet = (led_command_packet << 10) | (command & 1023)`. -/
def Led.pushCommand (l : Led) (command : Nat) : Led :=
  { l with commandPacket := (l.commandPacket <<< 10) ||| BitVec.ofNat 32 (command % 1024) }

/-- One turn of the loop of `LED_SendPacket`. -/
def ledSendBit (j : Nat) : Code Unit := do
  act fun s => { s with ports := s.ports.writeData (s.led.commandPacket.getLsbD (31 - j)) }
  act clockHigh
  act clockLow

def ledSendPacket : Code Unit := do
  cli
  ledAct Led.loadSetting
  -- also where the caller had interrupts off
  sei
  ledAct fun l => { l with commandPacket := BitVec.ofNat 32 (l.commandMode % 4) }
  ledAct fun l => l.pushCommand l.blueCommand
  ledAct fun l => l.pushCommand l.redCommand
  ledAct fun l => l.pushCommand l.greenCommand
  forEach (List.range 32) ledSendBit

def ledLatch : Code Unit := do
  act latchHigh
  act (enable true)
  act (enable false)
  act latchLow

/-- `LED_Set_Colour` and `LED_WriteArray`, for the one LED there is. -/
def ledSetColour (red green blue : Nat) : Code Unit := do
  ledAct fun l => { l with commandMode := 0b00 }
  ledAct fun l => { l with redCommand := red }
  ledAct fun l => { l with greenCommand := green }
  ledAct fun l => { l with blueCommand := blue }
  ledSendPacket
  ledLatch
  ledAct fun l => { l with commandMode := 0b01 }
  ledSendPacket
  ledLatch

/-! ## Settings -/

/-- The first row of the palette. -/
def Led.minColour (l : Led) : Nat × Nat × Nat :=
  (l.colourValues 0 0, l.colourValues 0 1, l.colourValues 0 2)

def ledSetStatus (status : UInt8) : Code Unit := do
  ledAct fun l => { l with status := status }
  let mode ← read fun s => s.led.mode
  when (mode = 0) do
    if status = 0 then
      ledSetColour 0 0 0
    else do
      let c ← read fun s => s.led.minColour
      ledSetColour c.1 c.2.1 c.2.2

def ledSetPressureStatus (status : UInt8) : Code Unit := do
  ledAct fun l => { l with pressureStatus := status }
  let mode ← read fun s => s.led.mode
  when (mode = 0) do
    let on ← read fun s => s.led.status
    when (status = 0 ∧ on = 1) do
      let c ← read fun s => s.led.minColour
      ledSetColour c.1 c.2.1 c.2.2

/-- Conversion of a non-negative value to `uint16_t`. -/
def truncate (x : ℚ) : Nat := ⌊x⌋.toNat

/-- Scales a colour down when its three parts sum to more than the LED can take. -/
def scaleColour (c : ℚ × ℚ × ℚ) : ℚ × ℚ × ℚ :=
  let sum := c.1 + c.2.1 + c.2.2
  if 1023 < sum then
    let excess : ℚ := ⌊sum - 1023⌋
    (c.1 - excess * (c.1 / sum), c.2.1 - excess * (c.2.1 / sum), c.2.2 - excess * (c.2.2 / sum))
  else c

/-- `LED_Set_Colour_Values`. -/
def Led.setColourValues (l : Led) (colour : Nat) (red green blue : UInt8) : Led :=
  let scaled (v : UInt8) : ℚ := 1023 * v.toNat / 255
  let c := scaleColour (scaled red, scaled green, scaled blue)
  { l with
    colourValues := Function.update l.colourValues colour fun i =>
      match i with
      | 0 => truncate c.1
      | 1 => truncate c.2.1
      | 2 => truncate c.2.2
      | _ => l.colourValues colour i }

/--
`LED_Set_Static_Colour`. The last test of the source is an assignment, `colour = 2`, so every
colour other than 0 and 1 sets blue.
-/
def Led.setStaticColour (l : Led) (colour value : UInt8) : Led :=
  let scaled : ℚ := 1023 * value.toNat / 127
  let c := scaleColour
    (if colour = 0 then (scaled, l.staticColourValues 1, l.staticColourValues 2)
     else if colour = 1 then (l.staticColourValues 0, scaled, l.staticColourValues 2)
     else (l.staticColourValues 0, l.staticColourValues 1, scaled))
  { l with
    staticColourValues := fun i =>
      match i with
      | 0 => truncate c.1
      | 1 => truncate c.2.1
      | 2 => truncate c.2.2
      | _ => l.staticColourValues i }

/-- The variables `LED_Init` sets, from their zero initial values. -/
def Led.init : Led :=
  let l : Led :=
    { commandMode := 0, redCommand := 0, greenCommand := 0, blueCommand := 0,
      setting := fun i => if i < 3 then 127 else 0, commandPacket := 0,
      mode := 0, status := 1, pressureStatus := 1, clockStatus := 0, clockRunning := 0,
      tempo := 120, fadeStep := 100,
      colourValues := fun _ _ => 0, staticColourValues := fun _ => 0,
      shiftRegister := 0, latched := [] }
  ((l.setColourValues 0 0 0 255).setColourValues 1 0 255 0).setColourValues 2 255 0 0

end SphereWare
