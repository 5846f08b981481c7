import SphereWare.Firmware.Calibrate

/-!
# The main loop (SphereWare.c)

One pass visits the 48 pads in scan order and then sets the LED colour. The iteration for a pad
looks at the reset button, reads an elite input or two and then the pad itself.

The programs return what an observer of the iteration would note down (`Outcome`): the samples
taken and which branch was run. The source has no such value; nothing depends on it.
-/

namespace SphereWare

open Interrupt Prog

/-! ## Building blocks -/

/-- A region between `cli()` and the `sei()` that closes it. -/
def critical {α : Type} (region : Region) (body : Code α) : Code α := do
  act fun s => { s with cpu := { s.cpu with iflag := false, region := some region } }
  let a ← body
  act fun s => { s with cpu := { s.cpu with iflag := true, region := none } }
  pure a

/-- `being_played[n] = b`. -/
def Pads.setPlayed (p : Pads) (n : Nat) (b : Bool) : Pads :=
  { p with beingPlayed := Function.update p.beingPlayed n b }

/-- `led_sum += filtered_val[pad]`. -/
def Pads.addLedSum (p : Pads) (pad : Nat) : Pads :=
  { p with ledSum := (((p.ledSum : Int) + p.filteredVal pad) % 65536).toNat }

def Pads.setFiltered (p : Pads) (pad : Nat) (v : Int) : Pads :=
  { p with filteredVal := Function.update p.filteredVal pad v }

def Pads.setVelocitySent (p : Pads) (pad : Nat) (b : Bool) : Pads :=
  { p with velocitySent := Function.update p.velocitySent pad b }

/-- `init_val[pad] += d` with interrupts enabled: a load and a store. -/
def adjustInitVal (pad : Nat) (d : BitVec 16) : Code Unit := do
  act fun s => { s with cpu := { s.cpu with loaded := some (s.standby.initVal pad) } }
  act fun s =>
    { s with
      standby := s.standby.setInitVal pad (s.cpu.loaded.getD 0 + d)
      cpu := { s.cpu with loaded := none } }

/-- `HYSTERISIS_ADJUST_UNDER_16` and `HYSTERISIS_ADJUST`. -/
def hysterisisAdjust (pad : Nat) : BitVec 16 := if pad < 16 then 35 else 25

/-! ## Velocity pads -/

/-- A deflection, and the bias code in force when it was measured. -/
structure Sample where
  val : Int
  dac : Nat
  deriving DecidableEq, Repr

inductive PadEvent where
  | idle | strike | pressure | release
  deriving DecidableEq, Repr

/-- `-ADC_Read(DIFF_1_X10, ADC4) - init_val[pad]`. -/
def sampleVelocityPad (pad : Nat) : Code Sample := do
  let dac ← read fun s => s.ports.dac
  let a ← adcRead .diff1X10 .adc4
  let threshold ← read fun s => s.standby.initVal pad
  pure ⟨i16 (-a - threshold.toInt), dac⟩

/-- The loop that looks for the peak, with `n` turns to go. -/
def peakLoop (pad : Nat) : Nat → Int → Code (Int × List Sample)
  | 0, peak => pure (peak, [])
  | n + 1, peak => do
    let x ← sampleVelocityPad pad
    let r ← peakLoop pad n (if peak < x.val then x.val else peak)
    pure (r.1, x :: r.2)

/-- `velocity = peak >> 1`, limited to 127. -/
def velocityOf (peak : Int) : Int := if 127 < peak / 2 then 127 else peak / 2

/-- The strike branch. -/
def strike (pad : Nat) (val : Int) : Code (List Sample) := do
  let r ← peakLoop pad 200 val
  let velocity := velocityOf r.1
  critical .strike do
    act fun s => { s with hid := s.hid.writePadData pad velocity (UInt8.ofInt velocity) }
    padsAct fun p => p.setPlayed pad true
  -- interrupts are on again: a tick already sees the pad played
  padsAct fun p => p.setVelocitySent pad true
  padsAct fun p => p.setFiltered pad velocity
  padsAct fun p => p.addLedSum pad
  adjustInitVal pad (-hysterisisAdjust pad)
  pure r.2

/-- `filtered_val[pad] * 0.50 + val * 0.50`, truncated. -/
def filter (filtered val : Int) : Int := (filtered + val).tdiv 2

/-- The anti-sticky branch at full pressure. -/
def antiSticky (pad : Nat) : Code Unit := do
  padsAct fun p => p.setFiltered pad 511
  let applied ← read fun s => s.pads.antiStickyApplied pad
  when (!applied) do
    critical .antiSticky do
      standbyAct fun b => b.setInitVal pad (b.initVal pad + 50)
      padsAct fun p =>
        { p with antiStickyApplied := Function.update p.antiStickyApplied pad true }

/-- The pressure branch. -/
def pressureUpdate (pad : Nat) (val : Int) : Code Unit := do
  padsAct fun p => p.setFiltered pad (filter (p.filteredVal pad) val)
  let filtered ← read fun s => s.pads.filteredVal pad
  when (511 ≤ filtered) (antiSticky pad)
  critical .pressure do
    act fun s => { s with hid := s.hid.writePressureOnly pad (s.pads.filteredVal pad) }
    padsAct fun p => p.setPlayed pad true
  padsAct fun p => p.addLedSum pad

/-- `STICKY_TIMEOUT`: takes the anti-sticky offset back after enough releases. -/
def stickyTimeout (pad : Nat) (s : Firmware) : Firmware :=
  if s.pads.antiStickyApplied pad then
    -- a `uint16_t` of main, compared after the increment
    let n := (s.pads.stickyCount pad + 1) % 65536
    if 10 < n then
      { s with
        standby := s.standby.setInitVal pad (s.standby.initVal pad - 50)
        pads := { s.pads with
          antiStickyApplied := Function.update s.pads.antiStickyApplied pad false
          stickyCount := Function.update s.pads.stickyCount pad 0 } }
    else
      { s with pads := { s.pads with stickyCount := Function.update s.pads.stickyCount pad n } }
  else s

/-- The release branch. -/
def release (pad : Nat) : Code Unit := do
  critical .release do
    act (stickyTimeout pad)
    act fun s => { s with hid := s.hid.writePadData pad 0 0 }
    padsAct fun p => p.setPlayed pad false
  padsAct fun p => p.setVelocitySent pad false
  adjustInitVal pad (hysterisisAdjust pad)

/-- What main does with a pad below 40. -/
def scanVelocityPad (pad : Nat) : Code (List Sample × PadEvent) := do
  let x ← sampleVelocityPad pad
  let sent ← read fun s => s.pads.velocitySent pad
  if 0 < x.val then
    if sent then do
      pressureUpdate pad x.val
      pure ([x], .pressure)
    else do
      let rest ← strike pad x.val
      pure (x :: rest, .strike)
  else if sent then do
    release pad
    pure ([x], .release)
  else pure ([x], .idle)

/-! ## Single-ended pads -/

def singleEndedPress (pad : Nat) (val : Int) : Code Unit := do
  let applied ← read fun s => s.pads.hysterisisApplied pad
  when (!applied) do
    padsAct fun p =>
      { p with initValSe := Function.update p.initValSe pad (i16 (p.initValSe pad + 10)) }
    padsAct fun p => { p with hysterisisApplied := Function.update p.hysterisisApplied pad true }
  critical .singleEndedPress do
    padsAct fun p => p.setFiltered pad (filter (p.filteredVal pad) (i16 (val * 2)))
    let filtered ← read fun s => s.pads.filteredVal pad
    when (511 ≤ filtered) (padsAct fun p => p.setFiltered pad 511)
    act fun s => { s with hid := s.hid.writePadData pad (s.pads.filteredVal pad) 127 }
    padsAct fun p => p.setPlayed pad true
  padsAct fun p => p.addLedSum pad

def singleEndedRelease (pad : Nat) : Code Unit := do
  let applied ← read fun s => s.pads.hysterisisApplied pad
  when applied do
    padsAct fun p =>
      { p with initValSe := Function.update p.initValSe pad (i16 (p.initValSe pad - 10)) }
    padsAct fun p => { p with hysterisisApplied := Function.update p.hysterisisApplied pad false }
  critical .singleEndedRelease do
    act fun s => { s with hid := s.hid.writePadData pad 0 0 }
    padsAct fun p => p.setPlayed pad false

/-- What main does with a pad from 40 on. -/
def scanPressurePad (pad : Nat) : Code (List Sample × PadEvent) := do
  let threshold ← read fun s => s.pads.initValSe pad
  let a ← adcRead .singleEnded .adc4
  let val := i16 (threshold - a)
  if 0 < val then do
    singleEndedPress pad val
    pure ([], .pressure)
  else do
    singleEndedRelease pad
    pure ([], .release)

/-! ## One iteration -/

/-- What an observer notes down of an iteration. -/
structure Outcome where
  pad : Nat
  /-- The bias codes a recalibration found, before it sorted them. -/
  recalibrated : Option (Nat → Nat)
  /-- The samples of a velocity pad. -/
  samples : List Sample
  event : PadEvent

/-- The reset button. While it is held main waits with interrupts enabled. -/
def resetButton : Code (Option (Nat → Nat)) := do
  let up ← input fun i => i.pinE2
  if up then do
    padsAct fun p => p.setPlayed 53 false
    pure none
  else do
    padsAct fun p => p.setPlayed 53 true
    -- sorts `pad_order` and `r2r_val` anew, with the pad of this iteration already read
    let codes ← critical .recalibration do
      standbyAct fun b => { b with thresholdsRaised := false }
      calibrate
    pure (some codes)

/-- The elite inputs, read with the multiplexer bank of the pad selected. -/
def eliteScan (pad : Nat) : Code Unit :=
  critical .eliteInputs <| forEach (List.range 5) fun i => do
    muxSelect (i ||| (pad &&& 0b111111000))
    buttonsAndDials i (some numPads)

/-- The pad that is selected now. -/
def scanSelected (pad : Nat) : Code (List Sample × PadEvent) :=
  if pad < 40 then scanVelocityPad pad else scanPressurePad pad

/-- The iteration from `R2R_Write(r2r_val[i])` on. -/
def scanRest (i pad : Nat) : Code (List Sample × PadEvent) := do
  let bias ← read fun s => s.pads.r2rVal i
  r2rWrite bias
  eliteScan pad
  muxSelect pad
  delay pad
  scanSelected pad

/-- The body of the loop over the scan order. -/
def scanPad (i : Nat) : Code Outcome := do
  let pad ← read fun s => s.pads.padOrder i
  let codes ← resetButton
  let r ← scanRest i pad
  pure ⟨pad, codes, r.1, r.2⟩

/-! ## The LED colour -/

/-- `red_new`, `green_new` and `blue_new`. -/
abbrev Colour : Type := Nat × Nat × Nat

def paletteRow (row : Nat) : Code Colour := do
  let red ← read fun s => s.led.colourValues row 0
  let green ← read fun s => s.led.colourValues row 1
  let blue ← read fun s => s.led.colourValues row 2
  pure (red, green, blue)

/-- `LED_Colour_Values[row][channel] - (led_sum * (dif / 1023.0))`. -/
def fadeChannel (value : Nat) (dif : Int) (ledSum : Nat) : Nat :=
  truncate ((value : ℚ) - ledSum * ((dif : ℚ) / 1023))

/-- A colour between the palette rows `row` and `row + 1`. -/
def fadeColour (row ledSum : Nat) : Code Colour := do
  let dif (channel : Nat) : Code Int := read fun s =>
    (s.led.colourValues row channel : Int) - s.led.colourValues (row + 1) channel
  let redDif ← dif 0
  let greenDif ← dif 1
  let blueDif ← dif 2
  let c ← paletteRow row
  pure (fadeChannel c.1 redDif ledSum, fadeChannel c.2.1 greenDif ledSum,
    fadeChannel c.2.2 blueDif ledSum)

/-- The colour for the pressure on all pads. `old` is what the three locals hold before. -/
def pressureColour (old : Colour) : Code Colour := do
  padsAct fun p =>
    { p with ledSum := if 0 < p.ledSum then (p.ledSum * 2 ||| 1) % 65536 else 0 }
  let sum ← read fun s => s.pads.ledSum
  if sum ≤ 1023 then do
    let prev ← read fun s => s.pads.prevLedSum
    if 0 < prev then fadeColour 0 sum else paletteRow 0
  else do
    padsAct fun p =>
      { p with ledSum := if 1023 < p.ledSum - 1022 then 1023 else p.ledSum - 1022 }
    let sum ← read fun s => s.pads.ledSum
    let prev ← read fun s => s.pads.prevLedSum
    -- the source assigns nothing here: the locals keep what lay in memory
    if 0 < prev then fadeColour 1 sum else pure old

/-- A channel at the brightness of the clock fade. -/
def dim (value : Nat) (step : Int) : Nat := truncate (value * ((step : ℚ) / 100))

/-- Conversion of a value to `int8_t`: truncation, then reduction. -/
def toI8 (x : ℚ) : Int := i8 (if 0 ≤ x then ⌊x⌋ else ⌈x⌉)

/-- The next step of the fade, by the clock the LED follows. -/
def nextFadeStep (l : Led) (clockTimingCount : UInt8) : Led :=
  let l :=
    if l.clockRunning = 1 then { l with fadeStep := toI8 ((l.fadeStep : ℚ) - l.tempo / 25) } else l
  if l.clockRunning = 2 then
    { l with fadeStep := toI8 (100 - clockTimingCount.toNat * (9 / 2)) }
  else l

/-- Dims the colour with the beat. -/
def clockFade (c : Colour) : Code Colour := do
  let on ← read fun s => decide (s.led.clockStatus ≠ 0)
  let running ← read fun s => decide (s.led.clockRunning ≠ 0)
  if on ∧ running then
    critical .clockFade do
      let step ← read fun s => s.led.fadeStep
      act fun s => { s with led := nextFadeStep s.led s.midi.clockTimingCount }
      pure (if 0 < step then (dim c.1 step, dim c.2.1 step, dim c.2.2 step) else (0, 0, 0))
  else pure c

/-- The colour before the clock fade. -/
def baseColour (old : Colour) : Code Colour := do
  let pressureStatus ← read fun s => s.led.pressureStatus
  if pressureStatus ≠ 0 then pressureColour old else paletteRow 0

/-- The normal mode. -/
def normalColour : Code Unit := do
  let status ← read fun s => s.led.status
  when (status ≠ 0) do
    let old ← input fun i => i.stack
    let c ← baseColour old
    let c ← clockFade c
    ledSetColour c.1 c.2.1 c.2.2

/-- The static mode. -/
def staticColour : Code Unit :=
  critical .staticColour do
    let c ← read fun s =>
      (s.led.staticColourValues 0, s.led.staticColourValues 1, s.led.staticColourValues 2)
    ledSetColour c.1 c.2.1 c.2.2

/-- Sets the colour of the LED. -/
def ledColour : Code Unit := do
  let mode ← read fun s => s.led.mode
  if mode = 0 then normalColour
  else do
    let mode ← read fun s => s.led.mode
    when (mode = 1) staticColour

/-- The end of a pass, and `led_sum = 0` for the next one. -/
def endPass : Code Unit := do
  ledColour
  padsAct fun p => { p with prevLedSum := p.ledSum }
  padsAct fun p => { p with ledSum := 0 }

/-! ## Runs -/

/-- From `main` up to the loop, the hardware being set up. Returns the codes `Calibrate` found. -/
def startUp : Code (Nat → Nat) := do
  ledSetColour 0 0 1023
  muxSelect 5
  -- the probe for an elite unit, with no `being_played` to write to
  buttonsAndDials 5 none
  let codes ← calibrate
  sei
  pure codes

/-- The state at reset with the peripherals initialised. -/
def powerOn : Firmware where
  pads :=
    { filteredVal := fun _ => 0, initValSe := fun _ => 0, r2rVal := fun _ => 0,
      padOrder := fun _ => 0, antiStickyApplied := fun _ => false,
      hysterisisApplied := fun _ => false, velocitySent := fun _ => false,
      beingPlayed := fun _ => false, stickyCount := fun _ => 0, ledSum := 0, prevLedSum := 0 }
  standby := { initVal := fun _ => 0, thresholdsRaised := false, count := 0 }
  hid := { buffer := fun i => if i = 0 then 1 else 0, noOfMidiInMessages := 0, flip := false }
  led := Led.init
  midi := { clockTimingCount := 0, uart := [] }
  usb :=
    { deviceState := .unattached, configuration := false, addressSet := false,
      selected := .control, bank := fun _ => none, ops := [], reads := [] }
  ports :=
    { portB := 0xF0, portC := 0xBF, portD := 0x43, portE := 0xBF, portF := 0x40, channel := 0,
      dac := 0 }
  adc := { admux := 0xC0, adcsrb := 0x80, prevChan := 0, prevMode := 0 }
  elite := { buttons := 0, dialState := fun _ => 0 }
  cpu := { iflag := false, region := none, isrDepth := 0, loaded := none }

/-- Nothing happens outside: no voltage, no button pressed, no host. -/
def TickInput.quiet : TickInput where
  inReady := false
  hidOut := none
  midiOut := none
  hidLater := []
  midiLater := []
  midiFetched _ := true
  hidStack _ := 0
  midiStack _ := 0
  usbEvent := none

def Input.quiet : Input where
  adc := 0
  pinD := 0
  pinE2 := true
  stack := (0, 0, 0)
  tick := .quiet

/-- One iteration of the loop over the pads, or the end of a pass. -/
inductive LoopStep (M : Machine Firmware Input) :
    Nat → Firmware → Option Outcome → Nat → Firmware → Prop where
  | pad {i : Nat} {s t : Firmware} {o : Outcome} (sched : Sched Input) (hi : i < numPads)
      (hrun : (scanPad i).run M sched s = some (o, t)) : LoopStep M i s (some o) (i + 1) t
  | pass {s t : Firmware} (sched : Sched Input)
      (hrun : endPass.run M sched s = some ((), t)) : LoopStep M numPads s none 0 t

/--
What main has reached, from `main` on and whatever the memory held before: the iterations so far,
the next position in the scan order and the state.
-/
inductive ScanRun (M : Machine Firmware Input) : List Outcome → Nat → Firmware → Prop where
  | start {s₀ s : Firmware} {codes : Nat → Nat} (sched : Sched Input)
      (hrun : startUp.run M sched s₀ = some (codes, s)) : ScanRun M [] 0 s
  | step {os : List Outcome} {i i' : Nat} {s t : Firmware} {o : Option Outcome}
      (h : ScanRun M os i s) (hstep : LoopStep M i s o i' t) : ScanRun M (os ++ o.toList) i' t

end SphereWare
