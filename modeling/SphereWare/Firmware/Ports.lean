import SphereWare.Firmware.GenericHID

/-!
# Sensors (MUX.c, R2R.c, ADC.c, ButtonsAndDials.c)

A pad is read by selecting it on the multiplexers, setting its bias with the R2R converter and
converting the voltage. The elite buttons and dials hang on the same three address lines.
-/

namespace SphereWare

open Interrupt Prog

/-! ## Multiplexers and bias -/

namespace Ports

/-- `MUX_Select`. -/
def muxSelect (p : Ports) (channel : Nat) : Ports :=
  let c := UInt8.ofNat channel
  let inhibit := UInt8.ofNat (2 ^ (channel / 8))
  let portD := p.portD &&& 0xCB
  let portD := portD ||| (((c &&& 1) <<< (2 : UInt8))
    ||| (((c >>> (1 : UInt8)) &&& 1) <<< (4 : UInt8))
    ||| (((c >>> (2 : UInt8)) &&& 1) <<< (5 : UInt8)))
  -- all six multiplexers off, then the one that is wanted on
  let portF := p.portF ||| 0x40
  let portD := portD ||| 0x80
  let portB := p.portB ||| 0xF0
  { p with
    portF := portF &&& ~~~(inhibit <<< (6 : UInt8))
    portD := portD &&& ~~~((inhibit >>> (1 : UInt8)) <<< (7 : UInt8))
    portB := portB &&& (~~~((inhibit >>> (2 : UInt8)) <<< (4 : UInt8))
      &&& ~~~((inhibit >>> (3 : UInt8)) <<< (5 : UInt8))
      &&& ~~~((inhibit >>> (4 : UInt8)) <<< (6 : UInt8))
      &&& ~~~((inhibit >>> (5 : UInt8)) <<< (7 : UInt8)))
    channel := channel }

/-- `R2R_Write`. -/
def r2rWrite (p : Ports) (val : Nat) : Ports :=
  let v := UInt8.ofNat val
  { p with
    portB := (p.portB &&& 0xF0) ||| ((v >>> (2 : UInt8)) &&& 0x0F)
    portF := (p.portF &&& 0xDE) ||| ((v >>> (1 : UInt8)) &&& 1) ||| ((v &&& 1) <<< (5 : UInt8))
    dac := val }

end Ports

def portsAct (f : Ports → Ports) : Code Unit := act fun s => { s with ports := f s.ports }

def muxSelect (channel : Nat) : Code Unit := portsAct fun p => p.muxSelect channel

def r2rWrite (val : Nat) : Code Unit := portsAct fun p => p.r2rWrite val

/-! ## Conversions -/

inductive AdcMode where
  | singleEnded | diff1X1 | diff0X10 | diff1X10 | diff0X40 | diff1X40 | diff0X200 | diff1X200
  | previousMode
  deriving DecidableEq, Repr

def AdcMode.code : AdcMode → UInt8
  | singleEnded => 0b000100
  | diff1X1 => 0b010100
  | diff0X10 => 0b101000
  | diff1X10 => 0b101100
  | diff0X40 => 0b110000
  | diff1X40 => 0b110100
  | diff0X200 => 0b111000
  | diff1X200 => 0b111100
  | previousMode => 0b000001

inductive AdcChannel where
  | adc4 | adc5 | adcPrev
  deriving DecidableEq, Repr

def AdcChannel.code : AdcChannel → UInt8
  | adc4 => 0b00
  | adc5 => 0b01
  | adcPrev => 0b11

/-- `ADC_Set`. -/
def Adc.set (a : Adc) (mode : AdcMode) (chan : AdcChannel) : Adc :=
  if mode.code ≠ a.prevMode then
    { admux := (a.admux &&& 0b11100000) ||| ((mode.code ||| chan.code) &&& 0b011111)
      adcsrb := (a.adcsrb &&& 0b11011111) ||| (mode.code &&& 0b100000)
      prevChan := chan.code
      prevMode := mode.code }
  else if chan.code ≠ a.prevChan then
    { a with admux := (a.admux &&& 0b11111100) ||| (chan.code &&& 0b11), prevChan := chan.code }
  else a

/-- `ADC_Set` of any codes. `ADC_Init` gives it a mode and a channel of 0, which have no name. -/
def Adc.setCode (a : Adc) (mode chan : UInt8) : Adc :=
  if mode ≠ a.prevMode then
    { admux := (a.admux &&& 0b11100000) ||| ((mode ||| chan) &&& 0b011111)
      adcsrb := (a.adcsrb &&& 0b11011111) ||| (mode &&& 0b100000)
      prevChan := chan
      prevMode := mode }
  else if chan ≠ a.prevChan then
    { a with admux := (a.admux &&& 0b11111100) ||| (chan &&& 0b11), prevChan := chan }
  else a

theorem Adc.set_eq (a : Adc) (mode : AdcMode) (chan : AdcChannel) :
    a.set mode chan = a.setCode mode.code chan.code := rfl

/-- `Ref_Mode`. -/
inductive RefMode where
  | ref2V56 | refVcc | refExternal
  deriving DecidableEq, Repr

/-- `ADC_SetRef`. -/
def Adc.setRef (a : Adc) (mode : RefMode) : Adc :=
  let admux := a.admux &&& (~~~0x80 &&& ~~~0x40)
  match mode with
  | .ref2V56 => { a with admux := admux ||| 0xC0 }
  | .refVcc => { a with admux := admux ||| 0x40 }
  | .refExternal => { a with admux := admux }

/-- `ADC_Init`. The mode remembered is made to differ from 0, so that `ADC_Set` writes it. -/
def Adc.init (a : Adc) : Adc :=
  let a := { a with adcsrb := a.adcsrb ||| 0x80 }
  let a := a.setRef .ref2V56
  let a := { a with prevChan := 1, prevMode := 1 }
  a.setCode 0 0

def adcInit : Code Unit := act fun s => { s with adc := s.adc.init }

/-- The value `ADC_Read` makes of the ten bits of a conversion. -/
def adcResult (mode : AdcMode) (raw : BitVec 10) : Int :=
  let low := raw.toNat % 256
  let high := raw.toNat / 256
  if mode.code &&& 0b110000 ≠ 0 ∧ high >>> 1 ≠ 0 then
    -- a negative difference, which the source does not read as two's complement
    -(511 - ((low ||| ((high &&& 1) <<< 8) : Nat) : Int))
  else ((low ||| (high <<< 8) : Nat) : Int)

/-- `ADC_Read`. -/
def adcRead (mode : AdcMode) (chan : AdcChannel) : Code Int := do
  act fun s => { s with adc := s.adc.set mode chan }
  let raw ← input fun i => i.adc
  pure (adcResult mode raw)

/-! ## Buttons and dials -/

/-- Bit `PD6`, through which the elite inputs are read, and the pins of the encoders. -/
def pinBit (pinD : UInt8) (n : Nat) : UInt8 := (pinD >>> UInt8.ofNat n) &&& 1

/-- `!((PIND >> PD6) & 1)`: a switch pulls the pin low. -/
def pressed (pinD : UInt8) : UInt8 := if pinBit pinD 6 = 0 then 1 else 0

theorem pressed_eq (pinD : UInt8) : pressed pinD = 0 ∨ pressed pinD = 1 := by
  unfold pressed
  split
  · exact Or.inr rfl
  · exact Or.inl rfl

/-- What `ButtonsAndDials_Read` works on. -/
structure EliteView where
  elite : Elite
  hid : Hid
  beingPlayed : Nat → Bool

/-- A store through `being_played`; the probe at start-up passes a null pointer. -/
def storePlayed (a : Nat → Bool) (slot : Option Nat) (b : Bool) : Nat → Bool :=
  match slot with
  | some n => Function.update a n b
  | none => a

/-- `Encoder_Read`, with `being_turned` the element `slot` of `being_played`. -/
def encoderRead (v : EliteView) (number : Nat) (slot : Option Nat) (pinD : UInt8) : EliteView :=
  let pins := (pinBit pinD 6 <<< (1 : UInt8)) ||| pinBit pinD number
  let state := v.elite.dialState number
  if pins ≠ state &&& 0b11 then
    let state := (state <<< (2 : UInt8)) ||| pins
    let elite := { v.elite with dialState := Function.update v.elite.dialState number state }
    -- the last three states of the two pins: a step back, or a step on
    if state &&& 0b111111 = 0b110100 then
      { elite := elite
        hid := v.hid.adjustDial number (-1)
        beingPlayed := storePlayed v.beingPlayed slot true }
    else if state &&& 0b111111 = 0b111000 then
      { elite := elite
        hid := v.hid.adjustDial number 1
        beingPlayed := storePlayed v.beingPlayed slot true }
    else
      { v with elite := elite, beingPlayed := storePlayed v.beingPlayed slot false }
  else v

/-- The three button cases: the bits kept, the bit of the button, its element of `being_played`. -/
def buttonRead (v : EliteView) (kept : UInt8) (bit : UInt8) (slot : Option Nat) (pinD : UInt8) :
    EliteView :=
  let buttons := (v.elite.buttons &&& kept) ||| (pressed pinD <<< bit)
  { elite := { v.elite with buttons := buttons }
    hid := v.hid.writeButtonData buttons
    beingPlayed := storePlayed v.beingPlayed slot ((buttons >>> bit) &&& 1 = 1) }

/-- The `switch` of `ButtonsAndDials_Read`. -/
def eliteInput (v : EliteView) (eliteMuxNum : Nat) (slot : Option Nat) (pinD : UInt8) : EliteView :=
  match eliteMuxNum with
  | 1 => buttonRead v 0b00000111 3 slot pinD
  | 0 => buttonRead v 0b00001011 2 slot pinD
  | 3 => buttonRead v 0b00001101 1 slot pinD
  | 5 => { v with
      elite := { v.elite with buttons := (v.elite.buttons &&& 0b00001110) ||| pressed pinD }
      hid := v.hid.writeButtonData 0xFF }
  | 2 => encoderRead v 0 slot pinD
  | 4 => encoderRead v 1 slot pinD
  | _ => v

/-- `ButtonsAndDials_Read`, with `being_played` an array that starts at the element `base`. -/
def buttonsAndDialsRead (v : EliteView) (pad : Nat) (base : Option Nat) (pinD : UInt8) :
    EliteView :=
  let eliteMuxNum := pad % 8
  let slot := base.map (· + eliteMuxNum)
  let v₁ := eliteInput v eliteMuxNum slot pinD
  if v₁.elite.buttons &&& 0b1 = 0 then
    -- not an elite unit: never reported as played
    { v₁ with beingPlayed := storePlayed v₁.beingPlayed slot false }
  else v₁

def buttonsAndDials (pad : Nat) (base : Option Nat) : Code Unit :=
  atomic fun i s =>
    let v := buttonsAndDialsRead ⟨s.elite, s.hid, s.pads.beingPlayed⟩ pad base i.pinD
    ((), { s with
      elite := v.elite, hid := v.hid, pads := { s.pads with beingPlayed := v.beingPlayed } })

end SphereWare
