import Mathlib.Data.Rat.Floor
import SphereWare.Interrupt.Rules

/-!
# The state of the firmware

One record per source file, in the source's words. C arrays are functions from the index; the
reads and writes of the source stay in range except where a module says otherwise.

`int16_t` and `int` values are integers with the wrap-around written out (`i16`), bytes are `UInt8`.
The thresholds in `init_val`, which main and the interrupt both move up and down, are words.
A few fields are not variables of the source but what an observer of the hardware sees: the
packets on the bus, the frames latched into the LED, the last values given to the port drivers,
whether the processor is inside the handler, and in which region with interrupts off main is.
-/

namespace SphereWare

/-- Conversion to `int16_t`, which is also `int` on the target. -/
def i16 (x : Int) : Int := (x + 32768) % 65536 - 32768

/-- Conversion to `int8_t`. -/
def i8 (x : Int) : Int := (x + 128) % 256 - 128

theorem i8_of_range {x : Int} (h₁ : -128 ≤ x) (h₂ : x ≤ 127) : i8 x = x := by
  unfold i8; omega

/-- What holds of the 256 bytes, one by one, holds of every byte. -/
theorem forall_byte {P : UInt8 → Prop} (h : ∀ n : Fin 256, P (UInt8.ofNat n)) (b : UInt8) :
    P b := by
  have hb := h ⟨b.toNat, b.toNat_lt⟩
  rwa [UInt8.ofNat_toNat] at hb

/-! ## SphereWare.c -/

/-- `LAST_PAD + 1`. -/
abbrev numPads : Nat := 48

/-- `LAST_PAD + 1 + 6`: the pads, the five elite inputs and the reset button. -/
abbrev numPlayed : Nat := 54

/-- What the main loop owns: written by main and `Calibrate` only. -/
structure Pads where
  filteredVal : Nat → Int
  initValSe : Nat → Int
  r2rVal : Nat → Nat
  padOrder : Nat → Nat
  antiStickyApplied : Nat → Bool
  hysterisisApplied : Nat → Bool
  velocitySent : Nat → Bool
  beingPlayed : Nat → Bool
  /-- `sticky_count`, `led_sum` and `prev_led_sum` are locals of main. -/
  stickyCount : Nat → Nat
  ledSum : Nat
  prevLedSum : Nat

/-- What main shares with the timer interrupt. -/
structure Standby where
  initVal : Nat → BitVec 16
  thresholdsRaised : Bool
  /-- The handler's static `count`. -/
  count : Int

/-! ## GenericHID.c -/

/-- `GENERIC_REPORT_SIZE`. -/
abbrev genericReportSize : Nat := 127

structure Hid where
  /-- Memory from the address of `hid_in_buffer` on; the array ends at `genericReportSize`. -/
  buffer : Nat → UInt8
  noOfMidiInMessages : UInt8
  /-- The static `flip` of `GenericHID_Task`: the half to be sent next. -/
  flip : Bool

/-! ## LED.c -/

structure Led where
  commandMode : Nat
  redCommand : Nat
  greenCommand : Nat
  blueCommand : Nat
  setting : Nat → Nat
  commandPacket : BitVec 32
  mode : UInt8
  status : UInt8
  pressureStatus : UInt8
  clockStatus : UInt8
  clockRunning : UInt8
  tempo : Nat
  fadeStep : Int
  colourValues : Nat → Nat → Nat
  staticColourValues : Nat → Nat
  /-- The shift register in the LED and the frames it has latched, oldest first. -/
  shiftRegister : BitVec 32
  latched : List (BitVec 32)

/-! ## MIDI.c -/

structure Midi where
  clockTimingCount : UInt8
  /-- The bytes put on the serial line. -/
  uart : List UInt8

/-! ## The USB library -/

inductive DeviceState where
  | unattached | powered | default | addressed | configured | suspended
  deriving DecidableEq, Repr

/-- `MIDI_STREAM_OUT_EPADDR`, `MIDI_STREAM_IN_EPADDR`, `GENERIC_IN_EPADDR`, `GENERIC_OUT_EPADDR`. -/
inductive Endpoint where
  | control | midiOut | midiIn | genericIn | genericOut
  deriving DecidableEq, Repr

/-- What the firmware does to the endpoint it has selected. -/
inductive EndpointOp where
  | write (ep : Endpoint) (data : List UInt8)
  | clearIN (ep : Endpoint)
  | clearOUT (ep : Endpoint)
  deriving DecidableEq, Repr

/-- A read of a receive buffer: the index, and whether the host sent the byte that is there. -/
structure RxRead where
  index : Nat
  received : Bool
  deriving DecidableEq, Repr

structure Usb where
  deviceState : DeviceState
  /-- `USB_Device_ConfigurationNumber` is not 0, and `USB_Device_IsAddressSet()`. -/
  configuration : Bool
  addressSet : Bool
  /-- The endpoint selected last. -/
  selected : Endpoint
  /-- The bank of an OUT endpoint: what is left of the packet in it, if there is one. -/
  bank : Endpoint → Option (List UInt8)
  /-- The operations on the endpoints so far, and the reads of receive buffers. -/
  ops : List EndpointOp
  reads : List RxRead

/-! ## MUX.c, R2R.c, ADC.c -/

structure Ports where
  portB : UInt8
  portC : UInt8
  portD : UInt8
  portE : UInt8
  portF : UInt8
  /-- The last values given to `MUX_Select` and to `R2R_Write`. -/
  channel : Nat
  dac : Nat

structure Adc where
  admux : UInt8
  adcsrb : UInt8
  prevChan : UInt8
  prevMode : UInt8

/-! ## ButtonsAndDials.c -/

structure Elite where
  buttons : UInt8
  dialState : Nat → UInt8

/-! ## The processor -/

/-- The regions of main between a `cli()` and the `sei()` that closes it. -/
inductive Region where
  | recalibration | eliteInputs | strike | antiSticky | pressure | release
  | singleEndedPress | singleEndedRelease | clockFade | staticColour
  deriving DecidableEq, Repr

structure Cpu where
  /-- The global interrupt flag. -/
  iflag : Bool
  /-- The region main is in. -/
  region : Option Region
  /-- How many handlers are active. -/
  isrDepth : Nat
  /-- A value main has loaded for a compound assignment and not yet stored back. -/
  loaded : Option (BitVec 16)

structure Firmware where
  pads : Pads
  standby : Standby
  hid : Hid
  led : Led
  midi : Midi
  usb : Usb
  ports : Ports
  adc : Adc
  elite : Elite
  cpu : Cpu

/-! ## The environment -/

/-- What the USB bus and the host do to the device. -/
inductive UsbEvent where
  | connect | reset | setAddress | setConfiguration | suspend | wakeUp | disconnect
  deriving DecidableEq, Repr

/-- Everything the host decides about one tick of the timer. -/
structure TickInput where
  /-- The bank of the HID IN endpoint is free. -/
  inReady : Bool
  /-- The packet that is there when the tick looks at an OUT endpoint whose bank was free. -/
  hidOut : Option (List UInt8)
  midiOut : Option (List UInt8)
  /-- The packets that arrive in time while a stream read waits for more. -/
  hidLater : List (List UInt8)
  midiLater : List (List UInt8)
  /--
  The bank of the MIDI IN endpoint is free, or the host makes it free while a write waits. That may
  differ from packet to packet: the argument is the number of packets released so far.
  -/
  midiFetched : Nat → Bool
  /-- What lies in memory where a receive buffer is allocated, and beyond its end. -/
  hidStack : Nat → UInt8
  midiStack : Nat → UInt8
  usbEvent : Option UsbEvent

structure Input where
  /-- The ten bits of a conversion. -/
  adc : BitVec 10
  pinD : UInt8
  /-- PE2 reads high: the reset button is not pressed. -/
  pinE2 : Bool
  /-- What lies where main keeps `red_new`, `green_new` and `blue_new`. -/
  stack : Nat × Nat × Nat
  tick : TickInput

/-- Programs of the firmware. -/
abbrev Code (α : Type) : Type := Interrupt.Prog Firmware Input α

end SphereWare
