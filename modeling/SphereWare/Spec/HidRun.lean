import SphereWare.Spec.HidTask
import SphereWare.Firmware.Scan

/-!
# Histories of the report buffer

Everything that touches the report buffer is a call of one of a few functions. A history is a
sequence of such calls, in any order, from any state: writes by main, MIDI messages and calls of
`GenericHID_Task` by the interrupt, and what happens on the bus in between. The host sees the
packets.
-/

namespace SphereWare

open Interrupt Prog

/-! ## Calls -/

/-- A call. Pads and dials are in range; of the values nothing is assumed. -/
inductive HidCall where
  | padData (pad : Fin numPads) (value : Int) (velocity : UInt8)
  | pressureOnly (pad : Fin numPads) (value : Int)
  | buttonData (buttons : UInt8)
  | adjustDial (dial : Fin 2) (amount : Int)
  | clear
  /-- `MIDI_Process_Usb_Midi` with the three bytes of a message. -/
  | midi (b0 b1 b2 : UInt8)
  | bus (event : UsbEvent)
  | task (tick : TickInput)

/-- A change of the report buffer. -/
def hidAct (f : Hid → Hid) : Code Unit := act fun s => { s with hid := f s.hid }

namespace HidCall

def code : HidCall → Code Unit
  | padData pad value velocity => hidAct fun h => h.writePadData pad value velocity
  | pressureOnly pad value => hidAct fun h => h.writePressureOnly pad value
  | buttonData buttons => hidAct fun h => h.writeButtonData buttons
  | adjustDial dial amount => hidAct fun h => h.adjustDial dial amount
  | clear => hidAct Hid.clear
  | midi b0 b1 b2 => midiProcessUsbMidi (.ofList [b0, b1, b2])
  | bus _ => usbUSBTask
  | task _ => genericHIDTask

def input : HidCall → Input
  | bus event => { Input.quiet with tick := { TickInput.quiet with usbEvent := some event } }
  | task tick => { Input.quiet with tick := tick }
  | _ => Input.quiet

/-- The state after the call. -/
def step (c : HidCall) (s : Firmware) : Firmware := (c.code.exec (fun _ => c.input) s).2

/-- What a call that is not a call of `GenericHID_Task` does to the report buffer. -/
def write (h : Hid) : HidCall → Hid
  | padData pad value velocity => h.writePadData pad value velocity
  | pressureOnly pad value => h.writePressureOnly pad value
  | buttonData buttons => h.writeButtonData buttons
  | adjustDial dial amount => h.adjustDial dial amount
  | clear => h.clear
  | midi b0 b1 b2 => h.writeMidiData b0 b1 b2
  | bus _ => h
  | task _ => h

/-- The call is one of `GenericHID_Task`, and it sends a packet. -/
def Sends (s : Firmware) : HidCall → Prop
  | task tick => SphereWare.Sends tick s
  | _ => False

instance (s : Firmware) (c : HidCall) : Decidable (c.Sends s) :=
  match c with
  | task tick => inferInstanceAs (Decidable (SphereWare.Sends tick s))
  | padData .. | pressureOnly .. | buttonData _ | adjustDial .. | clear | midi .. | bus _ =>
    isFalse id

/-- The state in which `MIDI_Process_Usb_Midi` comes to the clock messages. -/
def beforeClock (b0 b1 b2 : UInt8) (s : Firmware) : Firmware :=
  { s with
    hid := s.hid.writeMidiData b0 b1 b2
    usb := { s.usb with reads := s.usb.reads ++ [⟨0, true⟩] ++ [⟨1, true⟩] ++ [⟨2, true⟩] } }

theorem midi_step (b0 b1 b2 : UInt8) (s : Firmware) :
    (midi b0 b1 b2).step s = { midiClock b0 (beforeClock b0 b1 b2 s) with
      led := midiLedControl (midiClock b0 (beforeClock b0 b1 b2 s)).led b0 b1 b2 } := rfl

/-- **What a call does to the report buffer.** -/
theorem step_hid (c : HidCall) (s : Firmware) :
    (c.step s).hid = if c.Sends s then s.hid.afterHalf else c.write s.hid := by
  cases c with
  | task tick => exact taskCall_hid _ s
  | midi b0 b1 b2 =>
    rw [midi_step]
    exact midiClock_same (g := Firmware.hid) (fun _ _ _ => rfl) b0 (beforeClock b0 b1 b2 s)
  | bus event => rfl
  | padData pad value velocity => rfl
  | pressureOnly pad value => rfl
  | buttonData buttons => rfl
  | adjustDial dial amount => rfl
  | clear => rfl

/-- A call that sends does not write. -/
theorem write_of_sends {c : HidCall} {s : Firmware} (h : c.Sends s) (hid : Hid) :
    c.write hid = hid := by
  cases c with
  | task tick => rfl
  | _ => exact h.elim

theorem event_packets (u : Usb) (event : UsbEvent) : (u.event event).packets = u.packets := by
  cases event <;> rfl

theorem step_packets (c : HidCall) (s : Firmware) :
    (c.step s).usb.packets = s.usb.packets ++ if c.Sends s then [s.hid.half] else [] := by
  cases c with
  | task tick => exact taskCall_packets _ s
  | midi b0 b1 b2 =>
    have hclock := midiClock_same (g := Firmware.usb) (fun _ _ _ => rfl) b0
      (beforeClock b0 b1 b2 s)
    rw [midi_step]
    exact (congrArg Usb.packets hclock).trans (List.append_nil _).symm
  | bus event => exact (event_packets s.usb event).trans (List.append_nil _).symm
  | padData pad value velocity => exact (List.append_nil _).symm
  | pressureOnly pad value => exact (List.append_nil _).symm
  | buttonData buttons => exact (List.append_nil _).symm
  | adjustDial dial amount => exact (List.append_nil _).symm
  | clear => exact (List.append_nil _).symm

end HidCall

/-- The host takes every packet. -/
def TickInput.ready : TickInput := { TickInput.quiet with inReady := true }

/-- Power-on, with a host that has configured the device. -/
def configured : Firmware := { powerOn with usb := { powerOn.usb with deviceState := .configured } }

/-! ## Packets -/

/-- A packet, and which half of the report `GenericHID_Task` took it for. -/
structure Packet where
  second : Bool
  data : List UInt8
  deriving DecidableEq, Repr

/-- The packet that is new on the bus after a call. -/
def HidCall.packet (c : HidCall) (s : Firmware) : Option Packet :=
  ((c.step s).usb.packets.drop s.usb.packets.length).head?.map fun data => ⟨s.hid.flip, data⟩

theorem HidCall.packet_eq (c : HidCall) (s : Firmware) :
    c.packet s = if c.Sends s then some ⟨s.hid.flip, s.hid.half⟩ else none := by
  rw [packet, step_packets, List.drop_left]
  split <;> rfl

/-! ## Histories -/

variable (s : Firmware) (calls : Nat → HidCall)

/-- The state before the call with index `k`. -/
def stateAt : Nat → Firmware
  | 0 => s
  | k + 1 => (calls k).step (stateAt k)

/-- The packet the call with index `k` sends. -/
def packetAt (k : Nat) : Option Packet := (calls k).packet (stateAt s calls k)

/-- The call with index `k` sends a second half. -/
def SendsSecond (k : Nat) : Prop :=
  (calls k).Sends (stateAt s calls k) ∧ (stateAt s calls k).hid.flip = true

instance : DecidablePred (SendsSecond s calls) := fun _ => inferInstanceAs (Decidable (_ ∧ _))

/-- The second halves sent by the calls before the one with index `n`. -/
def secondHalves : Nat → List (List UInt8)
  | 0 => []
  | n + 1 => secondHalves n ++ ((packetAt s calls n).toList.filter Packet.second).map Packet.data

variable {s calls}

theorem stateAt_hid (k : Nat) : (stateAt s calls (k + 1)).hid =
    if (calls k).Sends (stateAt s calls k) then (stateAt s calls k).hid.afterHalf
    else (calls k).write (stateAt s calls k).hid := (calls k).step_hid _

theorem packetAt_eq_some {k : Nat} {pkt : Packet} : packetAt s calls k = some pkt ↔
    (calls k).Sends (stateAt s calls k) ∧
      pkt = ⟨(stateAt s calls k).hid.flip, (stateAt s calls k).hid.half⟩ := by
  rw [packetAt, HidCall.packet_eq]
  split
  · next h => exact ⟨fun hpkt => ⟨h, (Option.some.inj hpkt).symm⟩, fun hpkt => by rw [hpkt.2]⟩
  · next h => exact ⟨fun hpkt => absurd hpkt (by simp), fun hpkt => absurd hpkt.1 h⟩

theorem packetAt_isSome {k : Nat} :
    (packetAt s calls k).isSome = true ↔ (calls k).Sends (stateAt s calls k) := by
  rw [packetAt, HidCall.packet_eq]
  split <;> simp_all

/-- A call that does not send leaves `flip` alone, one that does moves it on. -/
theorem HidCall.flip_write (c : HidCall) (h : Hid) : (c.write h).flip = h.flip := by
  cases c with
  | midi b0 b1 b2 =>
    show (h.writeMidiData b0 b1 b2).flip = h.flip
    unfold Hid.writeMidiData
    split <;> rfl
  | _ => rfl

theorem stateAt_flip (k : Nat) : (stateAt s calls (k + 1)).hid.flip =
    ((stateAt s calls k).hid.flip ^^ (packetAt s calls k).isSome) := by
  rw [stateAt_hid]
  by_cases h : (calls k).Sends (stateAt s calls k)
  · rw [if_pos h, Hid.flip_afterHalf, packetAt_isSome.mpr h, Bool.xor_true]
  · have hnone : (packetAt s calls k).isSome = false := by
      rw [← Bool.not_eq_true, packetAt_isSome]
      exact h
    rw [if_neg h, HidCall.flip_write, hnone, Bool.xor_false]

/-- A call that sends, but not a second half, sends a first half. -/
theorem flip_of_not_sendsSecond {k : Nat} (h : ¬SendsSecond s calls k)
    (hsends : (calls k).Sends (stateAt s calls k)) : (stateAt s calls k).hid.flip = false := by
  rw [← Bool.not_eq_true]
  exact fun hflip => h ⟨hsends, hflip⟩

theorem secondHalves_of_sends {k : Nat} (h : SendsSecond s calls k) :
    secondHalves s calls (k + 1)
      = secondHalves s calls k ++ [(stateAt s calls k).hid.half] := by
  rw [secondHalves, packetAt_eq_some.mpr ⟨h.1, rfl⟩, h.2]
  rfl

theorem secondHalves_of_not {k : Nat} (h : ¬SendsSecond s calls k) :
    secondHalves s calls (k + 1) = secondHalves s calls k := by
  rw [secondHalves]
  by_cases hsends : (calls k).Sends (stateAt s calls k)
  · rw [packetAt_eq_some.mpr ⟨hsends, rfl⟩, flip_of_not_sendsSecond h hsends]
    exact List.append_nil _
  · have hnone : packetAt s calls k = none := by
      rw [← Option.not_isSome_iff_eq_none, packetAt_isSome]
      exact hsends
    rw [hnone]
    exact List.append_nil _

/-- A call that sends no second half leaves alone what it does not write. -/
theorem stateAt_hid_of_not {k : Nat} (h : ¬SendsSecond s calls k) :
    (stateAt s calls (k + 1)).hid.buffer = ((calls k).write (stateAt s calls k).hid).buffer ∧
      (stateAt s calls (k + 1)).hid.noOfMidiInMessages
        = ((calls k).write (stateAt s calls k).hid).noOfMidiInMessages := by
  rw [stateAt_hid]
  split
  · next hsends =>
    rw [HidCall.write_of_sends hsends, Hid.afterHalf, flip_of_not_sendsSecond h hsends]
    exact ⟨rfl, rfl⟩
  · exact ⟨rfl, rfl⟩

theorem stateAt_hid_of_sends {k : Nat} (h : SendsSecond s calls k) :
    (stateAt s calls (k + 1)).hid = (stateAt s calls k).hid.afterHalf := by
  rw [stateAt_hid, if_pos h.1]

end SphereWare
