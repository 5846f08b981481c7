import SphereWare.Memory.Access
import SphereWare.Spec.HidRun

/-!
# The report buffer, access by access

The functions of GenericHID.c once more, as programs over the array `hid_in_buffer`: each read and
write of an element is a step. Run without bounds they are the functions on `Hid`
(`HidCall.run_access`).
-/

namespace SphereWare

open Memory

/-- A program over `hid_in_buffer`. -/
abbrev HidAccess (α : Type) : Type := Access UInt8 α

namespace HidAccess

open Access

/-- `GenericHID_Write_PadData`. -/
def writePadData (pad : Nat) (value : Int) (velocity : UInt8) : HidAccess Unit := do
  set (1 + pad * 2) (Hid.packFirst velocity value)
  set (2 + pad * 2) (Hid.packSecond value)

/-- `GenericHID_Write_PressureOnly`. -/
def writePressureOnly (pad : Nat) (value : Int) : HidAccess Unit := do
  let b ← get (1 + pad * 2)
  set (1 + pad * 2) (b &&& 0x7F)
  let b ← get (1 + pad * 2)
  set (1 + pad * 2) (b ||| (UInt8.ofInt (value % 2) <<< (7 : UInt8)))
  set (2 + pad * 2) (Hid.packSecond value)

/-- `GenericHID_Write_ButtonData`. -/
def writeButtonData (buttons : UInt8) : HidAccess Unit := set 97 buttons

/-- `GenericHID_Adjust_Dial`. -/
def adjustDial (dial : Nat) (amount : Int) : HidAccess Unit := do
  let b ← get (98 + dial)
  set (98 + dial) (b + UInt8.ofInt amount)

/-- `GenericHID_Clear`. -/
def clear : HidAccess Unit := setAll 0 (List.range' 1 95)

/-- `GenericHID_Write_MidiData`, with the number of messages that wait already. -/
def writeMidiData (noOfMidiInMessages d0 d1 d2 : UInt8) : HidAccess Unit :=
  if noOfMidiInMessages.toNat ≤ 6 then do
    let newMessageIndex := noOfMidiInMessages.toNat * 3 + 101
    set newMessageIndex d0
    set (newMessageIndex + 1) d1
    set (newMessageIndex + 2) d2
    set 100 (noOfMidiInMessages + 1)
  else pure ()

/-- The IN half of `GenericHID_Task`, once the host is ready. Returns the packet. -/
def sendHalf (flip : Bool) : HidAccess (List UInt8) := do
  let data ← getAll ((List.range 64).map fun i => i + if flip then 64 else 0)
  if flip then do
    set 98 0
    set 99 0
    set 97 0
    setAll 0 (List.range' 100 19)
    pure data
  else pure data

/-! ## The same functions -/

variable (h : Hid)

theorem run_writePadData (pad : Nat) (value : Int) (velocity : UInt8) :
    (writePadData pad value velocity).run h.buffer
      = ((), (h.writePadData pad value velocity).buffer) := rfl

theorem run_writePressureOnly (pad : Nat) (value : Int) :
    (writePressureOnly pad value).run h.buffer = ((), (h.writePressureOnly pad value).buffer) := by
  simp [writePressureOnly, Hid.writePressureOnly, Hid.packFirst]

theorem run_clear : clear.run h.buffer = ((), h.clear.buffer) := by
  rw [clear, run_setAll]
  refine Prod.ext rfl (funext fun j => ?_)
  simp only [List.mem_range'_1, Hid.clear, Hid.buffer_fill]

theorem run_writeMidiData (d0 d1 d2 : UInt8) :
    (writeMidiData h.noOfMidiInMessages d0 d1 d2).run h.buffer
      = ((), (h.writeMidiData d0 d1 d2).buffer) := by
  unfold writeMidiData Hid.writeMidiData
  split
  · rfl
  · rfl

theorem run_sendHalf : (sendHalf h.flip).run h.buffer = (h.half, h.afterHalf.buffer) := by
  have hhalf : ((List.range 64).map fun i => i + if h.flip then 64 else 0).map h.buffer = h.half := by
    rw [List.map_map]
    rfl
  cases hflip : h.flip with
  | false =>
    rw [hflip] at hhalf
    simp only [sendHalf, bind_eq, run_bind, run_getAll, hhalf, Hid.afterHalf, hflip]
    rfl
  | true =>
    simp only [hflip, if_true] at hhalf
    simp only [sendHalf, bind_eq, run_bind, run_getAll, hhalf, if_true, run_set, run_setAll,
      pure_eq, run_ret, Hid.afterHalf, hflip]
    refine Prod.ext rfl (funext fun j => ?_)
    simp only [List.mem_range'_1, Hid.buffer_fill, Function.update_apply]
    split
    · rfl
    · by_cases h97 : j = 97
      · simp [h97]
      · by_cases h98 : j = 98 ∨ j = 99
        · rcases h98 with rfl | rfl <;> simp
        · rw [if_neg h97, if_neg (by omega), if_neg (by omega), if_neg (by omega), if_neg (by omega)]

end HidAccess

/-! ## Calls -/

/-- The accesses of a call made in the state `s`. Returns the packet, if it sends one. -/
def HidCall.access (s : Firmware) : HidCall → HidAccess (Option (List UInt8))
  | .padData pad value velocity => do HidAccess.writePadData pad value velocity; pure none
  | .pressureOnly pad value => do HidAccess.writePressureOnly pad value; pure none
  | .buttonData buttons => do HidAccess.writeButtonData buttons; pure none
  | .adjustDial dial amount => do HidAccess.adjustDial dial amount; pure none
  | .clear => do HidAccess.clear; pure none
  | .midi b0 b1 b2 => do HidAccess.writeMidiData s.hid.noOfMidiInMessages b0 b1 b2; pure none
  | .bus _ => pure none
  | .task tick =>
    if SphereWare.Sends tick s then do
      let data ← HidAccess.sendHalf s.hid.flip
      pure (some data)
    else pure none

/-- **A call does to the report what its accesses do, and sends what they return.** -/
theorem HidCall.run_access (c : HidCall) (s : Firmware) :
    (c.access s).run s.hid.buffer = ((c.packet s).map Packet.data, (c.step s).hid.buffer) := by
  rw [packet_eq, step_hid]
  cases c with
  | padData pad value velocity => rfl
  | pressureOnly pad value =>
    have hrun := HidAccess.run_writePressureOnly s.hid pad value
    simp only [access, Access.bind_eq, Access.run_bind, hrun]
    rfl
  | buttonData buttons => rfl
  | adjustDial dial amount => rfl
  | clear =>
    simp only [access, Access.bind_eq, Access.run_bind, HidAccess.run_clear]
    rfl
  | midi b0 b1 b2 =>
    simp only [access, Access.bind_eq, Access.run_bind, HidAccess.run_writeMidiData]
    rfl
  | bus event => rfl
  | task tick =>
    by_cases hsends : SphereWare.Sends tick s
    · have hcall : (HidCall.task tick).Sends s := hsends
      simp only [access, if_pos hsends, if_pos hcall, Access.bind_eq, Access.run_bind,
        HidAccess.run_sendHalf]
      rfl
    · have hcall : ¬(HidCall.task tick).Sends s := hsends
      rw [access, if_neg hsends, if_neg hcall, if_neg hcall]
      rfl

end SphereWare
