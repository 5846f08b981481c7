import SphereWare.Firmware.Endpoint

/-!
# The HID report buffer (GenericHID.c)

The functions that write `hid_in_buffer`, and the decoder of `hid-monitor.py` on the other side.

## Layout

| bytes | |
|---|---|
| 0 | report id |
| 1 + 2p, 2 + 2p | pad p: velocity in the low seven bits, pressure in the other nine |
| 97 | elite buttons |
| 98, 99 | dials |
| 100, 101… | number of MIDI messages, three bytes each |

The report goes out in two packets, bytes 0–63 and bytes 64–127.
-/

namespace SphereWare

/-! ## Writing -/

namespace Hid

/-- `pad_velocity & 0x7F | ((pad_value & 1) << 7)`. -/
def packFirst (velocity : UInt8) (value : Int) : UInt8 :=
  (velocity &&& 0x7F) ||| (UInt8.ofInt (value % 2) <<< (7 : UInt8))

/-- `pad_value >> 1`, stored in a byte. -/
def packSecond (value : Int) : UInt8 := UInt8.ofInt (value / 2)

/-- `GenericHID_Write_PadData`. -/
def writePadData (h : Hid) (pad : Nat) (value : Int) (velocity : UInt8) : Hid :=
  { h with
    buffer := Function.update
      (Function.update h.buffer (1 + pad * 2) (packFirst velocity value))
      (2 + pad * 2) (packSecond value) }

/-- `GenericHID_Write_PressureOnly`. -/
def writePressureOnly (h : Hid) (pad : Nat) (value : Int) : Hid :=
  { h with
    buffer := Function.update
      (Function.update h.buffer (1 + pad * 2) (packFirst (h.buffer (1 + pad * 2)) value))
      (2 + pad * 2) (packSecond value) }

/-- `GenericHID_Write_ButtonData`. -/
def writeButtonData (h : Hid) (buttons : UInt8) : Hid :=
  { h with buffer := Function.update h.buffer 97 buttons }

/-- `GenericHID_Adjust_Dial`. -/
def adjustDial (h : Hid) (dial : Nat) (amount : Int) : Hid :=
  { h with
    buffer := Function.update h.buffer (98 + dial) (h.buffer (98 + dial) + UInt8.ofInt amount) }

/-- `memset` on the buffer. -/
def fill (h : Hid) (start len : Nat) (b : UInt8) : Hid :=
  { h with buffer := fun j => if start ≤ j ∧ j < start + len then b else h.buffer j }

/-- `GenericHID_Clear`. -/
def clear (h : Hid) : Hid := h.fill 1 95 0

/-- `GenericHID_Write_MidiData`. -/
def writeMidiData (h : Hid) (d0 d1 d2 : UInt8) : Hid :=
  if h.noOfMidiInMessages.toNat ≤ 6 then
    let newMessageIndex := h.noOfMidiInMessages.toNat * 3 + 101
    let buffer := Function.update (Function.update (Function.update h.buffer
      newMessageIndex d0) (newMessageIndex + 1) d1) (newMessageIndex + 2) d2
    { h with
      buffer := Function.update buffer 100 (h.noOfMidiInMessages + 1)
      noOfMidiInMessages := h.noOfMidiInMessages + 1 }
  else h

/-- The packet `GenericHID_Task` copies out of the buffer: the half `flip` points at. -/
def half (h : Hid) : List UInt8 :=
  (List.range 64).map fun i => h.buffer (i + if h.flip then 64 else 0)

/-- What `GenericHID_Task` does to the buffer after the copy. -/
def afterHalf (h : Hid) : Hid :=
  if h.flip then
    -- the dials, the buttons and nineteen bytes of the MIDI data
    let h₁ := ((h.fill 98 2 0).fill 97 1 0).fill 100 19 0
    { h₁ with noOfMidiInMessages := 0, flip := false }
  else { h with flip := true }

end Hid

/-! ## Reading on the host -/

/-- `(pressure, velocity)` of a pad in a report, as `hid-monitor.py` decodes it. -/
def decodePad (first second : UInt8) : Nat × Nat :=
  ((first >>> (7 : UInt8)).toNat ||| second.toNat <<< 1, (first &&& 0x7F).toNat)

/-- A dial byte, as `hid-monitor.py` decodes it. -/
def decodeDial (b : UInt8) : Int := if 0x7F < b.toNat then (b.toNat : Int) - 256 else b.toNat

/-- What the host would read of pad `p` in the buffer. -/
def Hid.entry (h : Hid) (p : Nat) : Nat × Nat :=
  decodePad (h.buffer (1 + p * 2)) (h.buffer (2 + p * 2))

/-! ## Packing and unpacking -/

theorem toNat_and_7F (b : UInt8) : (b &&& 0x7F).toNat = b.toNat % 128 := by
  rw [UInt8.toNat_and]
  exact Nat.and_two_pow_sub_one_eq_mod b.toNat 7

theorem toNat_ofInt {x : Int} (h₀ : 0 ≤ x) (h₁ : x < 256) : (UInt8.ofInt x).toNat = x.toNat := by
  have hx : x % 2 ^ 8 = x := Int.emod_eq_of_lt h₀ (by omega)
  rw [UInt8.ofInt, hx, UInt8.toNat_ofNat']
  omega

theorem toNat_packFirst (velocity : UInt8) (value : Int) :
    (Hid.packFirst velocity value).toNat = velocity.toNat % 128 + 128 * (value % 2).toNat := by
  have hbit : (UInt8.ofInt (value % 2)).toNat = (value % 2).toNat :=
    toNat_ofInt (by omega) (by omega)
  have hshift : (UInt8.ofInt (value % 2) <<< (7 : UInt8)).toNat = 2 ^ 7 * (value % 2).toNat := by
    rw [UInt8.toNat_shiftLeft, hbit, show (7 : UInt8).toNat % 8 = 7 from rfl, Nat.shiftLeft_eq]
    omega
  rw [Hid.packFirst, UInt8.toNat_or, toNat_and_7F, hshift, Nat.or_comm,
    ← Nat.two_pow_add_eq_or_of_lt (by omega)]
  omega

theorem toNat_packSecond {value : Int} (h₀ : 0 ≤ value) (h₁ : value ≤ 511) :
    (Hid.packSecond value).toNat = (value / 2).toNat :=
  toNat_ofInt (by omega) (by omega)

theorem decodePad_eq (first second : UInt8) :
    decodePad first second = (first.toNat / 128 + 2 * second.toNat, first.toNat % 128) := by
  have hfirst : first.toNat < 256 := first.toNat_lt
  have hhigh : (first >>> (7 : UInt8)).toNat = first.toNat / 128 := by
    rw [UInt8.toNat_shiftRight, show (7 : UInt8).toNat % 8 = 7 from rfl, Nat.shiftRight_eq_div_pow]
  have hor : first.toNat / 128 ||| second.toNat <<< 1 = first.toNat / 128 + 2 * second.toNat := by
    rw [Nat.or_comm, Nat.shiftLeft_eq, Nat.mul_comm,
      ← Nat.two_pow_add_eq_or_of_lt (by omega)]
    omega
  rw [decodePad, toNat_and_7F, hhigh, hor]

/-! ## What each function leaves alone -/

namespace Hid

/-- A pad write packs the pair, whatever the entry was before. -/
theorem entry_writePadData_pack (h : Hid) (p : Nat) (value : Int) (velocity : UInt8) :
    (h.writePadData p value velocity).entry p
      = decodePad (packFirst velocity value) (packSecond value) := by
  rw [entry, writePadData]
  simp only [Function.update_self,
    Function.update_of_ne (show (1 + p * 2 : Nat) ≠ 2 + p * 2 by omega)]

/-- **Writing a pad and reading it back.** -/
theorem entry_writePadData (h : Hid) (p : Nat) {value : Int} (h₀ : 0 ≤ value) (h₁ : value ≤ 511)
    (velocity : UInt8) :
    (h.writePadData p value velocity).entry p = (value.toNat, velocity.toNat % 128) := by
  rw [entry_writePadData_pack, decodePad_eq, toNat_packFirst, toNat_packSecond h₀ h₁, Prod.mk.injEq]
  omega

/-- **A pressure update keeps the velocity.** -/
theorem entry_writePressureOnly (h : Hid) (p : Nat) {value : Int} (h₀ : 0 ≤ value)
    (h₁ : value ≤ 511) :
    (h.writePressureOnly p value).entry p = (value.toNat, (h.entry p).2) := by
  rw [entry, entry, writePressureOnly, decodePad_eq, decodePad_eq]
  simp only [Function.update_self,
    Function.update_of_ne (show (1 + p * 2 : Nat) ≠ 2 + p * 2 by omega), toNat_packFirst,
    toNat_packSecond h₀ h₁, Prod.mk.injEq]
  omega

/-- A pad both bytes of which are zero is silent, and no other pad is. -/
theorem entry_eq_zero_iff (h : Hid) (p : Nat) :
    h.entry p = (0, 0) ↔ h.buffer (1 + p * 2) = 0 ∧ h.buffer (2 + p * 2) = 0 := by
  have hfirst := (h.buffer (1 + p * 2)).toNat_lt
  rw [entry, decodePad_eq, Prod.mk.injEq, ← UInt8.toNat_inj, ← UInt8.toNat_inj]
  show _ ↔ _ = 0 ∧ _ = 0
  omega

theorem buffer_writePadData_second (h : Hid) (p : Nat) (value : Int) (velocity : UInt8) :
    (h.writePadData p value velocity).buffer (2 + p * 2) = packSecond value :=
  Function.update_self _ _ _

theorem buffer_writePressureOnly_second (h : Hid) (p : Nat) (value : Int) :
    (h.writePressureOnly p value).buffer (2 + p * 2) = packSecond value :=
  Function.update_self _ _ _

theorem buffer_writePadData_of_ne (h : Hid) {p j : Nat} (value : Int) (velocity : UInt8)
    (h₁ : j ≠ 1 + p * 2) (h₂ : j ≠ 2 + p * 2) :
    (h.writePadData p value velocity).buffer j = h.buffer j := by
  simp [writePadData, Function.update_of_ne, h₁, h₂]

theorem buffer_writePressureOnly_of_ne (h : Hid) {p j : Nat} (value : Int)
    (h₁ : j ≠ 1 + p * 2) (h₂ : j ≠ 2 + p * 2) :
    (h.writePressureOnly p value).buffer j = h.buffer j := by
  simp [writePressureOnly, Function.update_of_ne, h₁, h₂]

theorem buffer_fill (h : Hid) (start len : Nat) (b : UInt8) (j : Nat) :
    (h.fill start len b).buffer j = if start ≤ j ∧ j < start + len then b else h.buffer j := rfl

theorem buffer_writeButtonData (h : Hid) (buttons : UInt8) {j : Nat} (hj : j ≠ 97) :
    (h.writeButtonData buttons).buffer j = h.buffer j := Function.update_of_ne hj _ _

@[simp] theorem buffer_writeButtonData_self (h : Hid) (buttons : UInt8) :
    (h.writeButtonData buttons).buffer 97 = buttons := by
  simp [writeButtonData]

theorem buffer_adjustDial (h : Hid) (dial : Nat) (amount : Int) {j : Nat} (hj : j ≠ 98 + dial) :
    (h.adjustDial dial amount).buffer j = h.buffer j := Function.update_of_ne hj _ _

/-- MIDI data goes to byte 100 and beyond. -/
theorem buffer_writeMidiData (h : Hid) (d0 d1 d2 : UInt8) {j : Nat} (hj : j < 100) :
    (h.writeMidiData d0 d1 d2).buffer j = h.buffer j := by
  unfold writeMidiData
  split
  · simp only [Function.update_of_ne (show j ≠ 100 by omega),
      Function.update_of_ne (show j ≠ h.noOfMidiInMessages.toNat * 3 + 101 + 2 by omega),
      Function.update_of_ne (show j ≠ h.noOfMidiInMessages.toNat * 3 + 101 + 1 by omega),
      Function.update_of_ne (show j ≠ h.noOfMidiInMessages.toNat * 3 + 101 by omega)]
  · rfl

/-- Sending a half changes nothing below byte 97. -/
theorem buffer_afterHalf (h : Hid) {j : Nat} (hj : j < 97) :
    h.afterHalf.buffer j = h.buffer j := by
  unfold afterHalf
  split
  · simp only [buffer_fill, show ¬(100 ≤ j ∧ j < 100 + 19) by omega,
      show ¬(97 ≤ j ∧ j < 97 + 1) by omega, show ¬(98 ≤ j ∧ j < 98 + 2) by omega, if_false]
  · rfl

/-- A second half takes the buttons away. -/
theorem buffer_buttons_afterHalf (h : Hid) :
    h.afterHalf.buffer 97 = if h.flip then 0 else h.buffer 97 := by
  unfold afterHalf
  split <;> rfl

@[simp] theorem flip_afterHalf (h : Hid) : h.afterHalf.flip = !h.flip := by
  unfold afterHalf
  split <;> simp_all

theorem length_half (h : Hid) : h.half.length = 64 := by simp [half]

/-- The bytes of a packet. -/
theorem getElem?_half (h : Hid) {i : Nat} (hi : i < 64) :
    h.half[i]? = some (h.buffer (i + if h.flip then 64 else 0)) := by
  simp [half, hi]

end Hid

end SphereWare
