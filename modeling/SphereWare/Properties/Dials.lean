import SphereWare.Accumulator.Drain
import SphereWare.Spec.HidRun

/-!
# The dials

A dial byte adds up the turns of the dial until a second half takes it away. The host adds up what
it reads. Nothing is lost or counted twice, as long as the turns between two second halves fit in a
signed byte; where they do not, a multiple of 256 is lost.

The exact count of turns is a drained accumulator of integers. The byte is its image.
-/

namespace SphereWare

open Interrupt Prog Accumulator

variable {s : Firmware} {calls : Nat → HidCall} {d : Fin 2} {n : Nat}

/-! ## What is counted -/

/-- By how much the call turns the dial. -/
def HidCall.turn (d : Fin 2) : HidCall → Int
  | .adjustDial dial amount => if dial = d then amount else 0
  | _ => 0

/-- The sum of the adjustments of the dial by the calls before the one with index `n`. -/
def adjustments (calls : Nat → HidCall) (d : Fin 2) : Nat → Int
  | 0 => 0
  | n + 1 => adjustments calls d n + (calls n).turn d

/-- The dial in the second halves, as the host reads it. -/
def dialsSent (s : Firmware) (calls : Nat → HidCall) (d : Fin 2) (n : Nat) : List Int :=
  (secondHalves s calls n).map fun data => decodeDial (data.getD (34 + d.val) 0)

/-- The dial in the buffer, as the host would read it. -/
def pendingDial (s : Firmware) (calls : Nat → HidCall) (d : Fin 2) (n : Nat) : Int :=
  decodeDial ((stateAt s calls n).hid.buffer (98 + d.val))

/-! ## The dial as an accumulator -/

theorem decodeDial_ofInt (x : Int) : decodeDial (UInt8.ofInt x) = i8 x := by
  have htoNat : (UInt8.ofInt x).toNat = (x % 256).toNat := by
    rw [UInt8.ofInt, UInt8.toNat_ofNat']
    omega
  rw [decodeDial, htoNat, i8]
  split <;> omega

theorem i8_modEq (x : Int) : i8 x ≡ x [ZMOD 256] := by
  rw [i8, Int.ModEq]
  omega

/-- What the call with index `n` does to the dial. -/
def dialOp (s : Firmware) (calls : Nat → HidCall) (d : Fin 2) (n : Nat) : Option (Op Int) :=
  if SendsSecond s calls n then some .drain else some (.put ((calls n).turn d))

theorem dialOp_drains : Drains (dialOp s calls d) = SendsSecond s calls := by
  funext m
  by_cases h : SendsSecond s calls m <;> simp [Drains, dialOp, h]

theorem putSum_dialOp (n : Nat) : putSum (dialOp s calls d) n = adjustments calls d n := by
  induction n with
  | zero => rfl
  | succ n ih =>
    rw [putSum, adjustments, ih]
    by_cases h : SendsSecond s calls n
    · have hturn : (calls n).turn d = 0 := by
        cases hc : calls n with
        | adjustDial dial amount =>
          have hsends := h.1
          rw [hc] at hsends
          exact hsends.elim
        | _ => rfl
      rw [show dialOp s calls d n = some .drain from if_pos h, hturn]
    · rw [show dialOp s calls d n = some (.put ((calls n).turn d)) from if_neg h]

theorem HidCall.buffer_dial_write (c : HidCall) (h : Hid) (d : Fin 2) :
    (c.write h).buffer (98 + d.val) = h.buffer (98 + d.val) + UInt8.ofInt (c.turn d) := by
  have hd : d.val < 2 := d.isLt
  have hzero : h.buffer (98 + d.val) = h.buffer (98 + d.val) + UInt8.ofInt 0 :=
    (UInt8.add_zero _).symm
  cases c with
  | padData pad value velocity =>
    have hpad : pad.val < 48 := pad.isLt
    exact (h.buffer_writePadData_of_ne value velocity (by omega) (by omega)).trans hzero
  | pressureOnly pad value =>
    have hpad : pad.val < 48 := pad.isLt
    exact (h.buffer_writePressureOnly_of_ne value (by omega) (by omega)).trans hzero
  | buttonData buttons => exact (h.buffer_writeButtonData buttons (by omega)).trans hzero
  | adjustDial dial amount =>
    show (h.adjustDial dial amount).buffer (98 + d.val)
      = h.buffer (98 + d.val) + UInt8.ofInt (if dial = d then amount else 0)
    split
    · next heq =>
      rw [heq]
      exact Function.update_self _ _ _
    · next hne =>
      have hval : dial.val ≠ d.val := fun hval => hne (Fin.ext hval)
      exact (h.buffer_adjustDial dial amount (by omega)).trans hzero
  | clear =>
    have hclear : h.clear.buffer (98 + d.val) = h.buffer (98 + d.val) := by
      rw [Hid.clear, Hid.buffer_fill, if_neg (by omega)]
    exact hclear.trans hzero
  | midi b0 b1 b2 => exact (h.buffer_writeMidiData b0 b1 b2 (by omega)).trans hzero
  | bus event => exact hzero
  | task tick => exact hzero

theorem Hid.buffer_dial_afterHalf (h : Hid) (d : Fin 2) (hflip : h.flip = true) :
    h.afterHalf.buffer (98 + d.val) = 0 := by
  have hd : d.val < 2 := d.isLt
  rw [afterHalf, if_pos hflip]
  show (((h.fill 98 2 0).fill 97 1 0).fill 100 19 0).buffer (98 + d.val) = 0
  rw [buffer_fill, if_neg (by omega), buffer_fill, if_neg (by omega), buffer_fill,
    if_pos (by omega)]

/-- **The byte and the second halves are the image of the exact count.** -/
theorem dial_simulates (calls : Nat → HidCall) (d : Fin 2) (n : Nat) :
    (stateAt powerOn calls n).hid.buffer (98 + d.val)
        = UInt8.ofInt (bufferAt always (dialOp powerOn calls d) n).pending ∧
      dialsSent powerOn calls d n
        = (bufferAt always (dialOp powerOn calls d) n).drained.map i8 := by
  induction n with
  | zero =>
    refine ⟨?_, rfl⟩
    show (if 98 + d.val = 0 then (1 : UInt8) else 0) = UInt8.ofInt 0
    rw [if_neg (by omega)]
    rfl
  | succ n ih =>
    obtain ⟨hbyte, hsent⟩ := ih
    by_cases h : SendsSecond powerOn calls n
    · have hop : dialOp powerOn calls d n = some .drain := if_pos h
      rw [bufferAt_some hop, stateAt_hid_of_sends h, dialsSent, secondHalves_of_sends h,
        List.map_append, ← dialsSent, hsent]
      have hd : d.val < 2 := d.isLt
      have hdata : (stateAt powerOn calls n).hid.half.getD (34 + d.val) 0
          = (stateAt powerOn calls n).hid.buffer (98 + d.val) := by
        rw [List.getD_eq_getElem?_getD, Hid.getElem?_half _ (by omega), h.2, if_pos rfl,
          Nat.add_right_comm]
        rfl
      refine ⟨Hid.buffer_dial_afterHalf _ d h.2, ?_⟩
      rw [Buffer.apply, List.map_append, List.map_singleton, List.map_singleton, hdata, hbyte,
        decodeDial_ofInt]
    · have hop : dialOp powerOn calls d n = some (.put ((calls n).turn d)) := if_neg h
      rw [bufferAt_some hop, (stateAt_hid_of_not h).1, HidCall.buffer_dial_write, hbyte,
        ← UInt8.ofInt_add, dialsSent, secondHalves_of_not h, ← dialsSent, hsent]
      exact ⟨rfl, rfl⟩

/-! ## Conservation -/

/-- Equality modulo 256 as a congruence. -/
def modCon : AddCon Int where
  r := Int.ModEq 256
  iseqv := ⟨Int.ModEq.refl, Int.ModEq.symm, Int.ModEq.trans⟩
  add' := Int.ModEq.add

/--
**No turn is lost or counted twice.** What the host has read and what is pending agree with the
adjustments modulo 256, and they are equal if the adjustments in each stretch, from the start or a
second half to the next second half or to the present, fit in a signed byte.
-/
theorem dials_conserved (calls : Nat → HidCall) (d : Fin 2) (n : Nat) :
    (dialsSent powerOn calls d n).sum + pendingDial powerOn calls d n
        ≡ adjustments calls d n [ZMOD 256] ∧
      ((∀ a b, Stretch (SendsSecond powerOn calls) n a b →
          -128 ≤ adjustments calls d b - adjustments calls d a ∧
            adjustments calls d b - adjustments calls d a ≤ 127) →
        (dialsSent powerOn calls d n).sum + pendingDial powerOn calls d n
          = adjustments calls d n) := by
  obtain ⟨hbyte, hsent⟩ := dial_simulates calls d n
  have haccepted : (accepted always (dialOp powerOn calls d) n).sum = adjustments calls d n := by
    rw [sum_accepted_always, putSum_dialOp]
  rw [pendingDial, hbyte, decodeDial_ofInt, hsent, ← haccepted]
  constructor
  -- a byte is read modulo 256 each time, and the sum is a sum of bytes
  · exact portions_sum_congr modCon fun x _ => i8_modEq x
  · intro hrange
    refine portions_sum_congr (⊥ : AddCon Int) fun x hx => ?_
    obtain ⟨a, b, hstretch, hsub⟩ := portion_eq_sub hx
    rw [dialOp_drains] at hstretch
    rw [putSum_dialOp, putSum_dialOp] at hsub
    obtain ⟨h₁, h₂⟩ := hrange a b hstretch
    rw [hsub]
    exact i8_of_range h₁ h₂

/-! ## Calls of the firmware -/

/-- The calls of the firmware: a dial moves by one. -/
def HidCall.DialTraffic : HidCall → Prop
  | .adjustDial _ amount => amount = 1 ∨ amount = -1
  | _ => True

/-- The dial is turned before, between and after the two halves of a report. -/
def turnedAround : Nat → HidCall
  | 0 => .bus .connect
  | 1 => .bus .reset
  | 2 => .bus .setAddress
  | 3 => .bus .setConfiguration
  | 4 | 5 | 7 => .adjustDial 0 1
  | 9 => .adjustDial 0 (-1)
  | _ => .task .ready

/-- Three turns go out with the second half, and one back is pending. -/
theorem dials_conserved_turnedAround :
    dialsSent powerOn turnedAround 0 10 = [3] ∧
      (dialsSent powerOn turnedAround 0 10).sum + pendingDial powerOn turnedAround 0 10 = 2 := by
  refine ⟨by decide +kernel, ?_⟩
  have hbounds : ∀ n < 11,
      0 ≤ adjustments turnedAround 0 n ∧ adjustments turnedAround 0 n ≤ 3 := by decide
  refine (dials_conserved turnedAround 0 10).2 ?_
  rintro a b ⟨hab, hb, -⟩
  have ha' := hbounds a (by omega)
  have hb' := hbounds b (by omega)
  omega

/-! ## Turns before the first packet -/

theorem adjustments_turning (n : Nat) :
    adjustments (fun _ => .adjustDial 0 1) 0 n = n := by
  induction n with
  | zero => rfl
  | succ n ih => rw [adjustments, ih, Nat.cast_succ]; rfl

theorem not_sendsSecond_turning (n : Nat) :
    ¬SendsSecond powerOn (fun _ => .adjustDial 0 1) n := fun h => h.1

/--
The stretches between two second halves are not enough: before the first packet 128 turns are
counted as -128.
-/
theorem not_dials_between_packets : ¬∀ (calls : Nat → HidCall), (∀ k, (calls k).DialTraffic) →
    ∀ (d : Fin 2) (n : Nat),
      (dialsSent powerOn calls d n).sum + pendingDial powerOn calls d n
          ≡ adjustments calls d n [ZMOD 256] ∧
        ((∀ a b, a < b → b < n → SendsSecond powerOn calls a → SendsSecond powerOn calls b →
            (∀ m, a < m → m < b → ¬SendsSecond powerOn calls m) →
            -128 ≤ adjustments calls d b - adjustments calls d a ∧
              adjustments calls d b - adjustments calls d a ≤ 127) →
          (dialsSent powerOn calls d n).sum + pendingDial powerOn calls d n
            = adjustments calls d n) := by
  intro h
  have hequal := (h (fun _ => .adjustDial 0 1) (fun _ => Or.inl rfl) 0 128).2
    fun a _ _ _ ha => absurd ha (not_sendsSecond_turning a)
  rw [adjustments_turning] at hequal
  have hsum : (dialsSent powerOn (fun _ => .adjustDial 0 1) 0 128).sum
      + pendingDial powerOn (fun _ => .adjustDial 0 1) 0 128 = -128 := by decide +kernel
  rw [hsum] at hequal
  exact absurd hequal (by decide)

end SphereWare
