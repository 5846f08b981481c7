import SphereWare.Spec.HidRun
import SphereWare.Spec.MainFrame
import SphereWare.Spec.ScanView

/-!
# Clearing the pads

`GenericHID_Clear` zeroes 95 bytes from byte 1 on. The 48 pads take up the 96 bytes from 1 to 96:
the second byte of the last pad is left as it was.
-/

namespace SphereWare

open Interrupt Prog

variable {calls : Nat → HidCall} {n : Nat}

/-! ## Reports without a sound -/

/-- The host reads every pad as released. -/
def Hid.Silent (h : Hid) : Prop := ∀ p < numPads, h.entry p = (0, 0)

/-- What a clear is to make of the report: all pads silent and nothing else changed. -/
structure Silenced (h h' : Hid) : Prop where
  pads : h'.Silent
  reportId : h'.buffer 0 = h.buffer 0
  controls : ∀ j, 97 ≤ j → h'.buffer j = h.buffer j

namespace Hid

theorem buffer_clear (h : Hid) (j : Nat) :
    h.clear.buffer j = if 1 ≤ j ∧ j < 96 then 0 else h.buffer j := h.buffer_fill 1 95 0 j

/-- **All pads are silent if bytes 1 to 95 are zero and byte 96 is too.** -/
theorem silent_iff (h : Hid) (hclear : ∀ j, 1 ≤ j → j < 96 → h.buffer j = 0) :
    h.Silent ↔ h.buffer 96 = 0 := by
  constructor
  · intro hsilent
    exact ((h.entry_eq_zero_iff 47).mp (hsilent 47 (by decide))).2
  · intro hlast p hp
    have hp48 : p < 48 := hp
    rw [entry_eq_zero_iff]
    refine ⟨hclear _ (by omega) (by omega), ?_⟩
    rcases Nat.lt_or_eq_of_le (Nat.le_of_lt_succ hp48) with hlt | rfl
    · exact hclear _ (by omega) (by omega)
    · exact hlast

theorem silenced_clear_iff (h : Hid) : Silenced h h.clear ↔ h.buffer 96 = 0 := by
  have hpads : h.clear.Silent ↔ h.buffer 96 = 0 := by
    rw [silent_iff]
    · rw [buffer_clear, if_neg (by decide)]
    · intro j h₁ h₂
      rw [buffer_clear, if_pos ⟨h₁, h₂⟩]
  constructor
  · intro hsilenced
    exact hpads.mp hsilenced.pads
  · intro hlast
    refine ⟨hpads.mpr hlast, ?_, fun j hj => ?_⟩
    · rw [buffer_clear, if_neg (by decide)]
    · rw [buffer_clear, if_neg (by omega)]

end Hid

/-! ## The last pad -/

/-- The pressure of the last pad after a call that found `old` there. -/
def HidCall.lastPad (old : Int) : HidCall → Int
  | .padData pad value _ => if pad.val = 47 then value else old
  | .pressureOnly pad value => if pad.val = 47 then value else old
  | _ => old

/-- The pressure the calls before the one with index `n` wrote last for the last pad. -/
def lastPressure (calls : Nat → HidCall) : Nat → Int
  | 0 => 0
  | n + 1 => (calls n).lastPad (lastPressure calls n)

theorem HidCall.write_buffer_96 (c : HidCall) {h : Hid} {old : Int}
    (hold : h.buffer 96 = Hid.packSecond old) :
    (c.write h).buffer 96 = Hid.packSecond (c.lastPad old) := by
  cases c with
  | padData pad value velocity =>
    rw [write, lastPad]
    split
    · next hpad =>
      rw [hpad]
      exact h.buffer_writePadData_second 47 value velocity
    · next hpad => rw [h.buffer_writePadData_of_ne value velocity (by omega) (by omega), hold]
  | pressureOnly pad value =>
    rw [write, lastPad]
    split
    · next hpad =>
      rw [hpad]
      exact h.buffer_writePressureOnly_second 47 value
    · next hpad => rw [h.buffer_writePressureOnly_of_ne value (by omega) (by omega), hold]
  | buttonData buttons => exact (h.buffer_writeButtonData buttons (by decide)).trans hold
  | adjustDial dial amount => exact (h.buffer_adjustDial dial amount (by omega)).trans hold
  | clear => exact (h.buffer_clear 96).trans hold
  | midi b0 b1 b2 => exact (h.buffer_writeMidiData b0 b1 b2 (by decide)).trans hold
  | bus event => exact hold
  | task tick => exact hold

/-- **Byte 96 holds what was written last, however often it was cleared.** -/
theorem stateAt_buffer_96 (calls : Nat → HidCall) (n : Nat) :
    (stateAt powerOn calls n).hid.buffer 96 = Hid.packSecond (lastPressure calls n) := by
  induction n with
  | zero => rfl
  | succ n ih =>
    rw [stateAt_hid, lastPressure]
    split
    · next hsends =>
      rw [Hid.buffer_afterHalf _ (by decide), ← HidCall.write_buffer_96 (calls n) ih,
        HidCall.write_of_sends hsends]
    · exact HidCall.write_buffer_96 (calls n) ih

theorem packSecond_eq_zero_iff (value : Int) : Hid.packSecond value = 0 ↔ value / 2 % 256 = 0 := by
  have hbyte : (Hid.packSecond value).toNat = (value / 2 % 256).toNat := by
    rw [Hid.packSecond, UInt8.ofInt, UInt8.toNat_ofNat']
    show (value / 2 % 256).toNat % 256 = _
    omega
  rw [← UInt8.toNat_inj, hbyte]
  show _ = 0 ↔ _
  omega

/-! ## Calibration -/

/-- The bytes of the report the interrupt does not touch. -/
def padBytes (s : Firmware) : Fin 97 → UInt8 := fun j => s.hid.buffer j

theorem padBytes_sound : (Rely.ofView padBytes).Sound avr := by
  refine Rely.ofView_sound (fun _ => rfl) (fun _ => rfl) (Keeps.mono (fun s t h => ?_)
    timerHandler_keeps)
  simp only [SameOn, handlerView, Prod.mk.injEq] at h
  exact h.2.1

theorem hid_calibrates : Calibrates (SameOn Firmware.hid) where
  iflag _ _ := rfl
  mux _ _ := rfl
  r2r _ _ := rfl
  adc _ _ := rfl
  order _ _ _ := rfl
  threshold _ _ := rfl
  filtered _ _ := rfl
  thresholdSe _ _ := rfl

/-- Of a view of the report, calibration keeps what clearing a byte keeps. -/
theorem calibrate_keeps_hid {τ : Type} {f : Hid → τ}
    (hf : ∀ (h : Hid) (j : Nat), 1 ≤ j → j < 96 → f (h.fill j 1 0) = f h) :
    calibrate.Keeps (SameOn fun s : Firmware => f s.hid) := by
  have hcalibrates : Calibrates (SameOn fun s : Firmware => f s.hid) :=
    hid_calibrates.mono fun _ _ h => congrArg f h
  exact hcalibrates.calibrate_keeps
    (calibrateReset_keeps (genericHIDClear_keeps fun s j h₁ h₂ => hf s.hid j h₁ h₂) fun _ _ => rfl)

/-- The bytes below 97 with those from 1 up to `k` cleared. -/
def clearBytes (k : Nat) (b : Fin 97 → UInt8) : Fin 97 → UInt8 := fun j =>
  if 1 ≤ j.val ∧ j.val < k then 0 else b j

theorem calibrate_padBytes {b : Fin 97 → UInt8} :
    Spec avr padBytes b calibrate fun _ b' => b' = clearBytes 96 b := by
  have hcalibrates : Calibrates (SameOn padBytes) :=
    hid_calibrates.mono fun s t h => congrArg (fun (h : Hid) (j : Fin 97) => h.buffer j) h
  have hclear : Spec avr padBytes b genericHIDClear fun _ b' => b' = clearBytes 96 b := by
    refine Spec.forEach_range' (fun k b' => b' = clearBytes k b) (fun k h₁ _ w hw => ?_) ?_
    · refine Spec.act _ (fun s hs => funext fun j => ?_) rfl
      have hbyte : s.hid.buffer j = clearBytes k b j := congrFun (hs.trans hw) j
      show (if k ≤ j.val ∧ j.val < k + 1 then 0 else s.hid.buffer j) = clearBytes (k + 1) b j
      rw [hbyte, clearBytes, clearBytes]
      split_ifs <;> first | rfl | omega
    · funext j
      exact (if_neg (by omega)).symm
  refine hcalibrates.calibrate_spec (Spec.bind hclear fun _ w hw => Spec.keeps ?_ fun _ => hw)
  iterate 4 refine Keeps.bind (Keeps.act fun _ => rfl) fun _ => ?_
  exact Keeps.act fun _ => rfl

/-- **After a calibration the pads are silent if byte 96 was zero.** -/
theorem silent_of_calibrate {sched : Sched Input} {codes : Nat → Nat} {s t : Firmware}
    (hrun : calibrate.run avr sched s = some (codes, t)) :
    t.hid.Silent ↔ s.hid.buffer 96 = 0 := by
  have hbytes : padBytes t = clearBytes 96 (padBytes s) :=
    Spec.run padBytes_sound (Q := fun _ b => b = clearBytes 96 (padBytes s)) calibrate_padBytes hrun
  have hbyte (j : Nat) (hj : j < 97) :
      t.hid.buffer j = if 1 ≤ j ∧ j < 96 then 0 else s.hid.buffer j := congrFun hbytes ⟨j, hj⟩
  have hclear : ∀ j, 1 ≤ j → j < 96 → t.hid.buffer j = 0 := by
    intro j h₁ h₂
    rw [hbyte j (by omega), if_pos ⟨h₁, h₂⟩]
  have hlast : t.hid.buffer 96 = s.hid.buffer 96 := by
    rw [hbyte 96 (by decide), if_neg (by decide)]
  rw [Hid.silent_iff _ hclear, hlast]

/-! ## Every sequence of calls -/

/-- What is to hold of a clear, and of a calibration, in the state `s`. -/
structure ClearsPads (s : Firmware) : Prop where
  clear : Silenced s.hid s.hid.clear
  calibrated : ∀ sched codes t, calibrate.run avr sched s = some (codes, t) → t.hid.Silent
  frame : ∀ j, j = 0 ∨ 97 ≤ j → calibrate.Keeps (SameOn fun t : Firmware => t.hid.buffer j)

/--
**When a clear silences every pad and nothing else.** After every sequence of calls: exactly if the
last pressure written for the last pad has no bit in its second byte.
-/
theorem clearsPads_iff (calls : Nat → HidCall) (n : Nat) :
    ClearsPads (stateAt powerOn calls n) ↔ lastPressure calls n / 2 % 256 = 0 := by
  rw [← packSecond_eq_zero_iff, ← stateAt_buffer_96]
  constructor
  · intro h
    exact (Hid.silenced_clear_iff _).mp h.clear
  · intro hlast
    refine ⟨(Hid.silenced_clear_iff _).mpr hlast, ?_, ?_⟩
    · intro sched codes t hrun
      exact (silent_of_calibrate hrun).mpr hlast
    · intro j hj
      refine calibrate_keeps_hid (f := fun h => h.buffer j) fun h k h₁ h₂ => ?_
      rw [Hid.buffer_fill, if_neg (by omega)]

/-- The last pad is pressed and nothing is released before the clear. -/
def lastPadPressed : Nat → HidCall := fun _ => .padData ⟨47, by decide⟩ 511 127

/-- A pressure of 510 is left. -/
theorem not_clearsPads : ¬∀ (calls : Nat → HidCall) (n : Nat),
    ClearsPads (stateAt powerOn calls n) := by
  intro h
  have hlast := (clearsPads_iff lastPadPressed 1).mp (h lastPadPressed 1)
  exact absurd hlast (by decide)

end SphereWare
