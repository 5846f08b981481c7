import SphereWare.Firmware.Frame

/-!
# Standby

In standby the thresholds are raised. A tick that begins or ends standby notes down in
`thresholds_raised` what it does to the thresholds, so what is left of these without the standby
offset stays as it is.
-/

namespace SphereWare

open Interrupt Prog

/-! ## Thresholds without standby -/

/-- The standby offset. -/
def Standby.raised (b : Standby) : BitVec 16 := if b.thresholdsRaised then 100 else 0

/-- The thresholds of the velocity pads without it. -/
def Standby.base (b : Standby) : Nat → BitVec 16 :=
  fun p => if p < 40 then b.initVal p - b.raised else 0

@[simp] theorem Standby.raised_setInitVal (b : Standby) (pad : Nat) (y : BitVec 16) :
    (b.setInitVal pad y).raised = b.raised := rfl

@[simp] theorem Standby.initVal_setInitVal (b : Standby) (pad : Nat) (y : BitVec 16) :
    (b.setInitVal pad y).initVal = Function.update b.initVal pad y := rfl

theorem Standby.base_setInitVal (b : Standby) {pad : Nat} (hpad : pad < 40) (y : BitVec 16) :
    (b.setInitVal pad y).base = Function.update b.base pad (y - b.raised) := by
  funext p
  by_cases hp : p = pad
  · simp [hp, base, hpad]
  · simp [base, Function.update_of_ne hp]

/-- Adding to a threshold is adding to what is left of it without the standby offset. -/
theorem Standby.add_sub_raised (b : Standby) {pad : Nat} (hpad : pad < 40) (d : BitVec 16) :
    b.initVal pad + d - b.raised = b.base pad + d := by
  rw [base, if_pos hpad]
  grind

/-! ## Ticks -/

/-- A tick in this state begins or ends standby. -/
def tickFlips (s : Firmware) : Bool :=
  (s.standby.tick s.pads.anyPlayed).thresholdsRaised != s.standby.thresholdsRaised

/-- A tick that neither begins nor ends standby leaves the thresholds alone. -/
theorem Standby.tick_of_not_flips {s : Firmware} (h : tickFlips s = false) :
    (s.standby.tick s.pads.anyPlayed).initVal = s.standby.initVal ∧
      (s.standby.tick s.pads.anyPlayed).thresholdsRaised = s.standby.thresholdsRaised := by
  have hsame : (s.standby.tick s.pads.anyPlayed).thresholdsRaised = s.standby.thresholdsRaised := by
    simpa [tickFlips] using h
  refine ⟨?_, hsame⟩
  revert hsame
  unfold tick
  split
  · split
    · next hraised => exact fun hsame => absurd (hsame.trans hraised) Bool.false_ne_true
    · exact fun _ => rfl
  · split
    · split
      · exact fun _ => rfl
      · next hraised => exact fun hsame => absurd hsame.symm hraised
    · exact fun _ => rfl

theorem Standby.raised_tick (b : Standby) (any : Bool) :
    (b.tick any).thresholdsRaised
      = (!any && (b.thresholdsRaised || decide (20000 < b.count + 1))) := by
  unfold tick
  cases any <;> cases b.thresholdsRaised <;> by_cases h : 20000 < b.count + 1 <;> simp [h]

theorem Standby.count_tick (b : Standby) (any : Bool) :
    (b.tick any).count = if any = true ∨ 20000 < b.count + 1 then 0 else b.count + 1 := by
  unfold tick
  cases any <;> cases b.thresholdsRaised <;> by_cases h : 20000 < b.count + 1 <;> simp [h]

/-- The thresholds after a tick: the standby offset there was is taken off, the new one added. -/
theorem Standby.initVal_tick (b : Standby) (any : Bool) {pad : Nat} (hpad : pad < numPads) :
    (b.tick any).initVal pad = b.initVal pad - b.raised + (b.tick any).raised := by
  unfold tick raised
  split
  · split
    · simp [shift, hpad, BitVec.sub_eq_add_neg]
    · simp
  · split
    · split
      · exact (BitVec.sub_add_cancel _ _).symm
      · simp [shift, hpad]
    · exact (BitVec.sub_add_cancel _ _).symm

/-- Whatever a tick does to the thresholds, it notes down in `thresholds_raised`. -/
theorem Standby.base_tick (b : Standby) (any : Bool) : (b.tick any).base = b.base := by
  funext p
  unfold base
  split
  · next hp =>
    rw [b.initVal_tick any (Nat.lt_trans hp (by decide)), BitVec.add_sub_cancel]
  · rfl

end SphereWare
