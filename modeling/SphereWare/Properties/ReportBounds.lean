import SphereWare.Properties.Alignment
import SphereWare.Spec.HidAccess

/-!
# Bounds of the report buffer

`hid_in_buffer` has 127 bytes. The writers of the pads, the buttons, the dials and the MIDI messages
stay below byte 122. `GenericHID_Task` sends two halves of 64 bytes: the second one ends with
byte 127, which is behind the buffer.
-/

namespace SphereWare

open Memory Access

variable {calls : Nat → HidCall} {n : Nat}

/-! ## One call -/

/-- All elements of the report buffer that the call reads or writes exist. -/
def HidCall.InBounds (c : HidCall) (s : Firmware) : Prop :=
  (c.access s).Within genericReportSize s.hid.buffer

/-- On an array of the length of the report buffer only a call in bounds comes to its end. -/
theorem HidCall.inBounds_iff_runOn (c : HidCall) (s : Firmware)
    {v : Vector UInt8 genericReportSize} (hv : Represents v s.hid.buffer) :
    c.InBounds s ↔ ((c.access s).runOn v).isSome = true :=
  (runOn_isSome_iff (c.access s) hv).symm

/-- There it leaves the report as it is after the call, and returns the packet the call sends. -/
theorem HidCall.runOn_eq (c : HidCall) (s : Firmware) {v w : Vector UInt8 genericReportSize}
    (hv : Represents v s.hid.buffer) {data : Option (List UInt8)}
    (hrun : (c.access s).runOn v = some (data, w)) :
    data = (c.packet s).map Packet.data ∧ Represents w (c.step s).hid.buffer := by
  have hsame := runOn_eq_some (c.access s) hv hrun
  rw [c.run_access s] at hsame
  exact hsame

theorem within_then {len : Nat} {m : Nat → UInt8} {p : HidAccess Unit} {a : Option (List UInt8)} :
    ((p.bind fun _ => ret a).Within len m) ↔ p.Within len m := by
  simp [Within]

/-- The message goes to the bytes from 101 on, and there is room for seven. -/
theorem writeMidiData_within (no d0 d1 d2 : UInt8) (m : Nat → UInt8) :
    (HidAccess.writeMidiData no d0 d1 d2).Within genericReportSize m := by
  unfold HidAccess.writeMidiData
  split
  · intro i hi
    simp only [bind_eq, indices_bind, indices_set, List.cons_append, List.nil_append,
      List.mem_cons, List.not_mem_nil, or_false] at hi
    unfold genericReportSize
    omega
  · intro i hi
    exact absurd hi List.not_mem_nil

/-- The first half is in bounds, the second is not. -/
theorem sendHalf_within_iff (flip : Bool) (m : Nat → UInt8) :
    (HidAccess.sendHalf flip).Within genericReportSize m ↔ flip = false := by
  constructor
  · intro hwithin
    by_contra hflip
    have hflip' : flip = true := by simpa using hflip
    subst hflip'
    have hlast : 127 ∈ (HidAccess.sendHalf true).indices m := by
      rw [HidAccess.sendHalf, bind_eq, indices_bind, indices_getAll]
      exact List.mem_append_left _ (List.mem_map.mpr ⟨63, by decide, rfl⟩)
    exact absurd (hwithin 127 hlast) (by decide)
  · rintro rfl i hi
    have hmem : i ∈ (List.range 64).map fun i => i + 0 := by
      simpa [HidAccess.sendHalf] using hi
    obtain ⟨j, hj, rfl⟩ := List.mem_map.mp hmem
    have hlt : j < 64 := List.mem_range.mp hj
    unfold genericReportSize
    omega

/-- **A call is in bounds unless it sends a second half.** -/
theorem HidCall.inBounds_iff (c : HidCall) (s : Firmware) :
    c.InBounds s ↔ ¬(c.Sends s ∧ s.hid.flip = true) := by
  have hnone {p : HidAccess Unit} (hp : p.Within genericReportSize s.hid.buffer) :
      (p.bind fun _ => ret (none : Option (List UInt8))).Within genericReportSize s.hid.buffer :=
    within_then.mpr hp
  cases c with
  | padData pad value velocity =>
    have hpad : pad.val < 48 := pad.isLt
    refine ⟨fun _ h => h.1.elim, fun _ => hnone fun i hi => ?_⟩
    simp only [HidAccess.writePadData, bind_eq, indices_bind, indices_set, List.cons_append,
      List.nil_append, List.mem_cons, List.not_mem_nil, or_false] at hi
    unfold genericReportSize
    omega
  | pressureOnly pad value =>
    have hpad : pad.val < 48 := pad.isLt
    refine ⟨fun _ h => h.1.elim, fun _ => hnone fun i hi => ?_⟩
    simp only [HidAccess.writePressureOnly, bind_eq, indices_bind, indices_set, indices_get,
      List.cons_append, List.nil_append, List.mem_cons, List.not_mem_nil, or_false] at hi
    unfold genericReportSize
    omega
  | buttonData buttons =>
    refine ⟨fun _ h => h.1.elim, fun _ => hnone fun i hi => ?_⟩
    simp only [HidAccess.writeButtonData, indices_set, List.mem_singleton] at hi
    unfold genericReportSize
    omega
  | adjustDial dial amount =>
    have hdial : dial.val < 2 := dial.isLt
    refine ⟨fun _ h => h.1.elim, fun _ => hnone fun i hi => ?_⟩
    simp only [HidAccess.adjustDial, bind_eq, indices_bind, indices_set, indices_get,
      List.cons_append, List.nil_append, List.mem_cons, List.not_mem_nil, or_false] at hi
    unfold genericReportSize
    omega
  | clear =>
    refine ⟨fun _ h => h.1.elim, fun _ => hnone fun i hi => ?_⟩
    rw [HidAccess.clear, indices_setAll, List.mem_range'_1] at hi
    unfold genericReportSize
    omega
  | midi b0 b1 b2 =>
    exact ⟨fun _ h => h.1.elim, fun _ => hnone (writeMidiData_within _ b0 b1 b2 _)⟩
  | bus event => exact ⟨fun _ h => h.1.elim, fun _ i hi => absurd hi List.not_mem_nil⟩
  | task tick =>
    by_cases hsends : SphereWare.Sends tick s
    · have hcall : (HidCall.task tick).Sends s := hsends
      have hwithin := sendHalf_within_iff s.hid.flip s.hid.buffer
      have hsame : (HidCall.task tick).InBounds s ↔
          (HidAccess.sendHalf s.hid.flip).Within genericReportSize s.hid.buffer := by
        simp [HidCall.InBounds, HidCall.access, hsends, Within]
      rw [hsame, hwithin, ← Bool.not_eq_true]
      exact ⟨fun hflip h => hflip h.2, fun h hflip => h ⟨hcall, hflip⟩⟩
    · refine ⟨fun _ h => hsends h.1, fun _ i hi => ?_⟩
      rw [HidCall.access, if_neg hsends] at hi
      exact absurd hi List.not_mem_nil

/-! ## Every sequence of calls -/

/-- The calls before the one with index `n`, from power-on, are all in bounds. -/
def AllInBounds (calls : Nat → HidCall) (n : Nat) : Prop :=
  ∀ k < n, (calls k).InBounds (stateAt powerOn calls k)

/-- The second packet is the first second half. -/
theorem exists_sendsSecond_iff :
    (∃ k < n, SendsSecond powerOn calls k) ↔ 2 ≤ sentBefore powerOn calls n := by
  have hflip (k : Nat) : (stateAt powerOn calls k).hid.flip = (sentBefore powerOn calls k).bodd :=
    (stateAt_flip_eq powerOn calls k).trans (Bool.false_xor _)
  constructor
  · rintro ⟨k, hk, hsends, hsecond⟩
    rw [hflip] at hsecond
    have hodd : sentBefore powerOn calls k ≠ 0 := by
      intro hzero
      rw [hzero, Nat.bodd_zero] at hsecond
      exact Bool.false_ne_true hsecond
    have hnext : sentBefore powerOn calls (k + 1) = sentBefore powerOn calls k + 1 := by
      rw [sentBefore, if_pos hsends]
    have hmono : sentBefore powerOn calls (k + 1) ≤ sentBefore powerOn calls n := sentBefore_mono hk
    omega
  · intro htwo
    induction n with
    | zero =>
      rw [sentBefore] at htwo
      omega
    | succ n ih =>
      rcases Nat.lt_or_ge (sentBefore powerOn calls n) 2 with hlt | hge
      · rw [sentBefore] at htwo
        have hsends : (calls n).Sends (stateAt powerOn calls n) := by
          by_contra hnot
          rw [if_neg hnot] at htwo
          omega
        have hone : sentBefore powerOn calls n = 1 := by
          rw [if_pos hsends] at htwo
          omega
        exact ⟨n, Nat.lt_succ_self n, hsends, by rw [hflip, hone, Nat.bodd_one]⟩
      · obtain ⟨k, hk, hsecond⟩ := ih hge
        exact ⟨k, Nat.lt_succ_of_lt hk, hsecond⟩

/--
**When all accesses are in bounds.** In every sequence of calls from power-on: exactly if at most
one of them is a call of `GenericHID_Task` that sends a packet.
-/
theorem allInBounds_iff (calls : Nat → HidCall) (n : Nat) :
    AllInBounds calls n ↔ sentBefore powerOn calls n ≤ 1 := by
  have hall : AllInBounds calls n ↔ ¬∃ k < n, SendsSecond powerOn calls k := by
    simp only [AllInBounds, HidCall.inBounds_iff, SendsSecond, not_exists, not_and]
  rw [hall, exists_sendsSecond_iff]
  omega

/-- The host configures the device and takes two packets. -/
def twoPackets : Nat → HidCall
  | 0 => .bus .setConfiguration
  | _ => .task .ready

/-- The second packet reads byte 127. -/
theorem not_allInBounds : ¬∀ (calls : Nat → HidCall) (n : Nat), AllInBounds calls n := by
  intro h
  have hsent := (allInBounds_iff twoPackets 3).mp (h twoPackets 3)
  exact absurd hsent (by decide +kernel)

end SphereWare
