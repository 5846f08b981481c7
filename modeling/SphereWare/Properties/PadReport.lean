import SphereWare.Spec.HidRun

/-!
# Pads in assembled reports

The host joins a first and a second half, which were copied at different times. An entry of two
bytes is safe if it lies in one half: pads 0–30 in the first, pads 32–47 in the second. Pad 31 has
its first byte in the first half and its second byte in the second half.
-/

namespace SphereWare

open Interrupt Prog

variable {s : Firmware} {calls : Nat → HidCall} {i j : Nat} {report : List UInt8}

/-! ## Assembled reports -/

/-- A pad in a report, as `hid-monitor.py` decodes it. -/
def decodeReport (report : List UInt8) (p : Nat) : Nat × Nat :=
  decodePad (report.getD (1 + p * 2) 0) (report.getD (2 + p * 2) 0)

/-- The host joins the first half sent by call `i` and the next second half, sent by call `j`. -/
def Assembled (s : Firmware) (calls : Nat → HidCall) (i j : Nat) (report : List UInt8) : Prop :=
  i < j ∧ ∃ a b, packetAt s calls i = some ⟨false, a⟩ ∧ packetAt s calls j = some ⟨true, b⟩ ∧
    (∀ k, i < k → k < j → ∀ data, packetAt s calls k ≠ some ⟨true, data⟩) ∧ report = a ++ b

theorem Assembled.first (h : Assembled s calls i j report) {n : Nat} (hn : n < 64) :
    report.getD n 0 = (stateAt s calls i).hid.buffer n := by
  obtain ⟨-, a, b, ha, -, -, rfl⟩ := h
  obtain ⟨-, ha⟩ := packetAt_eq_some.mp ha
  rw [Packet.mk.injEq] at ha
  have hlength : n < a.length := by
    rw [ha.2, Hid.length_half]
    exact hn
  rw [List.getD_eq_getElem?_getD, List.getElem?_append_left hlength, ha.2, Hid.getElem?_half _ hn,
    ← ha.1]
  rfl

theorem Assembled.second (h : Assembled s calls i j report) {n : Nat} (hn : n < 64) :
    report.getD (64 + n) 0 = (stateAt s calls j).hid.buffer (64 + n) := by
  obtain ⟨-, a, b, ha, hb, -, rfl⟩ := h
  obtain ⟨-, ha⟩ := packetAt_eq_some.mp ha
  obtain ⟨-, hb⟩ := packetAt_eq_some.mp hb
  rw [Packet.mk.injEq] at ha hb
  have hlength : a.length = 64 := by rw [ha.2, Hid.length_half]
  rw [List.getD_eq_getElem?_getD, List.getElem?_append_right (by omega), hlength,
    Nat.add_sub_cancel_left, hb.2, Hid.getElem?_half _ hn, ← hb.1, if_pos rfl, Nat.add_comm n 64]
  rfl

/-! ## Entries in one half -/

theorem Assembled.decode_of_lt (h : Assembled s calls i j report) {p : Nat} (hp : p < 31) :
    decodeReport report p = (stateAt s calls i).hid.entry p := by
  rw [decodeReport, h.first (show 1 + p * 2 < 64 by omega), h.first (show 2 + p * 2 < 64 by omega)]
  rfl

theorem Assembled.decode_of_gt (h : Assembled s calls i j report) {p : Nat} (hp : 31 < p)
    (hp' : p < numPads) : decodeReport report p = (stateAt s calls j).hid.entry p := by
  have hp48 : p < 48 := hp'
  obtain ⟨n, hn⟩ : ∃ n, 1 + p * 2 = 64 + n := ⟨1 + p * 2 - 64, by omega⟩
  rw [decodeReport, Hid.entry, show 2 + p * 2 = 64 + (n + 1) by omega, hn,
    h.second (show n < 64 by omega), h.second (show n + 1 < 64 by omega)]

/-! ## Pad 31 -/

/-- The first byte of pad 31 is as old as the first half, the second as the second half. -/
theorem Assembled.decode_31 (h : Assembled s calls i j report) :
    decodeReport report 31
      = decodePad ((stateAt s calls i).hid.buffer 63) ((stateAt s calls j).hid.buffer 64) := by
  rw [decodeReport, h.first (show 1 + 31 * 2 < 64 by decide),
    show 2 + 31 * 2 = 64 + 0 from rfl, h.second (show 0 < 64 by decide)]

/-- The call may write to the entry of the pad. -/
def HidCall.Touches (p : Nat) : HidCall → Prop
  | .padData pad _ _ => pad.val = p
  | .pressureOnly pad _ => pad.val = p
  | .clear => True
  | _ => False

theorem HidCall.write_buffer {c : HidCall} {p : Nat} (hp : p < numPads) (hc : ¬c.Touches p)
    (h : Hid) {n : Nat} (hn : n = 1 + p * 2 ∨ n = 2 + p * 2) :
    (c.write h).buffer n = h.buffer n := by
  have hp48 : p < 48 := hp
  cases c with
  | padData pad value velocity =>
    have hne : pad.val ≠ p := hc
    exact h.buffer_writePadData_of_ne value velocity (by omega) (by omega)
  | pressureOnly pad value =>
    have hne : pad.val ≠ p := hc
    exact h.buffer_writePressureOnly_of_ne value (by omega) (by omega)
  | buttonData buttons => exact h.buffer_writeButtonData buttons (by omega)
  | adjustDial dial amount => exact h.buffer_adjustDial dial amount (by omega)
  | clear => exact absurd trivial hc
  | midi b0 b1 b2 => exact h.buffer_writeMidiData b0 b1 b2 (by omega)
  | bus event => rfl
  | task tick => rfl

/-- What no call touches stays as it is. -/
theorem stateAt_entry {p : Nat} (hp : p < numPads) {n : Nat} (hij : i ≤ n)
    (hquiet : ∀ k, i ≤ k → k < n → ¬(calls k).Touches p) {m : Nat}
    (hm : m = 1 + p * 2 ∨ m = 2 + p * 2) :
    (stateAt s calls n).hid.buffer m = (stateAt s calls i).hid.buffer m := by
  have hp48 : p < 48 := hp
  induction n, hij using Nat.le_induction with
  | base => rfl
  | succ n hin ih =>
    rw [stateAt_hid, ← ih fun k hk hkn => hquiet k hk (by omega)]
    split
    · exact Hid.buffer_afterHalf _ (by omega)
    · exact HidCall.write_buffer hp (hquiet n hin (by omega)) _ hm

/-! ## All pads -/

/-- Some moment between the two packets at which the host would have read the same. -/
def Untorn (s : Firmware) (calls : Nat → HidCall) (i j : Nat) (report : List UInt8) (p : Nat) :
    Prop :=
  ∃ k, i ≤ k ∧ k ≤ j ∧ decodeReport report p = (stateAt s calls k).hid.entry p

theorem Assembled.untorn (h : Assembled s calls i j report) {p : Nat} (hp : p < numPads)
    (hne : p ≠ 31) : Untorn s calls i j report p := by
  rcases Nat.lt_or_gt_of_ne hne with hlt | hgt
  · exact ⟨i, le_refl i, h.1.le, h.decode_of_lt hlt⟩
  · exact ⟨j, h.1.le, le_refl j, h.decode_of_gt hgt hp⟩

theorem Assembled.untorn_31 (h : Assembled s calls i j report)
    (hquiet : ∀ k, i ≤ k → k < j → ¬(calls k).Touches 31) : Untorn s calls i j report 31 := by
  refine ⟨i, le_refl i, h.1.le, ?_⟩
  rw [h.decode_31, stateAt_entry (by decide) h.1.le hquiet (Or.inr rfl)]
  rfl

/-! ## Pads in range -/

/-- The calls the main loop and the interrupt make for the pads, with arguments in range. -/
def HidCall.PadTraffic : HidCall → Prop
  | .padData _ value velocity => 0 ≤ value ∧ value ≤ 511 ∧ velocity.toNat ≤ 127
  | .pressureOnly _ value => 0 ≤ value ∧ value ≤ 511
  | .task _ => True
  | _ => False

/-- The pressure and velocity of pad `p` after a call that found `v` there. -/
def HidCall.ask (p : Nat) (v : Nat × Nat) : HidCall → Nat × Nat
  | .padData pad value velocity => if pad.val = p then (value.toNat, velocity.toNat) else v
  | .pressureOnly pad value => if pad.val = p then (value.toNat, v.2) else v
  | _ => v

/-- The pair the calls before the one with index `k` ask for, from their arguments alone. -/
def asked (s : Firmware) (calls : Nat → HidCall) (p : Nat) : Nat → Nat × Nat
  | 0 => s.hid.entry p
  | k + 1 => (calls k).ask p (asked s calls p k)

theorem HidCall.entry_write {c : HidCall} (hc : c.PadTraffic) (h : Hid) (p : Nat) :
    (c.write h).entry p = c.ask p (h.entry p) := by
  cases c with
  | padData pad value velocity =>
    obtain ⟨h₀, h₁, hvelocity⟩ := hc
    show (h.writePadData pad value velocity).entry p
      = if pad.val = p then (value.toNat, velocity.toNat) else h.entry p
    split
    · next heq =>
      rw [← heq, h.entry_writePadData pad.val h₀ h₁, Nat.mod_eq_of_lt (by omega)]
    · next hne =>
      rw [Hid.entry, h.buffer_writePadData_of_ne value velocity (by omega) (by omega),
        h.buffer_writePadData_of_ne value velocity (by omega) (by omega)]
      rfl
  | pressureOnly pad value =>
    obtain ⟨h₀, h₁⟩ := hc
    show (h.writePressureOnly pad value).entry p
      = if pad.val = p then (value.toNat, (h.entry p).2) else h.entry p
    split
    · next heq => rw [← heq, h.entry_writePressureOnly pad.val h₀ h₁]
    · next hne =>
      rw [Hid.entry, h.buffer_writePressureOnly_of_ne value (by omega) (by omega),
        h.buffer_writePressureOnly_of_ne value (by omega) (by omega)]
      rfl
  | task tick => rfl
  | buttonData buttons => exact hc.elim
  | adjustDial dial amount => exact hc.elim
  | clear => exact hc.elim
  | midi b0 b1 b2 => exact hc.elim
  | bus event => exact hc.elim

theorem Hid.entry_afterHalf (h : Hid) {p : Nat} (hp : p < numPads) :
    h.afterHalf.entry p = h.entry p := by
  have hp48 : p < 48 := hp
  rw [entry, entry, h.buffer_afterHalf (by omega), h.buffer_afterHalf (by omega)]

/-- **The entry of a pad is what was asked for.** -/
theorem stateAt_entry_eq_asked (hcalls : ∀ k, (calls k).PadTraffic) {p : Nat} (hp : p < numPads)
    (k : Nat) : (stateAt s calls k).hid.entry p = asked s calls p k := by
  induction k with
  | zero => rfl
  | succ k ih =>
    rw [stateAt_hid, asked, ← ih]
    split
    · next hsends =>
      rw [Hid.entry_afterHalf _ hp, ← HidCall.entry_write (hcalls k),
        HidCall.write_of_sends hsends]
    · exact HidCall.entry_write (hcalls k) _ p

/-- What the host reads of pad 31: velocity and lowest pressure bit are from the first half. -/
def tornPair (s : Firmware) (calls : Nat → HidCall) (i j : Nat) : Nat × Nat :=
  ((asked s calls 31 i).1 % 2 + 2 * ((asked s calls 31 j).1 / 2), (asked s calls 31 i).2)

theorem Assembled.decode_31_eq (h : Assembled s calls i j report)
    (hcalls : ∀ k, (calls k).PadTraffic) : decodeReport report 31 = tornPair s calls i j := by
  have hentry (k : Nat) : decodePad ((stateAt s calls k).hid.buffer 63)
      ((stateAt s calls k).hid.buffer 64) = asked s calls 31 k :=
    stateAt_entry_eq_asked (p := 31) hcalls (by decide) k
  have hi := hentry i
  have hj := hentry j
  rw [decodePad_eq] at hi hj
  rw [h.decode_31, decodePad_eq, tornPair, ← hi, ← hj, Prod.mk.injEq]
  -- byte 63 gives the velocity and the lowest bit of the pressure, byte 64 the other bits
  have hfirst := ((stateAt s calls i).hid.buffer 63).toNat_lt
  have hfirst' := ((stateAt s calls j).hid.buffer 63).toNat_lt
  refine ⟨?_, rfl⟩
  dsimp only
  omega

/--
**Which pads are torn.** A pad other than 31 never is. Pad 31 is, unless the mixture of what was
asked for at the two halves was asked for as such in between.
-/
theorem untorn_iff (hcalls : ∀ k, (calls k).PadTraffic) (h : Assembled s calls i j report)
    (p : Fin numPads) : Untorn s calls i j report p ↔
      p ≠ 31 ∨ ∃ k, i ≤ k ∧ k ≤ j ∧ asked s calls 31 k = tornPair s calls i j := by
  by_cases hp : p = 31
  · subst hp
    have hentry (k : Nat) := stateAt_entry_eq_asked (s := s) hcalls (show 31 < numPads by decide) k
    constructor
    · rintro ⟨k, hik, hkj, hdecode⟩
      exact Or.inr ⟨k, hik, hkj,
        (hentry k).symm.trans (hdecode.symm.trans (h.decode_31_eq hcalls))⟩
    · rintro (hne | ⟨k, hik, hkj, hasked⟩)
      · exact absurd rfl hne
      · exact ⟨k, hik, hkj,
          (h.decode_31_eq hcalls).trans (hasked.symm.trans (hentry k).symm)⟩
  · have hval : p.val ≠ 31 := fun hval => hp (Fin.ext hval)
    exact ⟨fun _ => Or.inl hp, fun _ => h.untorn p.isLt hval⟩

/-! ## A torn report -/

/-- A full press of pad 31 between the two halves. -/
def pressBetween : Nat → HidCall
  | 0 => .padData 31 0 0
  | 2 => .padData 31 511 127
  | _ => .task .ready

theorem pressBetween_traffic (k : Nat) : (pressBetween k).PadTraffic := by
  unfold pressBetween
  split
  · exact ⟨by decide, by decide, by decide⟩
  · exact ⟨by decide, by decide, by decide⟩
  · trivial

def tornReport : List UInt8 :=
  (stateAt configured pressBetween 1).hid.half ++ (stateAt configured pressBetween 3).hid.half

theorem tornReport_assembled : Assembled configured pressBetween 1 3 tornReport := by
  refine ⟨by decide, _, _, packetAt_eq_some.mpr ⟨by decide +kernel, ?_⟩,
    packetAt_eq_some.mpr ⟨by decide +kernel, ?_⟩, fun k hk₁ hk₃ data => ?_, rfl⟩
  · rw [show (stateAt configured pressBetween 1).hid.flip = false by decide +kernel]
  · rw [show (stateAt configured pressBetween 3).hid.flip = true by decide +kernel]
  · obtain rfl : k = 2 := by omega
    rw [show packetAt configured pressBetween 2 = none by decide +kernel]
    simp

theorem untorn_iff_torn : Untorn configured pressBetween 1 3 tornReport 31 ↔
    (31 : Fin numPads) ≠ 31 ∨ ∃ k, 1 ≤ k ∧ k ≤ 3 ∧
      asked configured pressBetween 31 k = tornPair configured pressBetween 1 3 :=
  untorn_iff pressBetween_traffic tornReport_assembled 31

/-- The host reads pressure 510 and velocity 0, which was never there. -/
theorem not_untorn_31 : ¬∀ (p : Fin numPads) (s : Firmware) (calls : Nat → HidCall) (i j : Nat)
    (report : List UInt8), (∀ k, (calls k).PadTraffic) → Assembled s calls i j report →
      Untorn s calls i j report p := by
  intro h
  obtain ⟨k, hk₁, hk₃, hdecode⟩ :=
    h 31 configured pressBetween 1 3 tornReport pressBetween_traffic tornReport_assembled
  have hall : ∀ k < 4, 1 ≤ k →
      decodeReport tornReport 31 ≠ (stateAt configured pressBetween k).hid.entry 31 := by
    decide +kernel
  exact hall k (by omega) hk₁ hdecode

end SphereWare
