import SphereWare.Spec.MainFrame
import SphereWare.Spec.Sending

/-!
# Main's writes to the report

An iteration writes to the velocity pads in the report at most once, the entry of its own pad, if
the reset button is up. Whatever the interrupt sends meanwhile shows the pads before or after that
write. When the button is down the pads are cleared byte by byte, and a packet may show some of it.
-/

namespace SphereWare

open Interrupt Prog

/-- The packets sent meanwhile show the pads at the start and then the pads at the end. -/
def Once {α : Type} (p : Code α) : Prop := ∀ s, p.wp avr sending (fun _ t => Changing s t) s

/-- A write to the report that leaves the endpoints alone. -/
theorem changing_write {s t : Firmware} (husb : t.usb = s.usb) (hflip : t.hid.flip = s.hid.flip) :
    Changing s t := by
  intro hs
  refine ⟨⟨by rw [husb]; exact hs.selected, ?_⟩, Sent.none (by rw [husb]) _⟩
  rw [hflip, husb]
  exact hs.flip

namespace Once

variable {α β : Type}

theorem of_quiet {p : Code α} (hp : p.Keeps Quiet) : Once p :=
  fun s => wp_mono (fun _ _ ht => ht.changing) (wp_quiet hp s)

theorem act {f : Firmware → Firmware} (husb : ∀ s, (f s).usb = s.usb)
    (hflip : ∀ s, (f s).hid.flip = s.hid.flip) : Once (act f) := by
  intro s
  rw [Prog.act, wp_atomic]
  intro t ht
  refine ⟨trivial, fun i _ u hu => ⟨trivial, ?_⟩⟩
  have hbefore : Sending s t := ht.rel_of_refl Sending.refl
  have hafter : Sending (f t) u := hu.rel_of_refl Sending.refl
  exact (hbefore.trans_changing (changing_write (husb t) (hflip t))).trans_sending hafter

theorem quiet_bind {p : Code α} {q : α → Code β} (hp : p.Keeps Quiet) (hq : ∀ a, Once (q a)) :
    Once (p.bind q) :=
  fun s => wp_bind.mpr (wp_mono
    (fun a t ht => wp_mono (fun _ _ hu => ht.trans_changing hu) (hq a t))
    (wp_quiet hp s))

theorem bind_quiet {p : Code α} {q : α → Code β} (hp : Once p) (hq : ∀ a, (q a).Keeps Quiet) :
    Once (p.bind q) :=
  fun s => wp_bind.mpr (wp_mono (fun a t ht => wp_mono (fun _ _ hu => ht.trans_sending hu)
    (wp_quiet (hq a) t)) (hp s))

theorem ite {c : Prop} [Decidable c] {p q : Code α} (hp : Once p) (hq : Once q) :
    Once (if c then p else q) := by
  split
  · exact hp
  · exact hq

theorem critical {r : Region} {body : Code α} (h : Once body) : Once (critical r body) := by
  refine quiet_bind (Keeps.act fun _ => quiet_of_sendView rfl) fun _ => bind_quiet h fun _ => ?_
  exact Keeps.bind (Keeps.act fun _ => quiet_of_sendView rfl) fun _ => Keeps.ret _

end Once

/-! ## Quiet steps -/

theorem read_quiet {α : Type} (f : Firmware → α) : (read f : Code α).Keeps Quiet :=
  Keeps.atomic fun _ _ => quiet_of_sendView rfl

theorem padsAct_quiet (f : Pads → Pads) : (padsAct f).Keeps Quiet :=
  Keeps.act fun _ => quiet_of_sendView rfl

theorem standbyAct_quiet (f : Standby → Standby) : (standbyAct f).Keeps Quiet :=
  Keeps.act fun _ => quiet_of_sendView rfl

theorem adjustInitVal_quiet (pad : Nat) (d : BitVec 16) : (adjustInitVal pad d).Keeps Quiet :=
  Keeps.bind (Keeps.act fun _ => quiet_of_sendView rfl) fun _ =>
    Keeps.act fun _ => quiet_of_sendView rfl

theorem critical_quiet {α : Type} {r : Region} {body : Code α} (h : body.Keeps Quiet) :
    (critical r body).Keeps Quiet := critical_keeps (fun _ _ _ => quiet_of_sendView rfl) h

theorem quiet_calibrates : Calibrates Quiet where
  iflag _ _ := quiet_of_sendView rfl
  mux _ _ := quiet_of_sendView rfl
  r2r _ _ := quiet_of_sendView rfl
  adc _ _ := quiet_of_sendView rfl
  order _ _ _ := quiet_of_sendView rfl
  threshold _ _ := quiet_of_sendView rfl
  filtered _ _ := quiet_of_sendView rfl
  thresholdSe _ _ := quiet_of_sendView rfl

theorem flip_eliteInput (v : EliteView) (n : Nat) (slot : Option Nat) (pinD : UInt8) :
    (eliteInput v n slot pinD).hid.flip = v.hid.flip := by
  unfold eliteInput encoderRead
  dsimp only
  repeat' split
  all_goals rfl

theorem flip_buttonsAndDialsRead (v : EliteView) (pad : Nat) (base : Option Nat) (pinD : UInt8) :
    (buttonsAndDialsRead v pad base pinD).hid.flip = v.hid.flip := by
  unfold buttonsAndDialsRead
  dsimp only
  split
  · exact flip_eliteInput v _ _ pinD
  · exact flip_eliteInput v _ _ pinD

/-- The elite unit has its own bytes. -/
theorem buttonsAndDials_quiet (pad : Nat) {base : Option Nat} (hbase : ∀ n ∈ base, numPads ≤ n) :
    (buttonsAndDials pad base).Keeps Quiet := by
  refine Keeps.atomic fun i s => ⟨?_, flip_buttonsAndDialsRead _ _ _ _, fun hs => ⟨hs, rfl⟩⟩
  exact padEntries_congr (buttonsAndDialsRead_frame _ pad i.pinD hbase).buffer

theorem eliteScan_quiet (pad : Nat) : (eliteScan pad).Keeps Quiet := by
  refine critical_quiet (Keeps.forEach fun i _ => ?_)
  refine Keeps.bind (Keeps.act fun _ => quiet_of_sendView rfl) fun _ => ?_
  exact buttonsAndDials_quiet i fun n hn => (Option.mem_some_iff.mp hn).le

/-- A pad from 40 on is written somewhere else. -/
theorem quiet_writePadData {pad : Nat} (h40 : 40 ≤ pad) (s : Firmware) (value : Int)
    (velocity : UInt8) : Quiet s { s with hid := s.hid.writePadData pad value velocity } := by
  refine ⟨?_, rfl, fun hs => ⟨hs, rfl⟩⟩
  funext p
  have hp := p.isLt
  unfold padEntries Hid.entry
  rw [s.hid.buffer_writePadData_of_ne value velocity (by omega) (by omega),
    s.hid.buffer_writePadData_of_ne value velocity (by omega) (by omega)]

/-! ## The branches -/

theorem strike_once (pad : Nat) (val : Int) : Once (strike pad val) := by
  refine Once.quiet_bind (peakLoop_keeps (fun _ _ => quiet_of_sendView rfl) pad 200 val) fun r => ?_
  refine Once.bind_quiet (Once.critical (Once.bind_quiet ?_ fun _ => padsAct_quiet _)) fun _ => ?_
  · exact Once.act (fun _ => rfl) fun _ => rfl
  · iterate 3 refine Keeps.bind (padsAct_quiet _) fun _ => ?_
    exact Keeps.bind (adjustInitVal_quiet _ _) fun _ => Keeps.ret _

theorem antiSticky_quiet (pad : Nat) : (antiSticky pad).Keeps Quiet := by
  refine Keeps.bind (padsAct_quiet _) fun _ => Keeps.bind (read_quiet _) fun applied => ?_
  exact Keeps.when (critical_quiet (Keeps.bind (standbyAct_quiet _) fun _ => padsAct_quiet _))

theorem pressureUpdate_once (pad : Nat) (val : Int) : Once (pressureUpdate pad val) := by
  refine Once.quiet_bind (padsAct_quiet _) fun _ => ?_
  refine Once.quiet_bind (read_quiet _) fun filtered => ?_
  refine Once.quiet_bind (Keeps.when (antiSticky_quiet pad)) fun _ => ?_
  refine Once.bind_quiet (Once.critical (Once.bind_quiet ?_ fun _ => padsAct_quiet _))
    fun _ => padsAct_quiet _
  exact Once.act (fun _ => rfl) fun _ => rfl

theorem release_once (pad : Nat) : Once (release pad) := by
  refine Once.bind_quiet (Once.critical (Once.quiet_bind (Keeps.act fun s => ?_) fun _ =>
    Once.bind_quiet ?_ fun _ => padsAct_quiet _)) fun _ => ?_
  · have hview : SameOn sendView s (stickyTimeout pad s) := by
      unfold stickyTimeout
      dsimp only
      repeat' split
      all_goals rfl
    exact quiet_of_sendView hview
  · exact Once.act (fun _ => rfl) fun _ => rfl
  · exact Keeps.bind (padsAct_quiet _) fun _ => adjustInitVal_quiet _ _

theorem scanVelocityPad_once (pad : Nat) : Once (scanVelocityPad pad) := by
  have hsample := sampleVelocityPad_keeps (fun _ _ => quiet_of_sendView rfl) pad
  refine Once.quiet_bind hsample fun x => ?_
  refine Once.quiet_bind (read_quiet _) fun sent => Once.ite (Once.ite ?_ ?_) (Once.ite ?_ ?_)
  · exact Once.bind_quiet (pressureUpdate_once pad _) fun _ => Keeps.ret _
  · exact Once.bind_quiet (strike_once pad _) fun _ => Keeps.ret _
  · exact Once.bind_quiet (release_once pad) fun _ => Keeps.ret _
  · exact Once.of_quiet (Keeps.ret _)

theorem scanPressurePad_quiet {pad : Nat} (h40 : 40 ≤ pad) : (scanPressurePad pad).Keeps Quiet := by
  have hwrite (value : Firmware → Int) (velocity : UInt8) :
      (act fun s => { s with hid := s.hid.writePadData pad (value s) velocity } :
        Code Unit).Keeps Quiet := Keeps.act fun s => quiet_writePadData h40 s _ velocity
  refine Keeps.bind (read_quiet _) fun threshold => ?_
  refine Keeps.bind (adcRead_keeps (fun _ _ => quiet_of_sendView rfl) _ _) fun a => ?_
  refine Keeps.ite (Keeps.bind ?_ fun _ => Keeps.ret _) (Keeps.bind ?_ fun _ => Keeps.ret _)
  · refine Keeps.bind (read_quiet _) fun applied => Keeps.bind (Keeps.when ?_) fun _ => ?_
    · exact Keeps.bind (padsAct_quiet _) fun _ => padsAct_quiet _
    refine Keeps.bind (critical_quiet ?_) fun _ => padsAct_quiet _
    refine Keeps.bind (padsAct_quiet _) fun _ => Keeps.bind (read_quiet _) fun filtered => ?_
    refine Keeps.bind (Keeps.when (padsAct_quiet _)) fun _ => ?_
    exact Keeps.bind (hwrite _ _) fun _ => padsAct_quiet _
  · refine Keeps.bind (read_quiet _) fun applied => Keeps.bind (Keeps.when ?_) fun _ => ?_
    · exact Keeps.bind (padsAct_quiet _) fun _ => padsAct_quiet _
    exact critical_quiet (Keeps.bind (hwrite (fun _ => 0) _) fun _ => padsAct_quiet _)

/-! ## The iteration -/

theorem scanRest_once (i pad : Nat) : Once (scanRest i pad) := by
  refine Once.quiet_bind (read_quiet _) fun bias => ?_
  refine Once.quiet_bind (Keeps.act fun _ => quiet_of_sendView rfl) fun _ => ?_
  refine Once.quiet_bind (eliteScan_quiet pad) fun _ => ?_
  refine Once.quiet_bind (Keeps.act fun _ => quiet_of_sendView rfl) fun _ => ?_
  refine Once.quiet_bind (delay_keeps (fun _ _ => quiet_of_sendView rfl) pad) fun _ => ?_
  by_cases h40 : pad < 40
  · rw [scanSelected, if_pos h40]
    exact scanVelocityPad_once pad
  · rw [scanSelected, if_neg h40]
    exact Once.of_quiet (scanPressurePad_quiet (Nat.le_of_not_lt h40))

theorem endPass_quiet : endPass.Keeps Quiet := by
  refine Keeps.mono (fun s t h => ?_) endPass_keeps
  simp only [SameOn, passView, Prod.mk.injEq] at h
  obtain ⟨-, -, hhid, -, husb, -⟩ := h
  exact quiet_of_same hhid husb

/-! ## The reset button -/

/-- The halves stay in turn. -/
def Turning (s t : Firmware) : Prop := InTurn s → InTurn t

theorem Sending.turning {s t : Firmware} (h : Sending s t) : Turning s t := fun hs => (h hs).1

theorem turning_of_sendView {s t : Firmware} (h : SameOn sendView s t) : Turning s t :=
  (quiet_of_sendView h).sending.turning

theorem turning_of_quiet {α : Type} {p : Code α} (hp : p.Keeps Quiet) : p.Keeps Turning :=
  Keeps.mono (fun _ _ h => h.sending.turning) hp

theorem wp_turning {α : Type} {p : Code α} (hp : p.Keeps Turning) (s : Firmware) :
    p.wp avr sending (fun _ t => Turning s t) s :=
  wp_of_keeps (fun _ => id) (fun _ _ _ h h' hs => h' (h hs)) (fun _ _ => Sending.turning)
    (fun _ _ _ _ => trivial) hp trivial

/-- A tick may find the report half cleared, but not the halves out of turn. -/
theorem calibrate_turning : calibrate.Keeps Turning := by
  have hcalibrates : Calibrates Turning := quiet_calibrates.mono fun _ _ h => h.sending.turning
  exact hcalibrates.calibrate_keeps (calibrateReset_keeps
    (genericHIDClear_keeps fun s j _ _ hs => ⟨hs.selected, hs.flip⟩)
    fun _ _ => turning_of_sendView rfl)

theorem resetButton_turning : resetButton.Keeps Turning := by
  refine Keeps.bind (turning_of_quiet (Keeps.atomic fun _ _ => quiet_of_sendView rfl)) fun up =>
    Keeps.ite (turning_of_quiet (Keeps.bind (padsAct_quiet _) fun _ => Keeps.ret _)) ?_
  refine Keeps.bind (turning_of_quiet (padsAct_quiet _)) fun _ => Keeps.bind ?_ fun codes =>
    Keeps.ret _
  refine critical_keeps (fun _ _ _ => turning_of_sendView rfl) ?_
  exact Keeps.bind (turning_of_quiet (standbyAct_quiet _)) fun _ => calibrate_turning

/-- Without a calibration the reset button changes nothing in the report. -/
theorem resetButton_sending (s : Firmware) :
    resetButton.wp avr sending (fun codes t => codes = none → Sending s t) s := by
  refine wp_bind.mpr (wp_mono (fun up t ht => ?_) (wp_quiet (p := input fun i => i.pinE2)
    (Keeps.atomic fun _ _ => quiet_of_sendView rfl) s))
  split
  · have hquiet : ((padsAct fun p => p.setPlayed 53 false).bind fun _ =>
        (ret none : Code (Option (Nat → Nat)))).Keeps Quiet :=
      Keeps.bind (padsAct_quiet _) fun _ => Keeps.ret _
    exact wp_mono (fun _ u hu _ => ht.trans hu) (wp_quiet hquiet t)
  · -- what is returned after a calibration is something
    have hany {α : Type} (p : Code α) (t : Firmware) : p.wp avr sending (fun _ _ => True) t :=
      wp_of_keeps (fun _ => trivial) (fun _ _ _ _ _ => trivial) (fun _ _ _ => trivial)
        (fun _ _ _ _ => trivial) (Keeps.any p) trivial
    refine wp_bind.mpr (wp_mono (fun _ u _ => ?_) (hany _ t))
    refine wp_bind.mpr (wp_mono (fun codes w _ => ?_) (hany _ u))
    exact fun x _ => ⟨trivial, fun h => absurd h (Option.some_ne_none codes)⟩

/-! ## The start -/

/-- Nothing is pressed as far as the report says, and all packets say so. -/
def StartsAtRest (s t : Firmware) : Prop :=
  InTurn s ∧ padEntries s = (fun _ => (0, 0)) →
    InTurn t ∧ padEntries t = (fun _ => (0, 0)) ∧ Sent [fun _ => (0, 0)] s t

theorem Sending.startsAtRest {s t : Firmware} (h : Sending s t) : StartsAtRest s t := by
  rintro ⟨hs, hentries⟩
  obtain ⟨ht, hsame, hsent⟩ := h hs
  rw [hentries] at hsame hsent
  exact ⟨ht, hsame, hsent⟩

theorem StartsAtRest.trans {s t u : Firmware} (h : StartsAtRest s t) (h' : StartsAtRest t u) :
    StartsAtRest s u := by
  intro hs
  obtain ⟨ht, hentries, hsent⟩ := h hs
  obtain ⟨hu, hentries', hsent'⟩ := h' ⟨ht, hentries⟩
  exact ⟨hu, hentries', hsent.glue (p := []) hsent'⟩

theorem calibrateReset_startsAtRest : calibrateReset.Keeps StartsAtRest := by
  have hpads (s : Firmware) (p : Pads) : Quiet s { s with pads := p } := quiet_of_sendView rfl
  refine calibrateReset_keeps (genericHIDClear_keeps fun s j _ _ hs => ?_) fun s p =>
    (hpads s p).sending.startsAtRest
  refine ⟨⟨hs.1.selected, hs.1.flip⟩, funext fun p => ?_, Sent.none rfl _⟩
  obtain ⟨hfirst, hsecond⟩ := (s.hid.entry_eq_zero_iff p).mp (congrFun hs.2 p)
  refine (Hid.entry_eq_zero_iff _ _).mpr ?_
  rw [Hid.buffer_fill, Hid.buffer_fill, hfirst, hsecond, ite_self, ite_self]
  exact ⟨rfl, rfl⟩

theorem startUp_startsAtRest (s : Firmware) :
    startUp.wp avr sending (fun _ t => StartsAtRest s t) s := by
  have hquiet {s t : Firmware} (h : Quiet s t) : StartsAtRest s t := h.sending.startsAtRest
  have hcalibrates : Calibrates StartsAtRest := quiet_calibrates.mono fun _ _ => hquiet
  refine wp_of_keeps (fun s => (Sending.refl s).startsAtRest) (fun _ _ _ => StartsAtRest.trans)
    (fun _ _ => Sending.startsAtRest) (fun _ _ _ _ => trivial) ?_ trivial
  refine Keeps.bind (Keeps.mono (fun s t h => hquiet ?_) (ledSetColour_keeps 0 0 1023)) fun _ => ?_
  · simp only [SameOn, ledView, Prod.mk.injEq] at h
    obtain ⟨-, -, hhid, -, husb, -⟩ := h
    exact quiet_of_same hhid husb
  refine Keeps.bind (Keeps.act fun _ => hquiet (quiet_of_sendView rfl)) fun _ => ?_
  refine Keeps.bind (Keeps.mono (fun _ _ => hquiet)
    (buttonsAndDials_quiet 5 fun n hn => absurd hn (Option.not_mem_none n))) fun _ => ?_
  refine Keeps.bind (hcalibrates.calibrate_keeps calibrateReset_startsAtRest) fun _ => ?_
  exact Keeps.bind (Keeps.act fun _ => hquiet (quiet_of_sendView rfl)) fun _ => Keeps.ret _

end SphereWare
