import SphereWare.Interrupt.Position
import SphereWare.Spec.CpuFrame
import SphereWare.Spec.OutReport
import SphereWare.Spec.ScanRun

/-!
# The interrupt flag

`cli` and `sei` do not nest. `Delay` and `LED_SendPacket` end with a `sei` whoever called them, so
interrupts come back on too early wherever they are called with interrupts off: in the handler, when
a report makes it send a colour, and in two regions of main, the recalibration and the static
colour. Everywhere else the flag stays clear for as long as it should.
-/

namespace SphereWare

open Interrupt Prog

/-! ## Reports that send a colour -/

/-- Message `m` makes the handler send a colour, the LED mode and status being `w`. -/
def SendsColour (d : RxBuffer) (w : UInt8 × UInt8) (m : Nat) : Prop :=
  d.get (m * 4 + 2) = 1 ∧ w.1 = 0 ∧ (d.get (m * 4 + 2 + 1) = 1 ∨
    d.get (m * 4 + 2 + 1) = 2 ∧ d.get (m * 4 + 2 + 2) = 0 ∧ w.2 = 1)

instance (d : RxBuffer) (w : UInt8 × UInt8) (m : Nat) : Decidable (SendsColour d w m) :=
  inferInstanceAs (Decidable (_ ∧ _ ∧ _))

/-- The LED mode and status after message `m`. -/
def ledStep (d : RxBuffer) (w : UInt8 × UInt8) (m : Nat) : UInt8 × UInt8 :=
  if d.get (m * 4 + 2) = 1 then
    if d.get (m * 4 + 2 + 1) = 1 then (w.1, d.get (m * 4 + 2 + 2))
    else if d.get (m * 4 + 2 + 1) = 4 then (d.get (m * 4 + 2 + 2), w.2)
    else w
  else w

/-- None of the messages sends a colour. -/
def Colourless (d : RxBuffer) : UInt8 × UInt8 → List Nat → Prop
  | _, [] => True
  | w, m :: l => ¬SendsColour d w m ∧ Colourless d (ledStep d w m) l

instance Colourless.decidable (d : RxBuffer) :
    (w : UInt8 × UInt8) → (l : List Nat) → Decidable (Colourless d w l)
  | _, [] => isTrue trivial
  | w, m :: l =>
    have := Colourless.decidable d (ledStep d w m) l
    inferInstanceAs (Decidable (_ ∧ _))

/-- A report none of whose messages sends a colour. -/
def Harmless (d : RxBuffer) (w : UInt8 × UInt8) : Prop :=
  d.get 0 = 1 → Colourless d w (List.range (d.get 1).toNat)

instance (d : RxBuffer) (w : UInt8 × UInt8) : Decidable (Harmless d w) :=
  inferInstanceAs (Decidable (_ → _))

/-- The stream read of a report, if this step is one, delivers a harmless report. -/
def harmlessStep (s : Firmware) (i : Input) : Bool :=
  match s.usb.selected, s.usb.bank .genericOut with
  | .genericOut, some (b :: bs) =>
    decide (Harmless
      ⟨(readBytes genericReportSize (b :: bs) i.tick.hidLater).data, i.tick.hidStack⟩
      (s.led.mode, s.led.status))
  | _, _ => true

/-- The processor, with a host that sends harmless reports. -/
def harmlessAvr : Machine Firmware Input := { avr with admits := harmlessStep }

/-! ## The handler, with interrupts off -/

/-- The processor, and what decides whether a message sends a colour. -/
def modeView (s : Firmware) : (Bool × Option Region × Nat) × UInt8 × UInt8 :=
  (cpuView s, s.led.mode, s.led.status)

theorem modeView_off {s t : Firmware} (hs : harmlessAvr.enabled s = false)
    (h : SameOn modeView s t) : harmlessAvr.enabled t = false := by
  have hflag : t.cpu.iflag = s.cpu.iflag := congrArg (fun v => v.1.1) h
  exact hflag.trans hs

theorem off_keeps {α : Type} {p : Code α} (hp : p.Keeps (SameOn modeView)) {s : Firmware}
    (hs : s.cpu.iflag = false) :
    p.wp harmlessAvr (Rely.off harmlessAvr) (fun _ t => modeView t = modeView s) s :=
  wp_off_keeps (SameOn.refl modeView) (fun _ _ _ => SameOn.trans) (fun _ _ => modeView_off) hp hs

theorem off_readData {β : Type} {d : RxBuffer} {n : Nat} {q : UInt8 → Code β}
    {Q : β → Firmware → Prop} {s : Firmware} (hs : s.cpu.iflag = false)
    (h : (q (d.get n)).wp harmlessAvr (Rely.off harmlessAvr) Q (s.noteRead (d.read n))) :
    ((readData d n).bind q).wp harmlessAvr (Rely.off harmlessAvr) Q s :=
  wp_off_bind hs fun _ _ => h

theorem ledSetStatus_off (v : UInt8) {s : Firmware} (hs : s.cpu.iflag = false)
    (hmode : s.led.mode ≠ 0) :
    (ledSetStatus v).wp harmlessAvr (Rely.off harmlessAvr)
      (fun _ t => modeView t = (cpuView s, s.led.mode, v)) s := by
  refine wp_off_bind hs fun i _ => wp_off_bind hs fun i _ => ?_
  rw [when]
  split
  · next h => exact absurd h hmode
  · exact wp_off_ret hs rfl

theorem ledSetPressureStatus_off (v : UInt8) {s : Firmware} (hs : s.cpu.iflag = false)
    (hv : ¬(s.led.mode = 0 ∧ v = 0 ∧ s.led.status = 1)) :
    (ledSetPressureStatus v).wp harmlessAvr (Rely.off harmlessAvr)
      (fun _ t => modeView t = modeView s) s := by
  refine wp_off_bind hs fun i _ => wp_off_bind hs fun i _ => ?_
  rw [when]
  split
  · next hmode =>
    refine wp_off_bind hs fun i _ => ?_
    rw [when]
    split
    · next h => exact absurd ⟨hmode, h⟩ hv
    · exact wp_off_ret hs rfl
  · exact wp_off_ret hs rfl

theorem ledSetting_off {d : RxBuffer} {m : Nat} {s : Firmware} (hs : s.cpu.iflag = false)
    (hkind : d.get (m * 4 + 2) = 1) (h : ¬SendsColour d (s.led.mode, s.led.status) m) :
    (ledSetting d (m * 4 + 2)).wp harmlessAvr (Rely.off harmlessAvr)
      (fun _ t => modeView t = (cpuView s, ledStep d (s.led.mode, s.led.status) m)) s := by
  have hstep : ledStep d (s.led.mode, s.led.status) m =
      if d.get (m * 4 + 2 + 1) = 1 then (s.led.mode, d.get (m * 4 + 2 + 2))
      else if d.get (m * 4 + 2 + 1) = 4 then (d.get (m * 4 + 2 + 2), s.led.status)
      else (s.led.mode, s.led.status) := if_pos hkind
  have hquiet (h₁ : d.get (m * 4 + 2 + 1) ≠ 1) (h₄ : d.get (m * 4 + 2 + 1) ≠ 4) :
      modeView s = (cpuView s, ledStep d (s.led.mode, s.led.status) m) := by
    rw [hstep, if_neg h₁, if_neg h₄]
    rfl
  refine off_readData hs ?_
  split
  · next h₁ =>
    have hmode : s.led.mode ≠ 0 := fun hmode => h ⟨hkind, hmode, Or.inl h₁⟩
    rw [hstep, if_pos h₁]
    exact off_readData hs (ledSetStatus_off _ hs hmode)
  split
  · next h₁ h₂ =>
    have hv : ¬(s.led.mode = 0 ∧ d.get (m * 4 + 2 + 2) = 0 ∧ s.led.status = 1) :=
      fun hv => h ⟨hkind, hv.1, Or.inr ⟨h₂, hv.2⟩⟩
    rw [← hquiet h₁ (by rw [h₂]; decide)]
    exact off_readData hs (ledSetPressureStatus_off _ hs hv)
  split
  · next h₁ h₂ h₃ =>
    rw [← hquiet h₁ (by rw [h₃]; decide)]
    exact off_readData hs (wp_off_atomic hs fun i _ => ⟨hs, rfl⟩)
  rw [when]
  split
  · next h₁ h₂ h₃ h₄ =>
    rw [hstep, if_neg h₁, if_pos h₄]
    exact off_readData hs (wp_off_atomic hs fun i _ => ⟨hs, rfl⟩)
  · next h₁ h₂ h₃ h₄ =>
    rw [← hquiet h₁ h₄]
    exact wp_off_ret hs rfl

theorem processMessage_off {d : RxBuffer} {m : Nat} {s : Firmware} (hs : s.cpu.iflag = false)
    (h : ¬SendsColour d (s.led.mode, s.led.status) m) :
    (processMessage d m).wp harmlessAvr (Rely.off harmlessAvr)
      (fun _ t => modeView t = (cpuView s, ledStep d (s.led.mode, s.led.status) m)) s := by
  have hread (n : Nat) : (readData d n).Keeps (SameOn modeView) := Keeps.atomic fun _ _ => rfl
  refine off_readData hs ?_
  by_cases hkind : d.get (m * 4 + 2) = 1
  · rw [if_neg (show ¬d.get (m * 4 + 2) = 0 by rw [hkind]; decide), if_pos hkind]
    exact ledSetting_off (s := s.noteRead (d.read (m * 4 + 2))) hs hkind h
  · have hstep : ledStep d (s.led.mode, s.led.status) m = (s.led.mode, s.led.status) :=
      if_neg hkind
    rw [if_neg hkind, hstep]
    refine off_keeps (s := s.noteRead (d.read (m * 4 + 2))) (Keeps.ite ?_ (Keeps.ite ?_ ?_)) hs
    · iterate 3 refine Keeps.bind (hread _) fun _ => ?_
      exact Keeps.bind (midiSendUsbMidi_of (fun _ _ _ _ => rfl) _ _ _) fun _ =>
        Keeps.act fun _ => rfl
    · iterate 3 refine Keeps.bind (hread _) fun _ => ?_
      exact Keeps.act fun _ => rfl
    · refine Keeps.when (Keeps.bind (Keeps.atomic fun _ _ => rfl) fun _ => Keeps.when ?_)
      refine Keeps.bind (hread _) fun start => Keeps.bind (Keeps.act fun s => ?_) fun _ => ?_
      · show modeView { s with led := if start = 0x00 then _ else _ } = modeView s
        split <;> rfl
      · iterate 2 refine Keeps.bind (hread _) fun _ => ?_
        exact Keeps.act fun _ => rfl

theorem processMessages_off {d : RxBuffer} {l : List Nat} {s : Firmware} (hs : s.cpu.iflag = false)
    (h : Colourless d (s.led.mode, s.led.status) l) :
    (forEach l (processMessage d)).wp harmlessAvr (Rely.off harmlessAvr)
      (fun _ t => cpuView t = cpuView s) s := by
  induction l generalizing s with
  | nil => exact wp_off_ret hs rfl
  | cons m l ih =>
    refine wp_bind.mpr (wp_mono (fun _ t ht => ?_) (processMessage_off hs h.1))
    rw [modeView, Prod.mk.injEq] at ht
    have hflag : t.cpu.iflag = false := (congrArg Prod.fst ht.1).trans hs
    rw [← ht.1]
    exact ih hflag (by rw [ht.2]; exact h.2)

/-- **A harmless report leaves interrupts off.** -/
theorem genericHIDProcessReport_off {d : RxBuffer} {s : Firmware} (hs : s.cpu.iflag = false)
    (h : Harmless d (s.led.mode, s.led.status)) :
    (genericHIDProcessReport d).wp harmlessAvr (Rely.off harmlessAvr)
      (fun _ t => cpuView t = cpuView s) s := by
  refine off_readData hs ?_
  rw [when]
  split
  · next hid =>
    exact off_readData hs (processMessages_off (s := (s.noteRead _).noteRead _) hs (h hid))
  · exact wp_off_ret hs rfl

theorem harmless_of_admits {s : Firmware} {i : Input} (hselected : s.usb.selected = .genericOut)
    (hallowed : s.usb.readWriteAllowed = true) (hadm : harmlessStep s i = true) :
    Harmless ⟨(readBytes genericReportSize ((s.usb.bank s.usb.selected).getD [])
      i.tick.hidLater).data, i.tick.hidStack⟩ (s.led.mode, s.led.status) := by
  rw [Usb.readWriteAllowed, hselected] at hallowed
  rw [harmlessStep, hselected] at hadm
  rw [hselected]
  cases hbank : s.usb.bank .genericOut with
  | none => simp [hbank] at hallowed
  | some packet =>
    cases packet with
    | nil => simp [hbank] at hallowed
    | cons b bs =>
      simp only [hbank, decide_eq_true_eq] at hadm
      exact hadm

theorem off_keeps_cpu {α : Type} {p : Code α} (hp : p.Keeps (SameOn cpuView)) {s : Firmware}
    (hs : s.cpu.iflag = false) :
    p.wp harmlessAvr (Rely.off harmlessAvr) (fun _ t => cpuView t = cpuView s) s :=
  wp_off_keeps (SameOn.refl cpuView) (fun _ _ _ => SameOn.trans)
    (fun _ _ hs h => (congrArg Prod.fst h).trans hs) hp hs

theorem genericHIDTaskOut_off {s : Firmware} (hs : s.cpu.iflag = false) :
    genericHIDTaskOut.wp harmlessAvr (Rely.off harmlessAvr)
      (fun _ t => cpuView t = cpuView s) s := by
  refine wp_off_bind hs fun i _ => wp_off_bind hs fun i _ => ?_
  rw [when]
  split
  · refine wp_off_bind hs fun j _ => wp_bind.mpr ?_
    refine wp_mono (Q := fun _ t => cpuView t = cpuView s) (fun _ t ht => ?_) ?_
    · exact wp_off_atomic ((congrArg Prod.fst ht).trans hs) fun i _ =>
        ⟨(congrArg Prod.fst ht).trans hs, ht⟩
    · rw [when]
      split
      · next hallowed =>
        have hselected : ((s.usb.select .genericOut).receive i.tick.hidOut).selected
            = .genericOut := ((s.usb.select .genericOut).receive_same i.tick.hidOut).1
        refine wp_off_bind hs fun k hadm => ?_
        exact genericHIDProcessReport_off hs (harmless_of_admits hselected hallowed hadm)
      · exact wp_off_ret hs rfl
  · exact wp_off_ret hs rfl

/-- **The handler leaves interrupts off.** -/
theorem timerHandler_off {s : Firmware} (hs : s.cpu.iflag = false) :
    timerHandler.wp harmlessAvr (Rely.off harmlessAvr) (fun _ t => cpuView t = cpuView s) s := by
  have hflag {t : Firmware} (ht : cpuView t = cpuView s) : t.cpu.iflag = false :=
    (congrArg Prod.fst ht).trans hs
  have hthen {p : Code Unit} (hp : ∀ {t : Firmware}, t.cpu.iflag = false →
      p.wp harmlessAvr (Rely.off harmlessAvr) (fun _ u => cpuView u = cpuView t) t)
      (t : Firmware) (ht : cpuView t = cpuView s) :
      p.wp harmlessAvr (Rely.off harmlessAvr) (fun _ u => cpuView u = cpuView s) t := by
    rw [← ht]
    exact hp (hflag ht)
  refine wp_off_bind hs fun i _ => ?_
  refine wp_bind.mpr (wp_mono (fun _ t ht => ?_)
    (off_keeps_cpu (s := standbyTick s) midiRecieveUsbMidi_keeps_cpu hs))
  refine wp_bind.mpr (wp_mono (fun _ u hu => ?_) (hthen (p := genericHIDTask) ?_ t ht))
  · exact hthen (off_keeps_cpu usbUSBTask_keeps_cpu) u hu
  · intro t ht
    refine wp_off_bind ht fun i _ => ?_
    rw [when]
    split
    · refine wp_bind.mpr (wp_mono (fun _ u hu => ?_) (off_keeps_cpu genericHIDTaskIn_keeps_cpu ht))
      rw [← show cpuView u = cpuView t from hu]
      exact genericHIDTaskOut_off ((congrArg Prod.fst hu).trans ht)
    · exact wp_off_ret ht rfl

/-! ## The discipline -/

/--
In the handler, and in the regions of main other than the two that send a colour or calibrate,
interrupts are off.
-/
structure Masked (s : Firmware) : Prop where
  handler : 0 < s.cpu.isrDepth → s.cpu.iflag = false
  region : ∀ r, s.cpu.region = some r → r ≠ .recalibration → r ≠ .staticColour →
    s.cpu.iflag = false

theorem Masked.of_off {s : Firmware} (h : s.cpu.iflag = false) : Masked s :=
  ⟨fun _ => h, fun _ _ _ _ => h⟩

/-- Interrupts leave the processor as they found it, and every state is masked. -/
def maskRely : Rely Firmware where
  rel := SameOn cpuView
  safe := Masked
  trans := SameOn.trans

theorem maskRely_sound : maskRely.Sound harmlessAvr := by
  intro s _ hs
  refine wp_of_off (fun t ht => Masked.of_off ht) (wp_mono (fun _ t ht => ?_)
    (timerHandler_off (s := harmlessAvr.enter s) rfl))
  have hs : s.cpu.iflag = true := hs
  simp only [cpuView, Prod.mk.injEq] at ht
  obtain ⟨-, hregion, hdepth⟩ := ht
  have hleave : cpuView (harmlessAvr.leave t) = (true, t.cpu.region, t.cpu.isrDepth - 1) := rfl
  show cpuView (harmlessAvr.leave t) = cpuView s
  rw [hleave, hregion, hdepth, cpuView, hs]
  rfl

/-! ## Main -/

/-- Main is in the region, if any, and no handler is active. -/
def In (region : Option Region) (s : Firmware) : Prop := mainView s = (region, 0)

/-- In this region interrupts may be on. -/
def Open (region : Option Region) : Prop :=
  ∀ r, region = some r → r = .recalibration ∨ r = .staticColour

theorem In.masked {region : Option Region} {s : Firmware} (h : In region s)
    (hopen : Open region) : Masked s := by
  have hregion : s.cpu.region = region := congrArg Prod.fst h
  have hdepth : s.cpu.isrDepth = 0 := congrArg Prod.snd h
  refine ⟨fun hpos => absurd hdepth (by omega), fun r hr h₁ h₂ => ?_⟩
  exact absurd (hopen r (hregion ▸ hr)) (by simp [h₁, h₂])

theorem open_none : Open none := fun _ h => by cases h

theorem In.irq {region : Option Region} {s t : Firmware} (h : In region s)
    (ht : Irq harmlessAvr maskRely s t) : In region t := by
  have hview : SameOn cpuView s t := ht.rel_of_refl (SameOn.refl cpuView)
  exact Eq.trans (mainView_of_cpuView hview) h

theorem wp_in_ret {α : Type} {region : Option Region} (hopen : Open region) {a : α} {s : Firmware}
    (hs : In region s) : (ret a : Code α).wp harmlessAvr maskRely (fun _ => In region) s :=
  fun _ ht => ⟨(hs.irq ht).masked hopen, hs.irq ht⟩

/-- Where interrupts may be on, it does not matter what becomes of the flag. -/
theorem wp_in_keeps {α : Type} {region : Option Region} (hopen : Open region) {p : Code α}
    (hp : p.Keeps (SameOn mainView)) {s : Firmware} (hs : In region s) :
    p.wp harmlessAvr maskRely (fun _ => In region) s := by
  let park : Rely Firmware :=
    { rel := SameOn cpuView, safe := In region, trans := SameOn.trans }
  have hpark : p.wp harmlessAvr park (fun _ t => SameOn mainView s t) s :=
    wp_of_keeps (SameOn.refl mainView) (fun _ _ _ => SameOn.trans)
      (fun _ _ => mainView_of_cpuView) (fun _ _ hs ht => Eq.trans ht hs) hp hs
  refine wp_mono (fun _ t ht => Eq.trans ht hs) (wp_mono_rely ?_ ?_ hpark)
  · exact fun _ _ _ h => h
  · exact fun _ h => h.masked hopen

/-- A part of main outside of the regions, with the regions it enters and leaves. -/
def Parks {α : Type} (p : Code α) : Prop :=
  ∀ s, In none s → p.wp harmlessAvr maskRely (fun _ => In none) s

namespace Parks

variable {α β : Type}

theorem keeps {p : Code α} (hp : p.Keeps (SameOn mainView)) : Parks p :=
  fun _ hs => wp_in_keeps open_none hp hs

theorem keeps_cpu {p : Code α} (hp : p.Keeps (SameOn cpuView)) : Parks p :=
  keeps (keeps_mainView hp)

theorem ret (a : α) : Parks (Prog.ret a : Code α) := fun _ hs => wp_in_ret open_none hs

theorem bind {p : Code α} {q : α → Code β} (hp : Parks p) (hq : ∀ a, Parks (q a)) :
    Parks (p.bind q) :=
  fun s hs => wp_bind.mpr (wp_mono (fun a t ht => hq a t ht) (hp s hs))

theorem ite {c : Prop} [Decidable c] {p q : Code α} (hp : Parks p) (hq : Parks q) :
    Parks (if c then p else q) := by
  split
  · exact hp
  · exact hq

theorem when {c : Prop} [Decidable c] {p : Code Unit} (hp : Parks p) : Parks (when c p) :=
  ite hp (ret ())

/-- Into a region, through its body and out again. -/
theorem critical_of {r : Region} {body : Code α}
    (hbody : ∀ s, In (some r) s → s.cpu.iflag = false →
      body.wp harmlessAvr maskRely
        (fun _ u => In (some r) u ∧ (u.cpu.iflag = false ∨ Open (some r))) s) :
    Parks (critical r body) := by
  intro s hs
  refine wp_atomic_bind.mpr fun t ht => ⟨(hs.irq ht).masked open_none, fun i _ => ?_⟩
  have hdepth : t.cpu.isrDepth = 0 := congrArg Prod.snd (hs.irq ht)
  refine wp_bind.mpr (wp_mono (fun a u hu => ?_) (hbody _ (Prod.ext rfl hdepth) rfl))
  obtain ⟨hin, hopen⟩ := hu
  refine wp_atomic_bind.mpr fun w hw => ⟨?_, fun i _ => wp_in_ret open_none ?_⟩
  · rcases hopen with hoff | hopen
    · rw [hw.eq_of_disabled hoff]
      exact Masked.of_off hoff
    · exact (hin.irq hw).masked hopen
  · have hdepth : w.cpu.isrDepth = 0 := congrArg Prod.snd (hin.irq hw)
    exact Prod.ext rfl hdepth

/-- A region whose body leaves the processor alone. -/
theorem critical {r : Region} {body : Code α} (hp : body.Keeps (SameOn cpuView)) :
    Parks (critical r body) := by
  refine critical_of fun s hs hoff => ?_
  refine wp_of_off (fun t ht => Masked.of_off ht) (wp_mono (fun _ u hu => ?_)
    (off_keeps_cpu hp hoff))
  exact ⟨Eq.trans (mainView_of_cpuView hu) hs, Or.inl ((congrArg Prod.fst hu).trans hoff)⟩

/-- A region in which interrupts may come back on. -/
theorem criticalOpen {r : Region} (hopen : Open (some r)) {body : Code α}
    (hp : body.Keeps (SameOn mainView)) : Parks (SphereWare.critical r body) :=
  critical_of fun _ hs _ => wp_mono (fun _ _ hu => ⟨hu, Or.inr hopen⟩) (wp_in_keeps hopen hp hs)

end Parks

theorem keeps_cpuView {α : Type} {p : Code α} (h : p.Keeps (SameOn workView)) :
    p.Keeps (SameOn cpuView) := by
  refine Keeps.mono (fun s t hst => ?_) h
  simp only [SameOn, workView, Prod.mk.injEq] at hst
  obtain ⟨-, -, -, -, -, hiflag, hregion, hdepth, -⟩ := hst
  simp only [SameOn, cpuView, hiflag, hregion, hdepth]

theorem parks_worked : Worked Parks where
  keeps hp := Parks.keeps_cpu (keeps_cpuView hp)
  bind := Parks.bind
  critical hbody := Parks.critical (keeps_cpuView hbody)
  delay pad := Parks.keeps (delay_keeps (fun _ _ => rfl) pad)

theorem scanPad_parks (i : Nat) : Parks (scanPad i) := by
  refine parks_worked.of_scanPad (Parks.criticalOpen (fun r hr => ?_) ?_) i
  · exact Or.inl (Option.some.inj hr).symm
  · exact Keeps.bind (Keeps.act fun _ => rfl) fun _ => calibrate_keeps_main

theorem clockFade_parks (c : Colour) : Parks (clockFade c) := by
  iterate 2 refine Parks.bind (Parks.keeps_cpu (read_keeps_cpu _)) fun _ => ?_
  refine Parks.ite (Parks.critical ?_) (Parks.ret c)
  refine Keeps.bind (read_keeps_cpu _) fun step => ?_
  exact Keeps.bind (Keeps.act fun _ => rfl) fun _ => Keeps.ret _

theorem normalColour_parks : Parks normalColour := by
  refine Parks.bind (Parks.keeps_cpu (read_keeps_cpu _)) fun status => Parks.when ?_
  refine Parks.bind (Parks.keeps_cpu (Keeps.atomic fun _ _ => rfl)) fun old => ?_
  refine Parks.bind (Parks.keeps (baseColour_keeps_main old)) fun c => ?_
  exact Parks.bind (clockFade_parks c) fun c => Parks.keeps (ledSetColour_keeps_main _ _ _)

theorem endPass_parks : Parks endPass := by
  refine Parks.bind (Parks.bind (Parks.keeps_cpu (read_keeps_cpu _)) fun mode => ?_) fun _ => ?_
  · refine Parks.ite normalColour_parks ?_
    refine Parks.bind (Parks.keeps_cpu (read_keeps_cpu _)) fun mode => Parks.when ?_
    refine Parks.criticalOpen (fun r hr => Or.inr (Option.some.inj hr).symm) ?_
    refine Keeps.bind (keeps_mainView (read_keeps_cpu _)) fun c => ?_
    exact ledSetColour_keeps_main _ _ _
  · exact Parks.bind (Parks.keeps_cpu (padsAct_keeps_cpu _)) fun _ =>
      Parks.keeps_cpu (padsAct_keeps_cpu _)

theorem startUp_parks : Parks startUp := by
  refine Parks.keeps (Keeps.bind (ledSetColour_keeps_main _ _ _) fun _ => ?_)
  refine Keeps.bind (keeps_mainView (muxSelect_keeps_cpu 5)) fun _ => ?_
  refine Keeps.bind (keeps_mainView (buttonsAndDials_keeps_cpu 5 none)) fun _ => ?_
  refine Keeps.bind calibrate_keeps_main fun _ => ?_
  exact Keeps.bind (Keeps.act fun _ => rfl) fun _ => Keeps.ret _

/-! ## Runs -/

/-- What main has reached between two iterations, from `main` on, and the state there. -/
inductive Reaches (M : Machine Firmware Input) (s₀ : Firmware) : Nat → Firmware → Prop where
  | start {s : Firmware} {codes : Nat → Nat} (sched : Sched Input)
      (hrun : startUp.run M sched s₀ = some (codes, s)) : Reaches M s₀ 0 s
  | step {i i' : Nat} {s t : Firmware} {o : Option Outcome} (h : Reaches M s₀ i s)
      (hstep : LoopStep M i s o i' t) : Reaches M s₀ i' t

/-- A state some run passes through, in main or in a handler. -/
inductive Visited (M : Machine Firmware Input) (s₀ : Firmware) : Firmware → Prop where
  | start {t : Firmware} (sched : Sched Input) (h : t ∈ startUp.visits M sched s₀) : Visited M s₀ t
  | pad {i : Nat} {s t : Firmware} (hs : Reaches M s₀ i s) (hi : i < numPads) (sched : Sched Input)
      (h : t ∈ (scanPad i).visits M sched s) : Visited M s₀ t
  | pass {s t : Firmware} (hs : Reaches M s₀ numPads s) (sched : Sched Input)
      (h : t ∈ endPass.visits M sched s) : Visited M s₀ t

section Restricts

variable {M' M : Machine Firmware Input} (h : M'.Restricts M) {s₀ s t : Firmware} {i i' : Nat}

include h

theorem Reaches.of_restricts (hs : Reaches M' s₀ i s) : Reaches M s₀ i s := by
  induction hs with
  | start sched hrun => exact .start sched (run_of_restricts h sched _ _ _ hrun)
  | step _ hstep ih => exact ih.step (hstep.of_restricts h)

/-- What the firmware does with a host that is restricted, it can do. -/
theorem Visited.of_restricts (ht : Visited M' s₀ t) : Visited M s₀ t := by
  cases ht with
  | start sched ht => exact .start sched (visits_of_restricts h sched _ _ t ht)
  | pad hs hi sched ht =>
    exact .pad (hs.of_restricts h) hi sched (visits_of_restricts h sched _ _ t ht)
  | pass hs sched ht =>
    exact .pass (hs.of_restricts h) sched (visits_of_restricts h sched _ _ t ht)

end Restricts

/-- The runs in which every report is harmless are runs of the firmware. -/
theorem Visited.of_harmless {s₀ t : Firmware} (ht : Visited harmlessAvr s₀ t) : Visited avr s₀ t := by
  have hrestricts : harmlessAvr.Restricts avr :=
    ⟨rfl, rfl, rfl, fun _ h => h, fun _ _ _ => rfl⟩
  exact ht.of_restricts hrestricts

theorem Reaches.in_none {s₀ s : Firmware} {i : Nat} (h₀ : In none s₀)
    (h : Reaches harmlessAvr s₀ i s) : In none s := by
  induction h with
  | start sched hrun => exact wp_run maskRely_sound (startUp_parks s₀ h₀) hrun
  | step h hstep ih =>
    cases hstep with
    | pad sched hi hrun => exact wp_run maskRely_sound (scanPad_parks _ _ ih) hrun
    | pass sched hrun => exact wp_run maskRely_sound (endPass_parks _ ih) hrun

/--
**Where interrupts stay off.** In every run in which every report is harmless, they are off in the
handler and in every region of main that is neither the recalibration nor the static colour.
-/
theorem masked_of_harmless {s₀ t : Firmware} (h₀ : In none s₀) (ht : Visited harmlessAvr s₀ t) :
    Masked t := by
  cases ht with
  | start sched h => exact (wp_sound maskRely_sound sched _ _ _ (startUp_parks s₀ h₀)).1 t h
  | pad hs hi sched h =>
    exact (wp_sound maskRely_sound sched _ _ _ (scanPad_parks _ _ (hs.in_none h₀))).1 t h
  | pass hs sched h =>
    exact (wp_sound maskRely_sound sched _ _ _ (endPass_parks _ (hs.in_none h₀))).1 t h

/-- The host configures the device, and sends a report: pressure shows in the colour. -/
def pressureStatusReport : Input :=
  { Input.quiet with tick := { TickInput.quiet with
    usbEvent := some .setConfiguration
    hidOut := some ([1, 1, 1, 2, 1] ++ List.replicate 59 0)
    hidLater := [List.replicate 63 0] } }

/-- Two ticks in the middle of the start, as soon as the first colour has turned interrupts on. -/
def earlyTicks : Sched Input :=
  stepsThen (fun _ => Input.quiet)
    (fun _ s => irqs harmlessAvr (fun _ => pressureStatusReport) 2 (fun _ => .stop) s) 7 startUp
    powerOn

/-- In the second tick the report is read. -/
theorem masked_of_harmless_report : ∃ t, Visited harmlessAvr powerOn t ∧ 0 < t.cpu.isrDepth ∧
    t.usb.reads ≠ [] ∧ Masked t := by
  -- the first colour of `main` turns interrupts on before `main` does
  have hany : ((startUp.visits harmlessAvr earlyTicks powerOn).any fun t =>
      decide (0 < t.cpu.isrDepth) && !t.usb.reads.isEmpty) = true := by decide +kernel
  obtain ⟨t, hmem, hstate⟩ := List.any_eq_true.mp hany
  obtain ⟨hdepth, hreads⟩ := Bool.and_eq_true_iff.mp hstate
  have ht : Visited harmlessAvr powerOn t := .start earlyTicks hmem
  have h₀ : In none powerOn := rfl
  exact ⟨t, ht, of_decide_eq_true hdepth, by simpa using hreads, masked_of_harmless h₀ ht⟩

/-! ## The reset button -/

/-- The button is pressed when main looks at it. -/
def pressReset : Sched Input :=
  .go .quiet (.go { Input.quiet with pinE2 := false } (.go .quiet (.go .quiet (.go .quiet
    (.go .quiet (.go .quiet (.go .quiet (.go .quiet (.go .quiet .stop)))))))))

/-- After the first `Delay` of the recalibration interrupts are on. -/
theorem recalibration_on (s : Firmware) :
    (((scanPad 0).visits avr pressReset s)[10]?.map fun t => (t.cpu.region, t.cpu.iflag))
      = some (some .recalibration, true) := rfl

/-- Interrupts are on in a region of main. -/
theorem not_masked : ¬∀ s₀ t : Firmware, In none s₀ → Visited avr s₀ t →
    (0 < t.cpu.isrDepth ∨ t.cpu.region ≠ none → t.cpu.iflag = false) := by
  intro h
  have hstart := run_steady avr (fun _ => Input.quiet) (fun _ => rfl) startUp powerOn
  generalize startUp.exec (fun _ => Input.quiet) powerOn = r at hstart
  have hon := recalibration_on r.2
  obtain ⟨t, ht, hcpu⟩ := Option.map_eq_some_iff.mp hon
  obtain ⟨hregion, hflag⟩ := Prod.mk.inj hcpu
  have hvisited : Visited avr powerOn t :=
    .pad (.start _ hstart) (by decide) pressReset (List.mem_of_getElem? ht)
  have hoff := h powerOn t rfl hvisited (Or.inr (by rw [hregion]; simp))
  rw [hflag] at hoff
  exact absurd hoff (by decide)

end SphereWare
