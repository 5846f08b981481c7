import SphereWare.Spec.LedCalls
import SphereWare.Spec.ScanRun

/-!
# The LED when it is off

In mode 0 with status 0 nothing sends a colour: black is sent once, by the tick that takes the
status to 0. It is not sent when the mode becomes 0 and the status is 0 already; and where main, or
a handler that is interrupted, has seen another status and is about to send a colour, the colour
comes after the black. Where neither happens the LED stays off.
-/

namespace SphereWare

open Interrupt Prog ShiftRegister

/-! ## The last colour -/

/-- The colour in the last of the frames that have one. -/
def lastColourOf (frames : List (BitVec 32)) : Option Colour :=
  ((frames.reverse.map decodeFrame).find? fun f => f.mode = 0).map fun f => (f.red, f.green, f.blue)

/-- The last colour the LED has latched. -/
def lastColour (s : Firmware) : Option Colour := lastColourOf s.led.latched

/-- The LED is switched off. -/
def Off (s : Firmware) : Prop := s.led.mode = 0 ∧ s.led.status = 0

instance (s : Firmware) : Decidable (Off s) := inferInstanceAs (Decidable (_ ∧ _))

theorem lastColourOf_append (frames : List (BitVec 32)) (frame : BitVec 32) :
    lastColourOf (frames ++ [frame]) = if (decodeFrame frame).mode = 0 then
        some ((decodeFrame frame).red, (decodeFrame frame).green, (decodeFrame frame).blue)
      else lastColourOf frames := by
  unfold lastColourOf
  rw [List.reverse_append, List.reverse_singleton, List.singleton_append, List.map_cons,
    List.find?_cons]
  by_cases hmode : (decodeFrame frame).mode = 0
  · simp only [hmode, decide_true, if_true, Option.map_some]
  · simp only [hmode, decide_false, if_false]

/-- What a call with a colour of the LED leaves to be seen. -/
theorem lastColourOf_call (frames : List (BitVec 32)) {c : Colour} (setting : Nat → Nat)
    (hc : c.1 < 1024 ∧ c.2.1 < 1024 ∧ c.2.2 < 1024) :
    lastColourOf (frames ++ [packFrame 0 c.1 c.2.1 c.2.2]
      ++ [packFrame 1 (setting 0) (setting 1) (setting 2)]) = some c := by
  rw [lastColourOf_append, lastColourOf_append, decodeFrame_packFrame, decodeFrame_packFrame]
  simp only [Nat.mod_eq_of_lt hc.1, Nat.mod_eq_of_lt hc.2.1, Nat.mod_eq_of_lt hc.2.2]
  rfl

/-! ## Where a colour is sent -/

/-- What main does in the normal mode after it has seen a status other than 0. -/
def normalSend : Code Unit := colourToSet.bind fun c => ledSetColour c.1 c.2.1 c.2.2

/-- What `LED_Set_Status` does after it has set the status. -/
def statusRest (status : UInt8) : Code Unit := do
  let mode ← read fun s => s.led.mode
  when (mode = 0) do
    if status = 0 then
      ledSetColour 0 0 0
    else do
      let c ← read fun s => s.led.minColour
      ledSetColour c.1 c.2.1 c.2.2

/-- What `LED_Set_Pressure_Status` does after it has seen status 1. -/
def minSend : Code Unit := do
  let c ← read fun s => s.led.minColour
  ledSetColour c.1 c.2.1 c.2.2

/--
A colour is being sent, or main or a handler has made up its mind to send one. The positions before
the call are those after the last look at the mode or the status.
-/
def Committed {α : Type} (P : Code α) : Prop :=
  InCall P ∨ Inside normalSend P ∨ Inside staticColour P ∨
    (∃ v, v ≠ 0 ∧ Inside (statusRest v) P) ∨ Inside minSend P

/-- The mode becomes 0 while the status is 0 only if black is shown. -/
def ModeChecked : StepProp Firmware Input := fun _ _ s t =>
  s.led.mode ≠ 0 → Off t → lastColour s = some (0, 0, 0)

/--
Where a colour is about to be sent, no tick leaves the LED off but one that has found it off and
sends nothing.
-/
def SendUndisturbed : IrqProp Firmware Input := fun _ P s inner => Committed P →
  ∀ t, timerHandler.run avr inner (avr.enter s) = some ((), t) → Off (avr.leave t) →
    Off s ∧ Silent inner s

theorem Committed.bind {α β : Type} {P : Code α} (h : Committed P) (q : α → Code β) :
    Committed (P.bind q) := by
  rcases h with h | h | h | ⟨v, hv, h⟩ | h
  · exact .inl (h.bind q)
  · exact .inr (.inl (h.bind q))
  · exact .inr (.inr (.inl (h.bind q)))
  · exact .inr (.inr (.inr (.inl ⟨v, hv, h.bind q⟩)))
  · exact .inr (.inr (.inr (.inr (h.bind q))))

/-! ## The contract -/

def ClockLow (s : Firmware) : Prop := s.ports.clock = false

def LatchLow (s : Firmware) : Prop := s.ports.latch = false

/-- A LED that is off shows black. -/
def ShowsOff (s : Firmware) : Prop := Off s → lastColour s = some (0, 0, 0)

/-- No colour is being sent, and the LED shows black if it is off. -/
structure Settled (s : Firmware) : Prop where
  clock : ClockLow s
  latch : LatchLow s
  shows : ShowsOff s

/-- What ticks do to the LED. -/
def offContract : Contract Firmware Input where
  assume := ModeChecked
  irq := SendUndisturbed
  rel _ P s t := (ClockLow s → ClockLow t) ∧ (LatchLow s → LatchLow t) ∧ (Settled s → Settled t) ∧
    (Committed P → Off t → Off s ∧ SameOn serialView s t)
  safe _ _ _ := True
  guarantee := anyStep
  trans _ P s t u h₁ h₂ := by
    obtain ⟨hclock₁, hlatch₁, hsettled₁, hoff₁⟩ := h₁
    obtain ⟨hclock₂, hlatch₂, hsettled₂, hoff₂⟩ := h₂
    refine ⟨fun h => hclock₂ (hclock₁ h), fun h => hlatch₂ (hlatch₁ h),
      fun h => hsettled₂ (hsettled₁ h), fun hP hu => ?_⟩
    obtain ⟨ht, htu⟩ := hoff₂ hP hu
    obtain ⟨hs, hst⟩ := hoff₁ hP ht
    exact ⟨hs, hst.trans htu⟩

/-- The contract of main and of a handler that sends colours. -/
abbrev offProgram : Contract Firmware Input := offContract.own anyStep anyStep

theorem offProgram_mono : offProgram.Mono where
  assume h := h
  rel h := ⟨h.1, h.2.1, h.2.2.1, fun hP => h.2.2.2 (hP.bind _)⟩
  safe h := h
  guarantee h := h

theorem clockLow_stable : offProgram.Stable avr ClockLow := ⟨fun _ h => h.1, fun _ _ => trivial⟩

theorem latchLow_stable : offProgram.Stable avr LatchLow := ⟨fun _ h => h.2.1, fun _ _ => trivial⟩

theorem settled_stable : offProgram.Stable avr Settled :=
  ⟨fun _ h => h.2.2.1, fun _ _ => trivial⟩

theorem pins_stable : offProgram.Stable avr fun s => ClockLow s ∧ LatchLow s :=
  ⟨fun _ h hs => ⟨h.1 hs.1, h.2.1 hs.2⟩, fun _ _ => trivial⟩

/-! ## Sending a colour -/

/-- What ticks do where a colour is being sent. -/
def sendRely : Rely Firmware where
  rel s t := (ClockLow s → ClockLow t) ∧ (LatchLow s → LatchLow t) ∧
    (Off t → Off s ∧ SameOn serialView s t)
  safe _ := True
  trans {s t u} h₁ h₂ := by
    obtain ⟨hclock₁, hlatch₁, hoff₁⟩ := h₁
    obtain ⟨hclock₂, hlatch₂, hoff₂⟩ := h₂
    refine ⟨fun h => hclock₂ (hclock₁ h), fun h => hlatch₂ (hlatch₁ h), fun hu => ?_⟩
    obtain ⟨ht, htu⟩ := hoff₂ hu
    obtain ⟨hs, hst⟩ := hoff₁ ht
    exact ⟨hs, hst.trans htu⟩

variable {s t : Firmware}

/-- A part in which a colour is sent may be followed under fixed interference. -/
theorem pwp_of_send {c : Code Unit} {Φ : Firmware → Prop} (hΦ : offProgram.Stable avr Φ)
    (hc : ∀ {P : Code Unit}, Inside c P → Committed P)
    (h : c.wp avr sendRely (fun _ => Φ) s) : c.pwp avr offProgram (fun _ => Φ) s := by
  rw [← bind_ret c]
  refine pwp_bind_of_wp (K := offProgram) (fun P s t hin hst => ?_) (fun _ _ _ _ => trivial)
    (fun _ _ _ _ _ => trivial) (Keeps.any c) (wp_mono (fun _ _ ht => pwp_ret hΦ ht) h)
  exact ⟨hst.1, hst.2.1, hst.2.2.2 (hc hin)⟩

/-! ### Pins -/

theorem clockLow_clockLow (s : Firmware) : ClockLow (clockLow s) := by
  have hline : lineView (clockLow s) = (lineView s).clockLow :=
    congrArg Prod.fst (wireView_clockLow s)
  exact congrArg Line.clock hline

theorem latchLow_latchLow (s : Firmware) : LatchLow (latchLow s) :=
  congrArg Line.latch (lineView_latchLow s)

theorem ledSendPacket_ends : ledSendPacket.Ends avr sendRely ClockLow := by
  have hsafe (s : Firmware) : sendRely.safe s := trivial
  have hrel (s t : Firmware) (h : sendRely.rel s t) : ClockLow s → ClockLow t := h.1
  iterate 7 refine Ends.bind_right hsafe fun _ => ?_
  refine Ends.forEach hsafe hrel (by decide) fun j => ?_
  exact Ends.bind_right hsafe fun _ => Ends.bind_right hsafe fun _ =>
    Ends.act hsafe hrel clockLow_clockLow

theorem ledLatch_keeps_clock : ledLatch.Keeps fun s t => ClockLow s → ClockLow t := by
  have henable (b : Bool) (s : Firmware) (h : ClockLow s) : ClockLow (enable b s) :=
    (congrArg Line.clock (lineView_enable b s)).trans h
  refine Keeps.bind (Keeps.act fun _ h => h) fun _ => Keeps.bind (Keeps.act (henable true)) fun _ => ?_
  exact Keeps.bind (Keeps.act (henable false)) fun _ => Keeps.act fun _ h => h

/-- **A call leaves both pins low.** -/
theorem ledSetColour_ends (r g b : Nat) :
    (ledSetColour r g b).Ends avr sendRely ClockLow ∧
      (ledSetColour r g b).Ends avr sendRely LatchLow := by
  have hsafe (s : Firmware) : sendRely.safe s := trivial
  constructor
  · have hrel (s t : Firmware) (h : sendRely.rel s t) : ClockLow s → ClockLow t := h.1
    iterate 7 refine Ends.bind_right hsafe fun _ => ?_
    exact Ends.bind_keeps hsafe hrel ledSendPacket_ends fun _ => ledLatch_keeps_clock
  · have hrel (s t : Firmware) (h : sendRely.rel s t) : LatchLow s → LatchLow t := h.2.1
    iterate 8 refine Ends.bind_right hsafe fun _ => ?_
    -- the last step of `LED_Latch`
    iterate 3 refine Ends.bind_right hsafe fun _ => ?_
    exact Ends.act hsafe hrel latchLow_latchLow

/-! ### Parts that send a colour -/

theorem off_of_same (h : (t.led.mode, t.led.status)
    = (s.led.mode, s.led.status)) : Off t ↔ Off s := by
  rw [Prod.mk.injEq] at h
  rw [Off, Off, h.1, h.2]

theorem ledSetColour_keeps_off (r g b : Nat) :
    (ledSetColour r g b).Keeps fun s t => Off t ↔ Off s := by
  refine Keeps.mono (fun s t hst => ?_) (ledSetColour_keeps_settings r g b)
  have hview : colourView t = colourView s := hst
  exact off_of_same (congrArg (fun v => (v.2.1, v.2.2.1)) hview)

/-- A part that sends a colour does not switch the LED off and leaves the pins low. -/
structure Tame (s t : Firmware) : Prop where
  clock : ClockLow s → ClockLow t
  latch : LatchLow s → LatchLow t
  off : Off t → Off s

theorem Tame.refl (s : Firmware) : Tame s s := ⟨fun h => h, fun h => h, fun h => h⟩

theorem Tame.trans {u : Firmware} (h₁ : Tame s t) (h₂ : Tame t u) : Tame s u :=
  ⟨fun h => h₂.clock (h₁.clock h), fun h => h₂.latch (h₁.latch h), fun h => h₁.off (h₂.off h)⟩

/-- Every run of the part is tame. -/
def IsTame {α : Type} (p : Code α) : Prop := ∀ s, p.wp avr sendRely (fun _ => Tame s) s

namespace IsTame

variable {α β : Type}

theorem bind {p : Code α} {q : α → Code β} (hp : IsTame p) (hq : ∀ a, IsTame (q a)) :
    IsTame (p.bind q) := by
  intro s
  rw [wp_bind]
  exact wp_mono (fun a t ht => wp_mono (fun _ _ hu => ht.trans hu) (hq a t)) (hp s)

theorem ite {c : Prop} [Decidable c] {p q : Code α} (hp : IsTame p) (hq : IsTame q) :
    IsTame (if c then p else q) := by
  split
  · exact hp
  · exact hq

theorem of_lamp {p : Code α} (hp : p.Keeps (SameOn lampView)) : IsTame p := by
  intro s
  refine wp_of_keeps Tame.refl (fun _ _ _ => Tame.trans) (fun s t hst => ?_)
    (fun _ _ _ _ => trivial) (Keeps.mono (fun s t hst => ?_) hp) trivial
  · exact ⟨hst.1, hst.2.1, fun ht => (hst.2.2 ht).1⟩
  · have hview : lampView t = lampView s := hst
    have hclock : t.ports.clock = s.ports.clock := congrArg (fun v => v.1.clock) hview
    have hlatch : t.ports.latch = s.ports.latch := congrArg (fun v => v.1.latch) hview
    exact ⟨fun h => hclock.trans h, fun h => hlatch.trans h,
      (off_of_same (congrArg (fun v => v.2.2) hview)).mp⟩

theorem when {c : Prop} [Decidable c] {p : Code Unit} (hp : IsTame p) : IsTame (when c p) :=
  ite hp (of_lamp (Keeps.ret ()))

theorem call (r g b : Nat) : IsTame (ledSetColour r g b) := by
  intro s
  have hpins := wp_and ((ledSetColour_ends r g b).1 s) ((ledSetColour_ends r g b).2 s)
  refine wp_mono (fun _ t ht => ⟨fun _ => ht.1.1, fun _ => ht.1.2, ht.2⟩) (wp_and hpins ?_)
  exact wp_of_keeps (S := fun s t => Off t → Off s) (fun _ h => h)
    (fun _ _ _ h₁ h₂ h => h₁ (h₂ h)) (fun _ _ hst ht => (hst.2.2 ht).1) (fun _ _ _ _ => trivial)
    (Keeps.mono (fun _ _ => Iff.mp) (ledSetColour_keeps_off r g b)) trivial

theorem minSend : IsTame minSend := bind (of_lamp (read_lamp _)) fun _ => call _ _ _

theorem statusRest (v : UInt8) : IsTame (statusRest v) :=
  bind (of_lamp (read_lamp _)) fun _ => when (ite (call _ _ _) minSend)

theorem normalSend : IsTame normalSend := bind (of_lamp colourToSet_lamp) fun _ => call _ _ _

theorem staticColour : IsTame staticColour := by
  refine bind (of_lamp (Keeps.act fun _ => rfl)) fun _ => bind ?_ fun _ => ?_
  · exact bind (of_lamp (read_lamp _)) fun _ => call _ _ _
  · exact of_lamp (Keeps.bind (Keeps.act fun _ => rfl) fun _ => Keeps.ret _)

end IsTame

/-! ## Main and the ticks -/

/-- A colour is sent where the LED is not off: it does not have to show black then. -/
theorem pwp_of_tame {c : Code Unit} (hc : ∀ {P : Code Unit}, Inside c P → Committed P)
    (htame : IsTame c) (hclock : ClockLow s) (hlatch : LatchLow s) (hoff : ¬Off s) :
    c.pwp avr offProgram (fun _ => Settled) s := by
  refine pwp_of_send settled_stable hc (wp_mono (fun _ t ht => ?_) (htame s))
  exact ⟨ht.clock hclock, ht.latch hlatch, fun h => absurd (ht.off h) hoff⟩

/-- Black is sent: in the end it is shown, unless the LED has been switched on meanwhile. -/
theorem black_pwp (hclock : ClockLow s) (hlatch : LatchLow s) :
    (ledSetColour 0 0 0).pwp avr offProgram (fun _ => Settled) s := by
  have hblack : (ledSetColour 0 0 0).wp avr sendRely (fun _ => ShowsOff) s := by
    refine wp_mono (fun _ t ht hoff => ?_) (Spec.wp_while (R := sendRely) (W := Off)
      (fun _ _ h => h.2.2) (fun _ => trivial)
      (Keeps.mono (fun _ _ => Iff.mp) (ledSetColour_keeps_off 0 0 0))
      (ledSetColour_spec 0 0 0 (l := lineView s) hclock hlatch) fun _ => rfl)
    have hlatched : t.led.latched = _ := ht hoff
    rw [lastColour, hlatched]
    exact lastColourOf_call s.led.latched (c := (0, 0, 0)) s.led.setting (by decide)
  have hpins := wp_and ((ledSetColour_ends 0 0 0).1 s) ((ledSetColour_ends 0 0 0).2 s)
  refine pwp_of_send settled_stable (fun hin => .inl ⟨0, 0, 0, hin⟩) ?_
  exact wp_mono (fun _ t ht => ⟨ht.1.1, ht.1.2, ht.2⟩) (wp_and hpins hblack)

theorem settled_of_lamp {α : Type} {p : Code α} (hp : p.Keeps (SameOn lampView)) :
    p.Carries avr offProgram Settled := by
  refine .of_keeps settled_stable (fun _ s t hst _ hs => ⟨trivial, ?_⟩) hp
  have hview : lampView t = lampView s := hst
  have hclock : t.ports.clock = s.ports.clock := congrArg (fun v => v.1.clock) hview
  have hlatch : t.ports.latch = s.ports.latch := congrArg (fun v => v.1.latch) hview
  have hlatched : t.led.latched = s.led.latched := congrArg (fun v => v.2.1) hview
  refine ⟨hclock.trans hs.clock, hlatch.trans hs.latch, fun hoff => ?_⟩
  rw [lastColour, hlatched]
  exact hs.shows ((off_of_same (congrArg (fun v => v.2.2) hview)).mp hoff)

theorem ledSetStatus_settled (v : UInt8) : (ledSetStatus v).Carries avr offProgram Settled := by
  intro s hs
  refine pwp_step settled_stable hs fun _ t ht _ => ⟨trivial, ?_⟩
  show (statusRest v).pwp avr offProgram _ { t with led := { t.led with status := v } }
  by_cases hv : v = 0
  · refine pwp_step pins_stable ⟨ht.clock, ht.latch⟩ fun _ u hu _ => ⟨trivial, ?_⟩
    show (when (u.led.mode = 0) _).pwp avr offProgram _ u
    rw [if_pos hv]
    unfold when
    split
    · exact black_pwp hu.1 hu.2
    · next hmode => exact pwp_ret settled_stable ⟨hu.1, hu.2, fun h => absurd h.1 hmode⟩
  · exact pwp_of_tame (fun hin => .inr (.inr (.inr (.inl ⟨v, hv, hin⟩)))) (.statusRest v) ht.clock
      ht.latch fun h => hv h.2

theorem ledSetPressureStatus_settled (v : UInt8) :
    (ledSetPressureStatus v).Carries avr offProgram Settled := by
  have hstore : (ledAct fun l => { l with pressureStatus := v }).Keeps (SameOn lampView) :=
    Keeps.act fun _ => rfl
  refine .bind offProgram_mono (settled_of_lamp hstore) fun _ => ?_
  refine .bind offProgram_mono (settled_of_lamp (read_lamp _)) fun mode => ?_
  refine .when settled_stable fun s hs => pwp_step settled_stable hs fun _ t ht _ => ⟨trivial, ?_⟩
  show (when (v = 0 ∧ t.led.status = 1) _).pwp avr offProgram _ t
  unfold when
  split
  · next hon =>
    refine pwp_of_tame (fun hin => .inr (.inr (.inr (.inr hin)))) .minSend ht.clock ht.latch ?_
    exact fun hoff => absurd (hon.2.symm.trans hoff.2) (by decide)
  · exact pwp_ret settled_stable ht

/-- The end of a pass. -/
theorem ledColour_settled : ledColour.Carries avr offProgram Settled := by
  refine .bind offProgram_mono (settled_of_lamp (read_lamp _)) fun mode => .ite ?_ ?_
  · rw [normalColour_eq]
    intro s hs
    refine pwp_step settled_stable hs fun _ t ht _ => ⟨trivial, ?_⟩
    show (when (t.led.status ≠ 0) _).pwp avr offProgram _ t
    unfold when
    split
    · next hon =>
      exact pwp_of_tame (fun hin => .inr (.inl hin)) .normalSend ht.clock ht.latch fun h => hon h.2
    · exact pwp_ret settled_stable ht
  · intro s hs
    refine pwp_step settled_stable hs fun _ t ht _ => ⟨trivial, ?_⟩
    show (when (t.led.mode = 1) _).pwp avr offProgram _ t
    unfold when
    split
    · next hmode =>
      refine pwp_of_tame (fun hin => .inr (.inr (.inl hin))) .staticColour ht.clock ht.latch ?_
      exact fun hoff => absurd (hmode.symm.trans hoff.1) (by decide)
    · exact pwp_ret settled_stable ht

theorem shows_of_step {α : Type} {P : Code α} (hst : SameOn panelView s t)
    (hmode : ModeChecked P s t) (hs : ShowsOff s) : ShowsOff t := by
  have hview : panelView t = panelView s := hst
  have hlatched : t.led.latched = s.led.latched := congrArg (fun v => v.2.1) hview
  have hstatus : t.led.status = s.led.status := congrArg (fun v => v.2.2.1) hview
  intro hoff
  rw [lastColour, hlatched]
  by_cases h0 : s.led.mode = 0
  · exact hs ⟨h0, hstatus.symm.trans hoff.2⟩
  · exact hmode h0 hoff

theorem settled_of_panel {α : Type} {p : Code α} (hp : p.Keeps (SameOn panelView)) :
    p.Carries avr offProgram Settled := by
  refine .of_keeps settled_stable (fun P s t hst hA hs => ⟨trivial, ?_⟩) hp
  have hview : panelView t = panelView s := hst
  have hclock : t.ports.clock = s.ports.clock := congrArg (fun v => v.1.1.clock) hview
  have hlatch : t.ports.latch = s.ports.latch := congrArg (fun v => v.1.1.latch) hview
  exact ⟨hclock.trans hs.clock, hlatch.trans hs.latch, shows_of_step (P := P) hst hA.1 hs.shows⟩

/-- **A tick that strikes where no colour is being sent leaves the LED so.** -/
theorem timerHandler_settled : timerHandler.Carries avr offProgram Settled :=
  timerHandler_of (R := fun p => p.Carries avr offProgram Settled)
    { keeps := settled_of_panel
      bind := fun hp hq => .bind offProgram_mono hp hq
      status := ledSetStatus_settled
      pressureStatus := ledSetPressureStatus_settled }

/-- A pin that every call leaves low stays low. -/
theorem timerHandler_pin {Φ : Firmware → Prop} (hΦ : offProgram.Stable avr Φ)
    (hline : ∀ s t, lineView t = lineView s → Φ s → Φ t)
    (hcall : ∀ r g b, (ledSetColour r g b).Ends avr sendRely Φ) :
    timerHandler.Carries avr offProgram Φ := by
  have hkeeps {τ α : Type} {g : Firmware → τ} {f : τ → Line} (hg : ∀ s, f (g s) = lineView s)
      {p : Code α} (hp : p.Keeps (SameOn g)) : p.Carries avr offProgram Φ := by
    refine .of_keeps hΦ (fun P s t hst _ hs => ⟨trivial, hline s t ?_ hs⟩) hp
    rw [← hg, ← hg, show g t = g s from hst]
  have hread {α : Type} (f : Firmware → α) : (read f : Code α).Carries avr offProgram Φ :=
    hkeeps (g := lineView) (f := id) (fun _ => rfl) (Keeps.atomic fun _ _ => rfl)
  have hcolour (r g b : Nat) : (ledSetColour r g b).Carries avr offProgram Φ := fun s _ =>
    pwp_of_send hΦ (fun hin => .inl ⟨r, g, b, hin⟩) (hcall r g b s)
  have hmin : minSend.Carries avr offProgram Φ :=
    .bind offProgram_mono (hread _) fun _ => hcolour _ _ _
  refine timerHandler_of (R := fun p => p.Carries avr offProgram Φ)
    { keeps := fun hp => hkeeps (f := fun v => v.1.1) (fun _ => rfl) hp
      bind := fun hp hq => .bind offProgram_mono hp hq
      status := fun v => ?_
      pressureStatus := fun v => ?_ }
  · refine .bind offProgram_mono (hkeeps (g := lineView) (f := id) (fun _ => rfl)
      (Keeps.act fun _ => rfl)) fun _ => .bind offProgram_mono (hread _) fun mode => ?_
    exact .when hΦ (.ite (hcolour _ _ _) hmin)
  · refine .bind offProgram_mono (hkeeps (g := lineView) (f := id) (fun _ => rfl)
      (Keeps.act fun _ => rfl)) fun _ => .bind offProgram_mono (hread _) fun mode => ?_
    exact .when hΦ (.bind offProgram_mono (hread _) fun on => .when hΦ hmin)

theorem pwp_of_imp {p : Code Unit} {H : Prop} {Φ : Firmware → Prop}
    (h : H → p.pwp avr offProgram (fun _ => Φ) s) :
    p.pwp avr offProgram (fun _ t => H → Φ t) s := by
  by_cases hH : H
  · exact pwp_mono (fun _ _ ht _ => ht) (h hH)
  · have hany : p.Carries avr offProgram fun _ => True :=
      .of_keeps ⟨fun _ _ _ => trivial, fun _ _ => trivial⟩ (fun _ _ _ _ _ _ => ⟨trivial, trivial⟩)
        (Keeps.any p)
    exact pwp_mono (fun _ _ _ h => absurd h hH) (hany s trivial)

/-- What is known of the steps of a tick that sends no colour. -/
abbrev silentOff : Contract Firmware Input := offContract.own (fun _ P _ _ => ¬InCall P) anyStep

theorem silentOff_callFree {Sh : Prop} : CallFree silentOff fun t => Sh → ShowsOff t where
  mono :=
    { assume := fun h => ⟨h.1, fun hP => h.2 (hP.bind _)⟩
      rel := fun h => ⟨h.1, h.2.1, h.2.2.1, fun hP => h.2.2.2 (hP.bind _)⟩
      safe := fun h => h
      guarantee := fun h => h }
  noCall h := h.2
  guarantee _ := trivial
  step {_ P _ _} hst hA h hSh := shows_of_step (P := P) hst hA.1 (h hSh)
  status _ _ hmode _ _ hoff := absurd hoff.1 hmode
  pressureStatus _ _ h := h

/-- **The contract holds of the ticks.** -/
theorem offContract_sound : offContract.Sound avr := by
  intro α P s inner hen hsafe hirq
  by_cases hsilent : Silent inner s
  · refine ⟨fun _ P _ _ => ¬InCall P, anyStep,
      fun t => SameOn stillView (avr.enter s) t ∧ (ShowsOff s → ShowsOff t), hsilent,
      fun _ _ _ _ _ => trivial, ?_, ?_⟩
    · exact silentOff_callFree.carries_timerHandler rfl _ ⟨rfl, fun h => h⟩
    · intro t hrun ht
      have hstill : stillView t = stillView (avr.enter s) := ht.1
      have hserial : serialView t = serialView s := congrArg (fun v => (v.1, v.2.1)) hstill
      have hclock : t.ports.clock = s.ports.clock := congrArg (fun v => v.1.1.clock) hstill
      have hlatch : t.ports.latch = s.ports.latch := congrArg (fun v => v.1.1.latch) hstill
      exact ⟨fun h => hclock.trans h, fun h => hlatch.trans h,
        fun h => ⟨hclock.trans h.clock, hlatch.trans h.latch, ht.2 h.shows⟩,
        fun hP hoff => ⟨(hirq hP t hrun hoff).1, hserial⟩⟩
  · refine ⟨anyStep, anyStep, fun t => (ClockLow s → ClockLow t) ∧ (LatchLow s → LatchLow t) ∧
      (Settled s → Settled t), along_any _ _ _, fun _ _ _ _ _ => trivial, ?_, ?_⟩
    · have hclock := pwp_of_imp fun h : ClockLow s => timerHandler_pin clockLow_stable
        (fun _ _ h => (congrArg Line.clock h).trans) (fun r g b => (ledSetColour_ends r g b).1)
        (avr.enter s) h
      have hlatch := pwp_of_imp fun h : LatchLow s => timerHandler_pin latchLow_stable
        (fun _ _ h => (congrArg Line.latch h).trans) (fun r g b => (ledSetColour_ends r g b).2)
        (avr.enter s) h
      have hsettled := pwp_of_imp fun h : Settled s => timerHandler_settled (avr.enter s)
        ⟨h.clock, h.latch, h.shows⟩
      exact pwp_and hclock (pwp_and hlatch hsettled)
    · intro t hrun ht
      exact ⟨ht.1, ht.2.1, fun h => ⟨(ht.2.2 h).clock, (ht.2.2 h).latch, (ht.2.2 h).shows⟩,
        fun hP hoff => absurd (hirq hP t hrun hoff).2 hsilent⟩

/-! ## Every run -/

/-- The runs in which black is not missed. -/
abbrev BlackKept {α : Type} (sched : Sched Input) (p : Code α) (s : Firmware) : Prop :=
  p.along avr ModeChecked ModeChecked SendUndisturbed sched s

theorem settled_of_run {α : Type} {p : Code α} {sched : Sched Input} {a : α}
    (hp : p.pwp avr offProgram (fun _ => Settled) s) (h : BlackKept sched p s)
    (hrun : p.run avr sched s = some (a, t)) : Settled t :=
  (pwp_sound offContract_sound sched anyStep anyStep p _ s h (along_any _ _ _) hp).2 a t hrun

/-- Main leaves the LED settled, at the start and after each pass. -/
theorem settled_of_mainProgram {n : Nat} {sched : Sched Input}
    (hrun : (mainProgram n).run avr sched powerOn = some ((), s))
    (h : BlackKept sched (mainProgram n) powerOn) : Settled s := by
  have hfirst : (ledSetColour 0 0 1023).pwp avr offProgram (fun _ => Settled) powerOn := by
    refine pwp_of_send settled_stable (fun hin => .inl ⟨0, 0, 1023, hin⟩) ?_
    have hpins := wp_and ((ledSetColour_ends 0 0 1023).1 powerOn)
      ((ledSetColour_ends 0 0 1023).2 powerOn)
    refine wp_mono (fun _ t ht => ⟨ht.1.1, ht.1.2, fun hoff => ?_⟩)
      (wp_and hpins (IsTame.call 0 0 1023 powerOn))
    exact absurd (ht.2.off hoff).2 (by decide)
  exact settled_of_run (mainProgram_pwp offProgram_mono settled_of_lamp ledColour_settled hfirst n)
    h hrun

/--
**Where black is not missed, the LED stays off.** After any number of passes, a pass through all of
which the mode and the status are 0 ends with black as the last colour.
-/
theorem staysOff_of_blackKept {n : Nat} {sched sched' : Sched Input} {s t : Firmware}
    (hrun : (mainProgram n).run avr sched powerOn = some ((), s))
    (hpass : pass.run avr sched' s = some ((), t))
    (h : BlackKept sched (mainProgram n) powerOn) (h' : BlackKept sched' pass s)
    (hoff : ∀ u ∈ pass.visits avr sched' s, Off u) : lastColour t = some (0, 0, 0) := by
  have hs := settled_of_mainProgram hrun h
  have ht := settled_of_run (pass_carries offProgram_mono settled_of_lamp ledColour_settled s hs)
    h' hpass
  exact ht.shows (hoff t (mem_visits_of_run avr sched' pass s hpass))

/-! ## Passes in which the LED is off -/

theorem off_of_lamp {α : Type} {p : Code α} (hp : p.Keeps (SameOn lampView)) :
    p.Keeps fun s t => Off t ↔ Off s := by
  refine Keeps.mono (fun s t hst => ?_) hp
  have hview : lampView t = lampView s := hst
  exact off_of_same (congrArg (fun v => v.2.2) hview)

theorem pass_keeps_off : pass.Keeps fun s t => Off t ↔ Off s := by
  refine Keeps.bind (off_of_lamp iterations_lamp) fun _ => Keeps.bind ?_ fun _ => ?_
  · refine Keeps.bind (off_of_lamp (read_lamp _)) fun mode => Keeps.ite ?_ ?_
    · rw [normalColour_eq]
      refine Keeps.bind (off_of_lamp (read_lamp _)) fun status => Keeps.when ?_
      exact Keeps.bind (off_of_lamp colourToSet_lamp) fun c => ledSetColour_keeps_off _ _ _
    · refine Keeps.bind (off_of_lamp (read_lamp _)) fun mode => Keeps.when ?_
      refine Keeps.bind (off_of_lamp (Keeps.act fun _ => rfl)) fun _ => Keeps.bind ?_ fun _ => ?_
      · exact Keeps.bind (off_of_lamp (read_lamp _)) fun c => ledSetColour_keeps_off _ _ _
      · exact off_of_lamp (Keeps.bind (Keeps.act fun _ => rfl) fun _ => Keeps.ret _)
  · exact off_of_lamp (Keeps.bind (padsAct_lamp _) fun _ => padsAct_lamp _)

/-- A pass without interrupts in which the LED is off. -/
theorem visits_off {env : Firmware → Input} (hs : Off s) (u : Firmware)
    (hu : u ∈ pass.visits avr (pass.steady env s) s) : Off u :=
  (visits_steady_of_keeps (S := fun s t => Off t ↔ Off s) (fun _ => Iff.rfl)
    (fun _ _ _ h₁ h₂ => h₂.trans h₁) pass_keeps_off env s u hu).mpr hs

/-- Such a pass leaves the LED alone. -/
theorem pass_spec {M : Machine Firmware Input} {v : Line × List (BitVec 32) × UInt8 × UInt8}
    (hmode : v.2.2.1 = 0) (hstatus : v.2.2.2 = 0) :
    Spec M lampView v pass fun _ w => w = v := by
  refine Spec.keeps_bind iterations_lamp fun _ => Spec.bind (Q := fun _ w => w = v) ?_ ?_
  · refine Spec.read_bind v.2.2.1 (by rintro t rfl; rfl) ?_
    rw [if_pos hmode, normalColour_eq]
    refine Spec.read_bind v.2.2.2 (by rintro t rfl; rfl) ?_
    exact Spec.when (fun h => absurd hstatus h) fun _ => rfl
  · rintro - w rfl
    exact Spec.keeps (Keeps.bind (padsAct_lamp _) fun _ => padsAct_lamp _) fun _ => rfl

theorem lastColour_pass (env : Firmware → Input) (hs : Off s) :
    lastColour (pass.exec env s).2 = lastColour s := by
  have hview : lampView (pass.exec env s).2 = lampView s :=
    (pass_spec (M := avr) hs.1 hs.2).exec env fun _ => rfl
  exact congrArg (fun v => lastColourOf v.2.1) hview

/-! ## A report after the start -/

/-- The start from `s`, and then two ticks: the host configures the device and sends the report. -/
def switchedBy (report : Input) (s : Firmware) : Sched Input :=
  (mainProgram 0).steadyThen (fun _ => Input.quiet) (irqs avr (fun _ => report) 2 fun _ => .stop) s

/-- The state after `n` such ticks. -/
def switched (report : Input) (n : Nat) (s : Firmware) : Firmware :=
  afterIrqs avr (fun _ => report) n (startUp.exec (fun _ => Input.quiet) s).2

theorem mainProgram_exec (env : Firmware → Input) (s : Firmware) :
    (mainProgram 0).exec env s = ((), (startUp.exec env s).2) := exec_bind env startUp _ s

theorem switchedBy_run {report : Input} {s : Firmware}
    (hen : ∀ k < 2, avr.enabled (switched report k s) = true) :
    (mainProgram 0).run avr (switchedBy report s) s = some ((), switched report 2 s) := by
  rw [switchedBy, run_steadyThen avr _ (fun _ => rfl), mainProgram_exec]
  exact run_irqs avr (fun _ => report) (fun _ => rfl) 2 (fun _ => .stop) (ret ()) _ hen

/-- Black is not missed in a tick with the report. -/
def KeepsBlack (report : Input) (s : Firmware) : Prop :=
  ∀ x ∈ timerHandler.trace avr (timerHandler.steady (fun _ => report) (avr.enter s)) (avr.enter s),
    x.1.led.mode ≠ 0 → Off x.2 → lastColour x.1 = some (0, 0, 0)

instance (report : Input) (s : Firmware) : Decidable (KeepsBlack report s) :=
  inferInstanceAs (Decidable (∀ x ∈ _, _ → _ → _))

theorem blackKept_irqs {report : Input} {n : Nat} (h : ∀ k < n, KeepsBlack report
    (afterIrqs avr (fun _ => report) k s)) :
    BlackKept (irqs avr (fun _ => report) n (fun _ => .stop) s) (ret () : Code Unit) s := by
  refine along_irqs avr _ (fun _ => rfl) _ _ _ (fun k hk hP => ?_) (fun k hk => ?_) trivial
  · rcases hP with ⟨r, g, b, h⟩ | h | h | ⟨v, -, h⟩ | h
    all_goals exact absurd h not_inside_ret
  · exact along_steady_of_trace avr (C := fun s t => s.led.mode ≠ 0 → Off t →
      lastColour s = some (0, 0, 0)) _ _ _ (h k hk)

/-- The mode at the start is 0 and main does not change it. -/
theorem startUp_keeps_mode : startUp.Keeps (SameOn fun s => s.led.mode) :=
  Keeps.mono (fun _ _ hst => congrArg (fun v => v.2.2.1) hst) startUp_host

theorem blackKept_switchedBy {report : Input} {s : Firmware} (hmode : s.led.mode = 0)
    (h : ∀ n < 2, KeepsBlack report (switched report n s)) :
    BlackKept (switchedBy report s) (mainProgram 0) s := by
  have hkeeps : (mainProgram 0).Keeps (SameOn fun s => s.led.mode) :=
    Keeps.bind startUp_keeps_mode fun _ => Keeps.ret _
  refine along_steadyThen avr (J := fun t => t.led.mode = 0) _ _ (fun P s t hst hs => ?_) hkeeps
    hmode ?_
  · exact ⟨fun hne => absurd hs hne, Eq.trans hst hs⟩
  · rw [mainProgram_exec]
    exact blackKept_irqs h

/-- A pass without interrupts in which the LED is off misses nothing. -/
theorem blackKept_steady (env : Firmware → Input) (hs : Off s) :
    BlackKept (pass.steady env s) pass s := by
  rw [← steadyThen_stop]
  refine along_steadyThen avr (J := Off) env _ (fun P s t hst hs => ?_) pass_keeps_off hs
    (along_stop _ _)
  exact ⟨fun hne => absurd hs.1 hne, hst.mpr hs⟩

theorem pass_run (env : Firmware → Input) (s : Firmware) :
    pass.run avr (pass.steady env s) s = some ((), (pass.exec env s).2) :=
  run_steady avr env (fun _ => rfl) pass s

/-- The host switches the LED off. -/
def blackReport : Input := ledReport [1, 1, 1, 1, 0]

theorem switched_blackReport : Off (switched blackReport 2 powerOn) ∧
    (∀ n < 2, KeepsBlack blackReport (switched blackReport n powerOn)) ∧
    ∀ n < 2, avr.enabled (switched blackReport n powerOn) = true := by
  decide +kernel

theorem staysOff_of_blackKept_report :
    lastColour (pass.exec (fun _ => Input.quiet) (switched blackReport 2 powerOn)).2
      = some (0, 0, 0) := by
  obtain ⟨hoff, hkeeps, hen⟩ := switched_blackReport
  exact staysOff_of_blackKept (switchedBy_run hen) (pass_run _ _)
    (blackKept_switchedBy rfl hkeeps) (blackKept_steady _ hoff) (visits_off hoff)

/-! ## A colour that is left -/

/-- The host takes the mode to 1, the status to 0 and the mode back to 0. -/
def strayReport : Input := ledReport [1, 3, 1, 4, 1, 0, 1, 1, 0, 0, 1, 4, 0, 0]

theorem switched_strayReport : Off (switched strayReport 2 powerOn) ∧
    lastColour (switched strayReport 2 powerOn) = some (0, 0, 1023) ∧
    ∀ n < 2, avr.enabled (switched strayReport n powerOn) = true := by
  decide +kernel

/-- The first colour stays to be seen. -/
theorem not_staysOff : ¬∀ (n : Nat) (sched sched' : Sched Input) (s t : Firmware),
    (mainProgram n).run avr sched powerOn = some ((), s) → pass.run avr sched' s = some ((), t) →
    (∀ u ∈ pass.visits avr sched' s, Off u) → lastColour t = some (0, 0, 0) := by
  intro h
  obtain ⟨hoff, hcolour, hen⟩ := switched_strayReport
  have hblack := h 0 _ _ _ _ (switchedBy_run hen) (pass_run (fun _ => Input.quiet) _)
    (visits_off hoff)
  rw [lastColour_pass _ hoff, hcolour] at hblack
  exact absurd hblack (by decide)

end SphereWare
