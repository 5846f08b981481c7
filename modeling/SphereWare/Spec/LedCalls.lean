import SphereWare.Spec.MainProgram

/-!
# Calls of `LED_Set_Colour` in a run

A tick that sends no colour leaves the serial line as it was: it cannot be interrupted itself, since
interrupts come on again in `LED_SendPacket` only.
-/

namespace SphereWare

open Interrupt Prog

/-- `LED_Set_Colour` runs. -/
def InCall {α : Type} (P : Code α) : Prop := ∃ r g b, Inside (ledSetColour r g b) P

/-- The tick sends no colour. -/
def Silent (inner : Sched Input) (s : Firmware) : Prop :=
  timerHandler.ownSteps avr (fun _ P _ _ => ¬InCall P) inner (avr.enter s)

theorem InCall.bind {α β : Type} {P : Code α} (h : InCall P) (q : α → Code β) :
    InCall (P.bind q) := by
  obtain ⟨r, g, b, h⟩ := h
  exact ⟨r, g, b, h.bind q⟩

/-- A call begins. -/
theorem inCall_bind {α : Type} (r g b : Nat) (q : Unit → Code α) :
    InCall ((ledSetColour r g b).bind q) := ⟨r, g, b, Residual.refl.inside q⟩

theorem inCall (r g b : Nat) : InCall (ledSetColour r g b) := by
  rw [← bind_ret (ledSetColour r g b)]
  exact inCall_bind r g b ret

/-- The host configures the device, and then sends a report that begins with these bytes. -/
def ledReport (bytes : List UInt8) : Input :=
  { Input.quiet with tick := { TickInput.quiet with
    usbEvent := some .setConfiguration
    hidOut := some (bytes ++ List.replicate (64 - bytes.length) 0)
    hidLater := [List.replicate 63 0] } }

/-- What a tick that sends no colour leaves alone. -/
def stillView (s : Firmware) := (wireView s, s.led.latched, s.cpu.iflag)

/-- `J` is kept by all that a tick does, but for `LED_Set_Status`, under a contract without calls. -/
structure CallFree (K : Contract Firmware Input) (J : Firmware → Prop) : Prop where
  mono : K.Mono
  noCall : ∀ {α : Type} {P : Code α} {s t : Firmware}, K.assume P s t → ¬InCall P
  guarantee : ∀ {α : Type} {P : Code α} {s t : Firmware}, t.led.latched = s.led.latched →
    K.guarantee P s t
  step : ∀ {α : Type} {P : Code α} {s t : Firmware}, SameOn panelView s t → K.assume P s t →
    J s → J t
  /-- In mode 0 a colour is sent. -/
  status : ∀ (s : Firmware) (v : UInt8), s.led.mode ≠ 0 → J s →
    J { s with led := { s.led with status := v } }
  pressureStatus : ∀ (s : Firmware) (v : UInt8), J s →
    J { s with led := { s.led with pressureStatus := v } }

namespace CallFree

variable {K : Contract Firmware Input} {J : Firmware → Prop} (h : CallFree K J) {s₀ : Firmware}

theorem iflag {s t : Firmware} (h : SameOn stillView s t) : t.cpu.iflag = s.cpu.iflag :=
  congrArg (fun v => v.2.2) h

/-- Where interrupts are off, nothing interferes. -/
theorem stable {Φ : Firmware → Prop} (hoff : s₀.cpu.iflag = false)
    (hΦ : ∀ s, Φ s → SameOn stillView s₀ s) : K.Stable avr Φ := by
  have habsurd {s : Firmware} (hen : avr.enabled s = true) (hs : Φ s) : False := by
    rw [avr_enabled, iflag (hΦ s hs), hoff] at hen
    exact Bool.false_ne_true hen
  exact ⟨fun hen _ hs => (habsurd hen hs).elim, fun hen hs => (habsurd hen hs).elim⟩

include h

theorem of_panel (hoff : s₀.cpu.iflag = false) {α : Type} {p : Code α}
    (hp : p.Keeps (SameOn panelView)) :
    p.Carries avr K fun t => SameOn stillView s₀ t ∧ J t := by
  refine .of_keeps (stable hoff fun _ ht => ht.1) (fun P s t hst hA hs => ?_) hp
  have hpanel : panelView t = panelView s := hst
  have hstill : stillView t = stillView s := congrArg (fun v => (v.1, v.2.1, v.2.2.2)) hpanel
  have hlatched : t.led.latched = s.led.latched := congrArg (fun v => v.2.1) hst
  exact ⟨h.guarantee hlatched, SameOn.trans hs.1 hstill, h.step hst hA hs.2⟩

omit h in
/-- A call cannot begin. -/
theorem call (h : CallFree K J) {Φ : Firmware → Prop} (hoff : s₀.cpu.iflag = false)
    (hΦ : ∀ s, Φ s → SameOn stillView s₀ s) (r g b : Nat) {Q : Unit → Firmware → Prop}
    {s : Firmware} (hs : Φ s) : (ledSetColour r g b).pwp avr K Q s := by
  refine pwp_step (stable (K := K) hoff hΦ) hs fun i t _ hA => ?_
  exact absurd (inCall r g b) (h.noCall hA)

theorem carries_status (hoff : s₀.cpu.iflag = false) (v : UInt8) :
    (ledSetStatus v).Carries avr K fun t => SameOn stillView s₀ t ∧ J t := by
  let Φ (t : Firmware) : Prop := SameOn stillView s₀ t ∧ J t
  let Ψ (t : Firmware) : Prop := SameOn stillView s₀ t ∧ (t.led.mode ≠ 0 → J t)
  have hΦ : K.Stable avr Φ := stable hoff fun _ ht => ht.1
  have hΨ : K.Stable avr Ψ := stable hoff fun _ ht => ht.1
  intro s hs
  refine pwp_step hΦ hs fun _ t ht _ => ⟨h.guarantee rfl, ?_⟩
  have hstored : Ψ { t with led := { t.led with status := v } } :=
    ⟨SameOn.trans ht.1 rfl, fun hmode => h.status t v hmode ht.2⟩
  refine pwp_step hΨ hstored fun _ t ht _ => ⟨h.guarantee rfl, ?_⟩
  show (when (t.led.mode = 0) _).pwp avr K _ t
  unfold when
  split
  · split
    · exact h.call hoff (fun _ ht => ht.1) 0 0 0 ht
    · refine pwp_step hΨ ht fun _ t ht _ => ⟨h.guarantee rfl, ?_⟩
      exact h.call hoff (fun _ ht => ht.1) _ _ _ ht
  · next hmode => exact pwp_ret hΦ ⟨ht.1, ht.2 hmode⟩

theorem carries_pressureStatus (hoff : s₀.cpu.iflag = false) (v : UInt8) :
    (ledSetPressureStatus v).Carries avr K fun t => SameOn stillView s₀ t ∧ J t := by
  have hΦ : K.Stable avr fun t => SameOn stillView s₀ t ∧ J t := stable hoff fun _ ht => ht.1
  have hread {α : Type} (f : Firmware → α) :
      (read f : Code α).Carries avr K fun t => SameOn stillView s₀ t ∧ J t :=
    h.of_panel hoff (Keeps.atomic fun _ _ => rfl)
  refine .bind h.mono (fun s hs => ?_) fun _ => .bind h.mono (hread _) fun mode => ?_
  · refine pwp_step hΦ hs fun _ t ht _ => ⟨h.guarantee rfl, pwp_ret hΦ ?_⟩
    exact ⟨SameOn.trans ht.1 rfl, h.pressureStatus t v ht.2⟩
  · refine .when hΦ (.bind h.mono (hread _) fun on => .when hΦ (.bind h.mono (hread _) fun c => ?_))
    exact fun s hs => h.call hoff (fun _ (ht : SameOn stillView s₀ _ ∧ _) => ht.1) _ _ _ hs

/-- **A tick that sends no colour leaves the line alone, and keeps `J`.** -/
theorem carries_timerHandler (hoff : s₀.cpu.iflag = false) :
    timerHandler.Carries avr K fun t => SameOn stillView s₀ t ∧ J t :=
  timerHandler_of (R := fun p => p.Carries avr K fun t => SameOn stillView s₀ t ∧ J t)
    { keeps := fun hp => h.of_panel hoff hp
      bind := fun hp hq => .bind h.mono hp hq
      status := h.carries_status hoff
      pressureStatus := h.carries_pressureStatus hoff }

end CallFree

end SphereWare
