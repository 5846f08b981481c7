import SphereWare.Spec.LedCalls

/-!
# The frames the LED latches

`LED_SendPacket` protects `setting[]` but not the packet it shifts out: a tick that sends a colour
itself while main shifts a packet leaves its own packet behind, and main goes on with the bits of
that one. Where no tick does so, every frame that is latched is one that was asked for.
-/

namespace SphereWare

open Interrupt Prog ShiftRegister

/-! ## Requests -/

/-- `LED_SendPacket` puts its packet together or shifts it out. -/
def SendsBits {α : Type} (P : Code α) : Prop := Inside pushCommands P ∨ Inside shiftRest P

/-- Each channel has a value the LED can show. -/
def InRange (c : Colour) : Prop := c.1 ≤ 1023 ∧ c.2.1 ≤ 1023 ∧ c.2.2 ≤ 1023

/-- Nothing is latched, or the colour `c`, or the settings. -/
def Requested (c : Colour) (s t : Firmware) : Prop :=
  t.led.latched = s.led.latched ∨ ∃ frame, t.led.latched = s.led.latched ++ [frame] ∧
    (decodeFrame frame = ⟨0, c.1, c.2.1, c.2.2⟩ ∨
      decodeFrame frame = ⟨1, s.led.setting 0, s.led.setting 1, s.led.setting 2⟩)

/-- All that this call of `LED_Set_Colour` latches is its colour or the settings. -/
def CallRequested (c : Colour) (sched : Sched Input) (s : Firmware) : Prop :=
  (ledSetColour c.1 c.2.1 c.2.2).ownSteps avr (fun _ _ s t => Requested c s t) sched s

/--
Frames are latched in calls of `LED_Set_Colour` only, in main and in the handlers at any depth, and
each call with a colour of the LED latches what it was asked for.
-/
structure FramesRequested {α : Type} (sched : Sched Input) (p : Code α) (s : Firmware) : Prop where
  inCalls : p.everyStep avr (fun _ P s t => t.led.latched = s.led.latched ∨ InCall P) sched s
  calls : p.everyPoint avr (fun _ P s rest => ∀ c, InRange c → ∀ q,
    P = (ledSetColour c.1 c.2.1 c.2.2).bind q → CallRequested c rest s) sched s

/-- No tick that sends a colour strikes while a packet is put together or shifted out. -/
def BitsUndisturbed : IrqProp Firmware Input := fun _ P s inner => SendsBits P → Silent inner s

/-! ## Positions -/

theorem SendsBits.bind {α β : Type} {P : Code α} (h : SendsBits P) (q : α → Code β) :
    SendsBits (P.bind q) :=
  h.imp (fun h => h.bind q) fun h => h.bind q

/-- Inside a part that leaves the command mode alone no call begins. -/
theorem not_call_of_inside {α β : Type} {c : Code β} {P : Code α}
    (hc : c.Keeps (SameOn fun s => s.led.commandMode)) (h : Inside c P) (r g b : Nat)
    (q : Unit → Code α) : P ≠ (ledSetColour r g b).bind q := by
  obtain ⟨f, k, q', hr, rfl⟩ := h
  intro heq
  have hf : f = fun _ s => { s with led := { s.led with commandMode := 0b00 } } :=
    (Prog.step.inj heq).1
  have hkeeps := hr.keeps hc Input.quiet { powerOn with led := { Led.init with commandMode := 1 } }
  rw [hf] at hkeeps
  have hzero : (0 : Nat) = 1 := hkeeps.1
  exact absurd hzero (by decide)

theorem not_call_of_sendsBits {α : Type} {P : Code α} (h : SendsBits P) (r g b : Nat)
    (q : Unit → Code α) : P ≠ (ledSetColour r g b).bind q := by
  rcases h with h | h
  · exact not_call_of_inside (pushCommands_keeps fun _ _ => rfl) h r g b q
  · exact not_call_of_inside (shiftRest_keeps fun _ _ _ => rfl) h r g b q

/-! ## The contract -/

variable {set : Nat → Nat} {l : Line} {s : Firmware}

/-- A call may begin, or go on where it does not send bits. -/
def Ready (set : Nat → Nat) (l : Line) : Prop :=
  l.setting = set ∧ (l.clock = false ∨ l.register.getLsbD 0 = false)

/-- What every call leaves behind. -/
def settled (set : Nat → Nat) : Line where
  commandMode := 1
  red := set 0
  green := set 1
  blue := set 2
  setting := set
  packet := packFrame 1 (set 0) (set 1) (set 2)
  register := packFrame 1 (set 0) (set 1) (set 2)
  clock := false
  latch := false

theorem ready_settled : Ready set (settled set) := ⟨rfl, .inl rfl⟩

/--
What ticks do to the serial line: nothing, or they have sent a colour. Where bits are sent they do
nothing.
-/
def ledContract (set : Nat → Nat) : Contract Firmware Input where
  assume := anyStep
  irq := BitsUndisturbed
  rel _ P s t :=
    (Ready set (lineView s) → lineView t = lineView s ∨ lineView t = settled set) ∧
      (SendsBits P → wireView t = wireView s)
  safe _ P s := SendsBits P ∨ Ready set (lineView s)
  guarantee _ P s t := (t.led.latched = s.led.latched ∨ InCall P) ∧
    ∀ r g b q, P = (ledSetColour r g b).bind q → Ready set (lineView s)
  trans _ P s t u h₁ h₂ := by
    refine ⟨fun hs => ?_, fun hP => (h₂.2 hP).trans (h₁.2 hP)⟩
    rcases h₁.1 hs with hsame | hset
    · rw [← hsame] at hs ⊢
      exact h₂.1 hs
    · rcases h₂.1 (hset ▸ ready_settled) with hsame | hset'
      · exact .inr (hsame.trans hset)
      · exact .inr hset'

/-- What is promised of the steps of a program while the line is in use. -/
def Promised (set : Nat → Nat) (A : StepProp Firmware Input) : StepProp Firmware Input :=
  fun _ P s t => A P s t ∧ (SendsBits P ∨ Ready set (lineView s))

theorem ledContract_mono {A : StepProp Firmware Input}
    (hA : ∀ {α β : Type} {P : Code α} {q : α → Code β} {s t : Firmware}, A P s t →
      A (P.bind q) s t) :
    ((ledContract set).own anyStep (Promised set A)).Mono where
  assume h := h
  rel h := ⟨h.1, fun hP => h.2 (hP.bind _)⟩
  safe h := h.imp_left fun hP => hP.bind _
  guarantee h := ⟨hA h.1, h.2.imp_left fun hP => hP.bind _⟩

/-! ## A call -/

section Call

variable {c : Colour}

/-- What `LED_Set_Colour` asks for in its first packet (`first`) and in its second. -/
def Asked (set : Nat → Nat) (c : Colour) (first : Prop) (f : Frame) : Prop :=
  f = ⟨1, set 0, set 1, set 2⟩ ∨ (first ∧ f = ⟨0, c.1, c.2.1, c.2.2⟩)

/-- The mode and the commands are those of `f`. -/
def Line.Has (l : Line) (f : Frame) : Prop :=
  l.commandMode = f.mode ∧ l.red = f.red ∧ l.green = f.green ∧ l.blue = f.blue

/-- The contract under which a call with the colour `c` runs. -/
abbrev callContract (set : Nat → Nat) (c : Colour) : Contract Firmware Input :=
  (ledContract set).own anyStep (Promised set fun _ _ s t => InRange c → Requested c s t)

/-- A condition on the line under which a call can go on, also after another one. -/
structure Phase (set : Nat → Nat) (J : Line → Prop) : Prop where
  ready : ∀ l, J l → Ready set l
  settled : J (settled set)

theorem Phase.stable {J : Line → Prop} (hJ : Phase set J) {B G : StepProp Firmware Input} :
    ((ledContract set).own B G).Stable avr fun s => J (lineView s) where
  rel {_ _ s t} _ h hs := by
    rcases h.1 (hJ.ready _ hs) with hsame | hset
    · exact hsame ▸ hs
    · exact hset ▸ hJ.settled
  safe _ hs := .inr (hJ.ready _ hs)

/-- A step of a call from one phase to another. -/
theorem pwp_phase_bind {J : Line → Prop} (hJ : Phase set J) {H : Firmware → Prop}
    {f : Firmware → Firmware} {q : Unit → Code Unit} {Q : Unit → Firmware → Prop}
    (hs : J (lineView s))
    (hstep : ∀ t, J (lineView t) → (InRange c → Requested c t (f t)) ∧ H (f t))
    (hq : ∀ t, H t → (q ()).pwp avr (callContract set c) Q t) :
    ((act f).bind q).pwp avr (callContract set c) Q s := by
  refine pwp_step (K := callContract set c) hJ.stable hs fun _ t ht _ => ?_
  obtain ⟨hreq, hH⟩ := hstep t ht
  exact ⟨⟨hreq, .inr (hJ.ready _ ht)⟩, hq _ hH⟩

/-- A part of a call that sends bits: no tick touches the line meanwhile. -/
theorem pwp_bits_bind {part : Code Unit} {q : Unit → Code Unit} {Q : Unit → Firmware → Prop}
    {Q' : Unit → Line × Bool → Prop} (hpart : ∀ P : Code Unit, Inside part P → SendsBits P)
    (hkeeps : part.Keeps (SameOn fun s => s.led.latched))
    (hspec : Spec avr wireView (wireView s) part Q')
    (hq : ∀ t, Q' () (wireView t) → (q ()).pwp avr (callContract set c) Q t) :
    (part.bind q).pwp avr (callContract set c) Q s := by
  have hwp := wp_mono (fun _ t ht => hq t ht) (hspec s rfl)
  refine pwp_bind_of_wp (K := callContract set c) ?_ ?_ ?_ hkeeps hwp
  · exact fun P _ _ hin h => h.2 (hpart P hin)
  · exact fun P _ hin _ => .inl (hpart P hin)
  · exact fun P _ _ hin h => ⟨fun _ => .inl h, .inl (hpart P hin)⟩

/-! ### Phases -/

variable {first : Prop}

/-- The channels are set as far as `given` says, unless another call came between. -/
def Chosen (set : Nat → Nat) (given : Line → Prop) (l : Line) : Prop :=
  Ready set l ∧ (l.commandMode = 1 ∨ (l.commandMode = 0 ∧ given l))

theorem chosen_phase {given : Line → Prop} : Phase set (Chosen set given) :=
  ⟨fun _ h => h.1, ready_settled, .inl rfl⟩

/-- The mode and the commands are asked for. -/
def Loaded (set : Nat → Nat) (c : Colour) (first : Prop) (l : Line) : Prop :=
  Ready set l ∧ ∃ f, Asked set c first f ∧ l.Has f

theorem has_settled : (settled set).Has ⟨1, set 0, set 1, set 2⟩ := ⟨rfl, rfl, rfl, rfl⟩

theorem loaded_phase : Phase set (Loaded set c first) :=
  ⟨fun _ h => h.1, ready_settled, _, .inl rfl, has_settled⟩

/-- The packet is the one asked for. -/
def Packed (set : Nat → Nat) (c : Colour) (first : Prop) (l : Line) : Prop :=
  Ready set l ∧ ∃ f, Asked set c first f ∧ l.Has f ∧ l.packet = packFrame f.mode f.red f.green f.blue

theorem packed_phase : Phase set (Packed set c first) :=
  ⟨fun _ h => h.1, ready_settled, _, .inl rfl, has_settled, rfl⟩

/-- The packet is in the register. -/
def Shifted (set : Nat → Nat) (c : Colour) (first : Prop) (l : Line) : Prop :=
  l.setting = set ∧ l.clock = false ∧ ∃ f, Asked set c first f ∧ l.Has f ∧
    l.packet = packFrame f.mode f.red f.green f.blue ∧ l.register = l.packet

theorem shifted_phase : Phase set (Shifted set c first) :=
  ⟨fun _ h => ⟨h.1, .inl h.2.1⟩, rfl, rfl, _, .inl rfl, has_settled, rfl, rfl⟩

theorem Asked.mode_lt {f : Frame} (h : Asked set c first f) : f.mode < 2 := by
  rcases h with rfl | ⟨-, rfl⟩
  · exact Nat.one_lt_two
  · exact Nat.two_pos

/-! ### `LED_SendPacket` -/

/-- What `LED_SendPacket` needs, for the first packet of a call or for the second. -/
abbrev Given (c : Colour) (first : Prop) (l : Line) : Prop :=
  first ∧ l.red = c.1 ∧ l.green = c.2.1 ∧ l.blue = c.2.2

theorem loaded_loadSetting (h : Chosen set (Given c first) (lineView s)) :
    Loaded set c first (lineView { s with led := s.led.loadSetting }) := by
  obtain ⟨⟨hset, hclock⟩, hmode⟩ := h
  unfold Led.loadSetting
  by_cases h1 : s.led.commandMode = 1
  · rw [if_pos h1]
    have hval : s.led.setting = set := hset
    refine ⟨⟨hset, hclock⟩, _, .inl rfl, h1, ?_⟩
    rw [← hval]
    exact ⟨rfl, rfl, rfl⟩
  · rw [if_neg h1]
    obtain ⟨h0, hfirst, hcommands⟩ := hmode.resolve_left h1
    exact ⟨⟨hset, hclock⟩, _, .inr ⟨hfirst, rfl⟩, h0, hcommands⟩

theorem ledSendPacket_pwp (h : Chosen set (Given c first) (lineView s)) :
    ledSendPacket.pwp avr (callContract set c) (fun _ t => Shifted set c first (lineView t)) s := by
  rw [ledSendPacket_eq]
  refine pwp_phase_bind chosen_phase h (H := fun t => Chosen set (Given c first) (lineView t))
    (fun t ht => ⟨fun _ => .inl rfl, ht⟩) fun t ht => ?_
  refine pwp_phase_bind chosen_phase ht (H := fun t => Loaded set c first (lineView t))
    (fun t ht => ⟨fun _ => .inl ?_, loaded_loadSetting ht⟩) fun t ht => ?_
  · show t.led.loadSetting.latched = t.led.latched
    unfold Led.loadSetting
    split <;> rfl
  refine pwp_phase_bind loaded_phase ht (H := fun t => Loaded set c first (lineView t))
    (fun t ht => ⟨fun _ => .inl rfl, ht⟩) fun t ht => ?_
  refine pwp_phase_bind loaded_phase ht (H := fun t => Loaded set c first (lineView t) ∧
    (lineView t).packet = BitVec.ofNat 32 ((lineView t).commandMode % 4))
    (fun t ht => ⟨fun _ => .inl rfl, ht, rfl⟩) fun t ht => ?_
  refine pwp_bits_bind (fun _ => .inl) (pushCommands_keeps fun _ _ => rfl)
    (pushCommands_spec ht.2) fun u hu => ?_
  have hpacked : Packed set c first (lineView u) := by
    obtain ⟨⟨hready, f, hasked, hhas⟩, -⟩ := ht
    rw [show lineView u = _ from congrArg Prod.fst hu]
    refine ⟨hready, f, hasked, hhas, ?_⟩
    rw [← hhas.1, ← hhas.2.1, ← hhas.2.2.1, ← hhas.2.2.2]
  refine pwp_phase_bind packed_phase hpacked (H := fun t => Packed set c first (lineView t) ∧
    t.ports.data = (lineView t).packet.getLsbD 31) (fun t ht => ⟨fun _ => .inl rfl, ht, ?_⟩) fun t ht => ?_
  · exact congrArg Prod.snd (wireView_writeData (t.led.commandPacket.getLsbD 31) t)
  -- both packets begin with a 0, so the first clock may be lost on a register that ends with one
  obtain ⟨⟨⟨hset, hclock⟩, f, hasked, hhas, hpacket⟩, hdata⟩ := ht
  have hfirst : t.ports.data = false := by
    rw [hdata, hpacket]
    exact packFrame_first hasked.mode_lt _ _ _
  rw [← bind_ret shiftRest]
  refine pwp_bits_bind (fun _ => .inr) (shiftRest_keeps fun _ _ _ => rfl)
    (shiftRest_spec hdata.symm (hfirst ▸ hclock)) fun w hw => ?_
  obtain ⟨d, hw⟩ := hw
  refine pwp_ret (K := callContract set c) shifted_phase.stable ?_
  rw [show lineView w = _ from congrArg Prod.fst hw]
  exact ⟨hset, rfl, f, hasked, hhas, hpacket, rfl⟩

/-! ### `LED_Latch` -/

/-- A frame that is asked for is what the LED makes of its packet. -/
theorem requested_latchHigh (hset : ∀ i < 3, set i ≤ 1023) (hc : InRange c)
    (h : Shifted set c first (lineView s)) :
    Requested c s (latchHigh s) := by
  obtain ⟨hsetting, -, f, hasked, -, hpacket, hregister⟩ := h
  have hframe : s.led.shiftRegister = packFrame f.mode f.red f.green f.blue :=
    hregister.trans hpacket
  by_cases hlow : s.ports.portE &&& 0x40 = 0
  · refine .inr ⟨s.led.shiftRegister, ?_, ?_⟩
    · simp only [latchHigh, hlow, if_true]
    · rw [hframe, decodeFrame_packFrame]
      have hval : s.led.setting = set := hsetting
      have hmod {n : Nat} (hn : n ≤ 1023) : n % 1024 = n := Nat.mod_eq_of_lt (by omega)
      rcases hasked with rfl | ⟨-, rfl⟩
      · right
        dsimp only
        rw [hval, hmod (hset 0 (by decide)), hmod (hset 1 (by decide)), hmod (hset 2 (by decide))]
      · left
        dsimp only
        rw [hmod hc.1, hmod hc.2.1, hmod hc.2.2]
  · left
    simp only [latchHigh, hlow, if_false]

theorem ledLatch_pwp (hset : ∀ i < 3, set i ≤ 1023) (h : Shifted set c first (lineView s)) :
    ledLatch.pwp avr (callContract set c)
      (fun _ t => Shifted set c first (lineView t) ∧ (lineView t).latch = false) s := by
  refine pwp_phase_bind shifted_phase h (H := fun t => Shifted set c first (lineView t))
    (fun t ht => ⟨fun hc => requested_latchHigh hset hc ht, ?_⟩) fun t ht => ?_
  · rw [lineView_latchHigh]
    exact ht
  refine pwp_phase_bind shifted_phase ht (H := fun t => Shifted set c first (lineView t))
    (fun t ht => ⟨fun _ => .inl rfl, ?_⟩) fun t ht => ?_
  · rw [lineView_enable]
    exact ht
  refine pwp_phase_bind shifted_phase ht (H := fun t => Shifted set c first (lineView t))
    (fun t ht => ⟨fun _ => .inl rfl, ?_⟩) fun t ht => ?_
  · rw [lineView_enable]
    exact ht
  rw [← bind_ret (act latchLow)]
  refine pwp_phase_bind shifted_phase ht (H := fun t => Shifted set c first (lineView t) ∧
    (lineView t).latch = false) (fun t ht => ⟨fun _ => .inl rfl, ?_⟩) fun t ht => ?_
  · rw [lineView_latchLow]
    exact ⟨ht, rfl⟩
  have hphase : Phase set fun l => Shifted set c first l ∧ l.latch = false :=
    ⟨fun l hl => shifted_phase.ready l hl.1, shifted_phase.settled, rfl⟩
  exact pwp_ret (K := callContract set c) hphase.stable ht

/-! ### `LED_Set_Colour` -/

/-- After the second packet all of the line is as every call leaves it. -/
theorem eq_settled (h : Shifted set c False l) (hlatch : l.latch = false) : l = settled set := by
  obtain ⟨hset, hclock, f, hasked, ⟨hmode, hred, hgreen, hblue⟩, hpacket, hregister⟩ := h
  rw [hpacket] at hregister
  obtain rfl := hasked.resolve_right fun h => h.1
  cases l
  simp only at hset hclock hmode hred hgreen hblue hpacket hregister hlatch
  simp only [settled, hset, hclock, hmode, hred, hgreen, hblue, hpacket, hregister, hlatch]

/-- **A call latches what it was asked for, and leaves the line settled.** -/
theorem ledSetColour_pwp (hset : ∀ i < 3, set i ≤ 1023) (h : Ready set (lineView s)) :
    (ledSetColour c.1 c.2.1 c.2.2).pwp avr (callContract set c)
      (fun _ t => lineView t = settled set) s := by
  have hready : Phase set (Ready set) := ⟨fun _ h => h, ready_settled⟩
  refine pwp_phase_bind hready h (H := fun t => Chosen set (fun _ => True) (lineView t))
    (fun t ht => ⟨fun _ => .inl rfl, ht, .inr ⟨rfl, trivial⟩⟩) fun t ht => ?_
  refine pwp_phase_bind chosen_phase ht (H := fun t => Chosen set (fun l => l.red = c.1)
    (lineView t)) (fun t ht => ⟨fun _ => .inl rfl, ht.1, ht.2.imp_right fun h => ⟨h.1, rfl⟩⟩) fun t ht => ?_
  refine pwp_phase_bind chosen_phase ht (H := fun t => Chosen set
    (fun l => l.red = c.1 ∧ l.green = c.2.1) (lineView t))
    (fun t ht => ⟨fun _ => .inl rfl, ht.1, ht.2.imp_right fun h => ⟨h.1, h.2, rfl⟩⟩) fun t ht => ?_
  refine pwp_phase_bind chosen_phase ht (H := fun t => Chosen set (Given c True) (lineView t))
    (fun t ht => ⟨fun _ => .inl rfl, ht.1, ht.2.imp_right fun h => ⟨h.1, trivial, h.2.1, h.2.2, rfl⟩⟩)
    fun t ht => ?_
  refine pwp_bind (ledContract_mono fun h => h) (pwp_mono (fun _ t ht => ?_) (ledSendPacket_pwp ht))
  refine pwp_bind (ledContract_mono fun h => h) (pwp_mono (fun _ t ht => ?_) (ledLatch_pwp hset ht))
  refine pwp_phase_bind shifted_phase ht.1 (H := fun t => Chosen set (Given c False) (lineView t))
    (fun t ht => ⟨fun _ => .inl rfl, ⟨ht.1, .inl ht.2.1⟩, .inl rfl⟩) fun t ht => ?_
  refine pwp_bind (ledContract_mono fun h => h) (pwp_mono (fun _ t ht => ?_) (ledSendPacket_pwp ht))
  exact pwp_mono (fun _ t ht => eq_settled ht.1 ht.2) (ledLatch_pwp hset ht)

end Call

/-! ## Programs that send colours -/

/-- What is promised of the steps of main and of a handler that sends colours. -/
def Latches : StepProp Firmware Input := fun _ P s t => t.led.latched = s.led.latched ∨ InCall P

/-- The contract of main and of such a handler. -/
abbrev sendContract (set : Nat → Nat) : Contract Firmware Input :=
  (ledContract set).own anyStep (Promised set Latches)

theorem sendContract_mono : (sendContract set).Mono :=
  ledContract_mono fun h => h.imp_right fun hP => hP.bind _

/-- The program keeps to the contract and leaves the line in the phase `J`. -/
abbrev Orderly (set : Nat → Nat) (J : Line → Prop) {α : Type} (p : Code α) : Prop :=
  p.Carries avr (sendContract set) fun s => J (lineView s)

namespace Orderly

variable {J : Line → Prop} (hJ : Phase set J)

include hJ

/-- A program that leaves alone the line and what is latched. -/
theorem of_keeps {τ α : Type} {g : Firmware → τ} {f : τ → Line × List (BitVec 32)}
    (hg : ∀ s, f (g s) = (lineView s, s.led.latched)) {p : Code α} (hp : p.Keeps (SameOn g)) :
    Orderly set J p := by
  refine Carries.of_keeps (K := sendContract set) hJ.stable (fun P s t hst _ hs => ?_) hp
  have hsame : (lineView t, t.led.latched) = (lineView s, s.led.latched) := by
    rw [← hg, ← hg, show g t = g s from hst]
  rw [Prod.mk.injEq] at hsame
  exact ⟨⟨.inl hsame.2, .inr (hJ.ready _ hs)⟩, hsame.1 ▸ hs⟩

theorem of_lamp {α : Type} {p : Code α} (hp : p.Keeps (SameOn lampView)) : Orderly set J p :=
  of_keeps hJ (f := fun v => (v.1, v.2.1)) (fun _ => rfl) hp

/-- A step on variables of the LED that sending a colour does not depend on. -/
theorem of_led (f : Led → Led)
    (hf : ∀ l, (f l).line = l.line ∧ (f l).latched = l.latched) : Orderly set J (ledAct f) := by
  refine of_keeps hJ (g := fun s => (lineView s, s.led.latched)) (f := id) (fun _ => rfl)
    (Keeps.act fun s => ?_)
  show (_, _) = (_, _)
  obtain ⟨hline, hlatched⟩ := hf s.led
  rw [Prod.mk.injEq, lineView, lineView, hline]
  exact ⟨rfl, hlatched⟩

theorem call (hset : ∀ i < 3, set i ≤ 1023) (r g b : Nat) :
    Orderly set J (ledSetColour r g b) := by
  intro s hs
  have hret := Carries.ret (K := sendContract set) hJ.stable ()
  rw [← bind_ret (ledSetColour r g b)]
  refine pwp_bind_of_inside (L := callContract set (r, g, b)) (fun _ _ _ h => h) ?_ ?_ ?_
    (pwp_mono (fun _ t ht => ?_) (ledSetColour_pwp hset (hJ.ready _ hs)))
  · exact fun _ _ _ h => ⟨h.1, fun hP => h.2 (hP.bind _)⟩
  · exact fun _ _ h => h.imp_left fun hP => hP.bind _
  · exact fun _ _ hr h => ⟨.inr ⟨r, g, b, hr.inside _⟩, h.2.imp_left fun hP => hP.bind _⟩
  · have hJt : J (lineView t) := ht ▸ hJ.settled
    exact hret t hJt

end Orderly

section Parts

variable {J : Line → Prop} (hJ : Phase set J) (hset : ∀ i < 3, set i ≤ 1023)

include hJ hset

theorem ledSetStatus_orderly (v : UInt8) : Orderly set J (ledSetStatus v) := by
  refine .bind sendContract_mono (Orderly.of_led hJ _ fun _ => ⟨rfl, rfl⟩) fun _ => ?_
  refine .bind sendContract_mono (Orderly.of_lamp hJ (read_lamp _)) fun mode => ?_
  refine .when hJ.stable (.ite (Orderly.call hJ hset _ _ _) ?_)
  exact .bind sendContract_mono (Orderly.of_lamp hJ (read_lamp _)) fun c => Orderly.call hJ hset _ _ _

theorem ledSetPressureStatus_orderly (v : UInt8) : Orderly set J (ledSetPressureStatus v) := by
  refine .bind sendContract_mono (Orderly.of_led hJ _ fun _ => ⟨rfl, rfl⟩) fun _ => ?_
  refine .bind sendContract_mono (Orderly.of_lamp hJ (read_lamp _)) fun mode => .when hJ.stable ?_
  refine .bind sendContract_mono (Orderly.of_lamp hJ (read_lamp _)) fun on => .when hJ.stable ?_
  exact .bind sendContract_mono (Orderly.of_lamp hJ (read_lamp _)) fun c => Orderly.call hJ hset _ _ _

theorem timerHandler_orderly : Orderly set J timerHandler :=
  timerHandler_of (R := fun p => Orderly set J p)
    { keeps := fun hp => Orderly.of_keeps hJ (f := fun v => (v.1.1, v.2.1)) (fun _ => rfl) hp
      bind := fun hp hq => .bind sendContract_mono hp hq
      status := ledSetStatus_orderly hJ hset
      pressureStatus := ledSetPressureStatus_orderly hJ hset }

theorem ledColour_orderly : Orderly set J ledColour := by
  refine .bind sendContract_mono (Orderly.of_lamp hJ (read_lamp _)) fun mode => .ite ?_ ?_
  · rw [normalColour_eq]
    refine .bind sendContract_mono (Orderly.of_lamp hJ (read_lamp _)) fun status => .when hJ.stable ?_
    exact .bind sendContract_mono (Orderly.of_lamp hJ colourToSet_lamp) fun c => Orderly.call hJ hset _ _ _
  · refine .bind sendContract_mono (Orderly.of_lamp hJ (read_lamp _)) fun mode => .when hJ.stable ?_
    refine .bind sendContract_mono (Orderly.of_lamp hJ (Keeps.act fun _ => rfl)) fun _ => ?_
    refine .bind sendContract_mono ?_ fun _ => ?_
    · refine .bind sendContract_mono (Orderly.of_lamp hJ (read_lamp _)) fun c => Orderly.call hJ hset _ _ _
    · exact Orderly.of_lamp hJ (Keeps.bind (Keeps.act fun _ => rfl) fun _ => Keeps.ret _)

theorem mainProgram_orderly (n : Nat) : Orderly set J (mainProgram n) := fun s hs =>
  mainProgram_pwp sendContract_mono (Orderly.of_lamp hJ) (ledColour_orderly hJ hset)
    (Orderly.call hJ hset 0 0 1023 s hs) n

end Parts

/-! ## Ticks that send no colour -/

/-- What is known and promised of the steps of such a tick. -/
abbrev silentContract (set : Nat → Nat) : Contract Firmware Input :=
  (ledContract set).own (fun _ P _ _ => ¬InCall P) fun _ _ s t => t.led.latched = s.led.latched

theorem silentContract_callFree : CallFree (silentContract set) fun _ => True where
  mono :=
    { assume := fun h => ⟨h.1, fun hP => h.2 (hP.bind _)⟩
      rel := fun h => ⟨h.1, fun hP => h.2 (hP.bind _)⟩
      safe := fun h => h.imp_left fun hP => hP.bind _
      guarantee := fun h => h }
  noCall h := h.2
  guarantee h := h
  step _ _ _ := trivial
  status _ _ _ _ := trivial
  pressureStatus _ _ _ := trivial

/-! ## Every run -/

/-- **The contract holds of the ticks.** -/
theorem ledContract_sound (hset : ∀ i < 3, set i ≤ 1023) : (ledContract set).Sound avr := by
  intro α P s inner hen hsafe hirq
  by_cases hP : SendsBits P
  · refine ⟨fun _ P _ _ => ¬InCall P, fun _ _ s t => t.led.latched = s.led.latched,
      fun t => SameOn stillView (avr.enter s) t ∧ True, hirq hP, ?_, ?_, ?_⟩
    · intro _ P s t hG hB
      exact ⟨.inl hG, fun r g b q heq => absurd (heq ▸ inCall_bind r g b q) hB⟩
    · exact silentContract_callFree.carries_timerHandler rfl _ ⟨rfl, trivial⟩
    · intro t _ ht
      have hwire : wireView t = wireView s := congrArg Prod.fst ht.1
      exact ⟨fun _ => .inl (congrArg Prod.fst hwire), fun _ => hwire⟩
  · have hready : Ready set (lineView s) := hsafe.resolve_left hP
    let J (l : Line) : Prop := l = lineView s ∨ l = settled set
    have hJ : Phase set J := by
      refine ⟨fun l hl => ?_, .inr rfl⟩
      rcases hl with rfl | rfl
      · exact hready
      · exact ready_settled
    refine ⟨anyStep, Promised set Latches, fun t => J (lineView t), along_any _ _ _, ?_,
      timerHandler_orderly hJ hset _ (.inl rfl), ?_⟩
    · intro _ P s t hG _
      refine ⟨hG.1, fun r g b q heq => hG.2.resolve_left fun hbits => ?_⟩
      exact not_call_of_sendsBits hbits r g b q heq
    · exact fun t _ ht => ⟨fun _ => ht, fun hbits => absurd hbits hP⟩

/-- In a run in which `BitsUndisturbed` holds, a call that begins where it may meets its request. -/
theorem callRequested_of_along {α : Type} {c : Colour} {sched : Sched Input} {q : Unit → Code α}
    (hset : ∀ i < 3, set i ≤ 1023) (hc : InRange c) (hready : Ready set (lineView s))
    (h : ((ledSetColour c.1 c.2.1 c.2.2).bind q).along avr anyStep anyStep BitsUndisturbed sched s) :
    CallRequested c sched s := by
  have hcall : (ledSetColour c.1 c.2.1 c.2.2).along avr anyStep anyStep BitsUndisturbed sched s :=
    along_of_bind (fun _ _ _ _ _ h => h) (fun _ q _ _ h hP => h (hP.bind q)) sched _ q s h
  have hpromise := pwp_sound (ledContract_sound hset) sched anyStep _ _ _ s hcall
    (along_any _ _ _) (ledSetColour_pwp hset hready)
  exact ownSteps_of_along (fun _ _ _ h => h.1 hc) sched _ s hpromise.1

/--
**Where no tick disturbs the bits of a packet, every frame the LED latches was asked for.**

What is promised of the whole run gives the state in which each call begins; from there the call is
followed on its own.
-/
theorem framesRequested_of_undisturbed (n : Nat) (sched : Sched Input)
    (h : (mainProgram n).along avr anyStep anyStep BitsUndisturbed sched powerOn) :
    FramesRequested sched (mainProgram n) powerOn := by
  let set (i : Nat) : Nat := if i < 3 then 127 else 0
  have hset : ∀ i < 3, set i ≤ 1023 := by decide
  have hready : Ready set (lineView powerOn) := ⟨rfl, .inr rfl⟩
  have hphase : Phase set (Ready set) := ⟨fun _ h => h, ready_settled⟩
  have hpromise := (pwp_sound (ledContract_sound hset) sched anyStep _ _ _ powerOn h
    (along_any _ _ _) (mainProgram_orderly hphase hset n powerOn hready)).1
  have hall : (mainProgram n).everyStep avr (ledContract set).guarantee sched powerOn := by
    refine along_own (fun P s t hG _ => ⟨hG.1, fun r g b q heq => ?_⟩) sched _ _ hpromise
      (along_any _ _ _)
    exact hG.2.resolve_left fun hbits => not_call_of_sendsBits hbits r g b q heq
  refine ⟨everyStep_mono (fun _ _ _ h => h.1) sched _ _ hall, ?_⟩
  refine everyPoint_of_along (fun p s i rest hadm hA hB c hc q heq => ?_) sched _ _ h hall
  subst heq
  exact callRequested_of_along hset hc ((hB hadm).1.2 _ _ _ q rfl) hA

/-! ## A colour after the start -/

/-- The host configures the device, and then switches the LED on. -/
def statusReport : Input := ledReport [1, 1, 1, 1, 1]

/-- The start, and then two ticks. -/
def switchedOn : Sched Input :=
  (mainProgram 0).steadyThen (fun _ => Input.quiet)
    (irqs avr (fun _ => statusReport) 2 fun _ => .stop) powerOn

/-- Between packets a tick may send what it likes. -/
theorem bitsUndisturbed_ret (inner : Sched Input) (s : Firmware) :
    BitsUndisturbed (ret () : Code Unit) s inner := by
  rintro (h | h)
  · exact absurd h not_inside_ret
  · exact absurd h not_inside_ret

theorem undisturbed_switchedOn (p : Code Unit) (s : Firmware) :
    p.along avr anyStep anyStep BitsUndisturbed (p.steadyThen (fun _ => Input.quiet)
      (irqs avr (fun _ => statusReport) 2 fun _ => .stop) s) s := by
  refine along_steadyThen avr (S := fun _ _ => True) (J := fun _ => True) _ _
    (fun _ _ _ _ _ => ⟨trivial, trivial⟩) (Keeps.any p) trivial ?_
  exact along_irqs avr _ (fun _ => rfl) _ _ _ (fun _ _ => bitsUndisturbed_ret _ _)
    (fun _ _ => along_steady _ (fun _ _ _ => trivial) _ _) trivial

/-- Main sends one colour, and the second tick sends another. -/
theorem framesRequested_of_undisturbed_switchedOn :
    (startUp.exec (fun _ => Input.quiet) powerOn).2.led.latched.length = 2 ∧
      (afterIrqs avr (fun _ => statusReport) 2
        (startUp.exec (fun _ => Input.quiet) powerOn).2).led.latched.length = 4 ∧
      FramesRequested switchedOn (mainProgram 0) powerOn :=
  ⟨by decide +kernel, by decide +kernel,
    framesRequested_of_undisturbed 0 _ (undisturbed_switchedOn _ _)⟩

/-! ## A disturbed packet -/

/-- The schedule in which both happen when main has shifted eight bits out. -/
def disturbed : Sched Input :=
  stepsThen (fun _ => Input.quiet)
    (fun p s => irqs avr (fun _ => statusReport) 2 (p.steady fun _ => Input.quiet) s) 35
    (mainProgram 0) powerOn

/-- What `Requested` says of the last frame. -/
def lastRequested (c : Colour) (s t : Firmware) : Bool :=
  decide (t.led.latched = s.led.latched) ||
    t.led.latched.getLast?.any fun frame =>
      decide (decodeFrame frame = ⟨0, c.1, c.2.1, c.2.2⟩) ||
        decide (decodeFrame frame = ⟨1, s.led.setting 0, s.led.setting 1, s.led.setting 2⟩)

theorem lastRequested_of_requested {c : Colour} {s t : Firmware} (h : Requested c s t) :
    lastRequested c s t = true := by
  unfold lastRequested
  rcases h with h | ⟨frame, h, hframe⟩
  · simp [h]
  · simpa [h] using hframe

/-- A call at the beginning of the program. -/
theorem FramesRequested.first {α : Type} {env : Firmware → Input} {n : Nat} {c : Colour}
    {rest : Code α → Firmware → Sched Input} {q : Unit → Code α} {s : Firmware}
    (h : FramesRequested (stepsThen env rest (n + 1) ((ledSetColour c.1 c.2.1 c.2.2).bind q) s)
      ((ledSetColour c.1 c.2.1 c.2.2).bind q) s) (hc : InRange c) :
    CallRequested c (stepsThen env rest (n + 1) ((ledSetColour c.1 c.2.1 c.2.2).bind q) s) s :=
  (h.calls rfl).1 c hc q rfl

theorem mainProgram_eq (n : Nat) : ∃ q, mainProgram n = (ledSetColour 0 0 1023).bind q :=
  ⟨_, bind_assoc (ledSetColour 0 0 1023) _ _⟩

/-- The LED takes over a frame whose blue channel is mixed from two others. -/
theorem not_framesRequested : ¬∀ n sched, FramesRequested sched (mainProgram n) powerOn := by
  intro h
  have hcall : CallRequested (0, 0, 1023) disturbed powerOn := by
    have hmain := h 0 disturbed
    obtain ⟨q, hq⟩ := mainProgram_eq 0
    unfold disturbed at hmain ⊢
    rw [hq] at hmain ⊢
    exact hmain.first ⟨by decide, by decide, by decide⟩
  have hlast : ∀ x ∈ (ledSetColour 0 0 1023).trace avr disturbed powerOn,
      lastRequested (0, 0, 1023) x.1 x.2 = true :=
    fun x hx => lastRequested_of_requested (forall_mem_trace avr disturbed _ _ hcall x hx)
  exact absurd hlast (by decide +kernel)

end SphereWare
