import SphereWare.ShiftRegister.Serial
import SphereWare.Interrupt.View
import SphereWare.Firmware.Frame

/-!
# The serial line of the LED

A frame has two bits for the mode and ten for each channel. What sending one depends on is collected
in a view of the state, `lineView`, and the bit on the data pin, which main's multiplexer and bias
converter share a port with.

`LED_SendPacket` puts a packet together (`pushCommands`) and clocks it out (`shiftRest`). Nothing
that happens in between these two parts does any harm; inside them `led_command_packet` and the
register belong together bit by bit.
-/

namespace SphereWare

open Interrupt Prog ShiftRegister

/-! ## Frames -/

/-- What the LED makes of the 32 bits in its register. -/
structure Frame where
  mode : Nat
  red : Nat
  green : Nat
  blue : Nat
  deriving DecidableEq, Repr

/-- Two bits for the mode and ten each for blue, red and green, the highest first. -/
def decodeFrame (f : BitVec 32) : Frame where
  mode := f.toNat / 2 ^ 30
  blue := f.toNat / 2 ^ 20 % 1024
  red := f.toNat / 2 ^ 10 % 1024
  green := f.toNat % 1024

/-- A packet with another command appended. -/
def pushField (packet : BitVec 32) (command : Nat) : BitVec 32 :=
  (packet <<< 10) ||| BitVec.ofNat 32 (command % 1024)

/-- The packet `LED_SendPacket` puts together. -/
def packFrame (mode red green blue : Nat) : BitVec 32 :=
  pushField (pushField (pushField (BitVec.ofNat 32 (mode % 4)) blue) red) green

theorem toNat_pushField {p : BitVec 32} (command : Nat) (hp : p.toNat < 2 ^ 22) :
    (pushField p command).toNat = p.toNat * 1024 + command % 1024 :=
  toNat_shiftLeft_or (n := 10) (by omega) (by omega)

theorem toNat_packFrame (mode red green blue : Nat) : (packFrame mode red green blue).toNat
    = ((mode % 4 * 1024 + blue % 1024) * 1024 + red % 1024) * 1024 + green % 1024 := by
  have hmode : (BitVec.ofNat 32 (mode % 4)).toNat = mode % 4 := by
    rw [BitVec.toNat_ofNat]
    omega
  have hblue := toNat_pushField blue (p := BitVec.ofNat 32 (mode % 4)) (by omega)
  have hred := toNat_pushField red (p := pushField (BitVec.ofNat 32 (mode % 4)) blue) (by omega)
  rw [packFrame, toNat_pushField green (by omega), hred, hblue, hmode]

/-- **A frame decodes to what it was packed from.** -/
theorem decodeFrame_packFrame (mode red green blue : Nat) :
    decodeFrame (packFrame mode red green blue)
      = ⟨mode % 4, red % 1024, green % 1024, blue % 1024⟩ := by
  simp only [decodeFrame, toNat_packFrame, Frame.mk.injEq]
  omega

/-- In the modes the firmware uses, the first bit of a packet is 0. -/
theorem packFrame_first {mode : Nat} (hmode : mode < 2) (red green blue : Nat) :
    (packFrame mode red green blue).getLsbD 31 = false := by
  have hlt : (packFrame mode red green blue).toNat < 2 ^ 31 := by
    rw [toNat_packFrame]
    omega
  rw [BitVec.getLsbD, Nat.testBit_lt_two_pow hlt]

/-! ## The view -/

/-- What sending a colour works on, up to the data pin. -/
structure Line where
  commandMode : Nat
  red : Nat
  green : Nat
  blue : Nat
  setting : Nat → Nat
  packet : BitVec 32
  register : BitVec 32
  /-- `CLKPIN` and `LATPIN` are high. -/
  clock : Bool
  latch : Bool

def Ports.clock (p : Ports) : Bool := decide (p.portC &&& 0x80 ≠ 0)

def Ports.latch (p : Ports) : Bool := decide (p.portE &&& 0x40 ≠ 0)

def Ports.data (p : Ports) : Bool := decide (p.portF &&& 0x80 ≠ 0)

def Led.line (l : Led) (clock latch : Bool) : Line where
  commandMode := l.commandMode
  red := l.redCommand
  green := l.greenCommand
  blue := l.blueCommand
  setting := l.setting
  packet := l.commandPacket
  register := l.shiftRegister
  clock := clock
  latch := latch

def lineView (s : Firmware) : Line := s.led.line s.ports.clock s.ports.latch

/-- The line and the data pin. -/
def wireView (s : Firmware) : Line × Bool := (lineView s, s.ports.data)

namespace Line

def clockHigh (l : Line) (data : Bool) : Line :=
  { l with
    register := if l.clock then l.register else l.register.shiftConcat data
    clock := true }

def clockLow (l : Line) : Line := { l with clock := false }

end Line

/-- The pins as bits of their ports: what the steps on the serial line do to them. -/
theorem pins (b : UInt8) :
    ((b ||| 0x80) &&& 0x80 ≠ 0 ∧ (b &&& 0x7F) &&& 0x80 = 0) ∧
      ((b ||| 0x40) &&& 0x40 ≠ 0 ∧ (b &&& 0xBF) &&& 0x40 = 0) ∧
      ((b ||| 0x40) &&& 0x80 = b &&& 0x80 ∧ (b &&& 0xBF) &&& 0x80 = b &&& 0x80) := by
  revert b
  exact forall_byte (by decide +kernel)

theorem led_clockHigh (s : Firmware) : (clockHigh s).led = { s.led with
    shiftRegister := if s.ports.clock then s.led.shiftRegister
      else s.led.shiftRegister.shiftConcat s.ports.data } := by
  unfold clockHigh Ports.clock Ports.data
  rw [shiftConcat_eq_or]
  by_cases hc : s.ports.portC &&& 0x80 = 0
  · by_cases hd : s.ports.portF &&& 0x80 = 0
    · simp [hc, hd]
    · simp [hc, hd]
  · simp [hc]

theorem wireView_clockHigh (s : Firmware) :
    wireView (clockHigh s) = ((lineView s).clockHigh s.ports.data, s.ports.data) := by
  have hclock : (clockHigh s).ports.clock = true := decide_eq_true (pins s.ports.portC).1.1
  rw [wireView, lineView, led_clockHigh, hclock]
  rfl

theorem wireView_clockLow (s : Firmware) :
    wireView (clockLow s) = ((lineView s).clockLow, s.ports.data) := by
  have hclock : (clockLow s).ports.clock = false :=
    decide_eq_false (not_not_intro (pins s.ports.portC).1.2)
  rw [wireView, lineView, hclock]
  rfl

theorem wireView_writeData (b : Bool) (s : Firmware) :
    wireView { s with ports := s.ports.writeData b } = (lineView s, b) := by
  have hdata : (s.ports.writeData b).data = b := by
    cases b with
    | true => exact decide_eq_true (pins s.ports.portF).1.1
    | false => exact decide_eq_false (not_not_intro (pins s.ports.portF).1.2)
  rw [wireView, hdata]
  rfl

theorem lineView_latchHigh (s : Firmware) :
    lineView (latchHigh s) = { lineView s with latch := true } := by
  have hlatch : (latchHigh s).ports.latch = true := decide_eq_true (pins s.ports.portE).2.1.1
  have hled : ∃ l, (latchHigh s).led = { s.led with latched := l } := by
    unfold latchHigh
    dsimp only
    split
    · exact ⟨_, rfl⟩
    · exact ⟨s.led.latched, rfl⟩
  obtain ⟨l, hled⟩ := hled
  rw [lineView, hlatch, hled]
  rfl

theorem lineView_latchLow (s : Firmware) :
    lineView (latchLow s) = { lineView s with latch := false } := by
  have hlatch : (latchLow s).ports.latch = false :=
    decide_eq_false (not_not_intro (pins s.ports.portE).2.1.2)
  rw [lineView, hlatch]
  rfl

theorem lineView_enable (b : Bool) (s : Firmware) : lineView (enable b s) = lineView s := by
  have hclock : (enable b s).ports.clock = s.ports.clock := by
    obtain ⟨hon, hoff⟩ := (pins s.ports.portC).2.2
    cases b with
    | true => simp only [enable, Ports.clock, if_true, hon]
    | false => simp only [enable, Ports.clock, Bool.false_eq_true, if_false, hoff]
  rw [lineView, hclock]
  rfl

/-! ## Putting a packet together -/

/-- The three commands, after the mode is in the packet. -/
def pushCommands : Code Unit := do
  ledAct fun l => l.pushCommand l.blueCommand
  ledAct fun l => l.pushCommand l.redCommand
  ledAct fun l => l.pushCommand l.greenCommand

theorem pushCommands_keeps {τ : Type} {g : Firmware → τ}
    (hg : ∀ s p, g { s with led := { s.led with commandPacket := p } } = g s) :
    pushCommands.Keeps (SameOn g) :=
  Keeps.bind (Keeps.act fun s => hg s _) fun _ =>
    Keeps.bind (Keeps.act fun s => hg s _) fun _ => Keeps.act fun s => hg s _

variable {M : Machine Firmware Input} {l : Line} {d : Bool}

/-- A packet whose first command is yet to come. -/
theorem pushCommands_spec (hpacket : l.packet = BitVec.ofNat 32 (l.commandMode % 4)) :
    Spec M wireView (l, d) pushCommands fun _ w =>
      w = ({ l with packet := packFrame l.commandMode l.red l.green l.blue }, d) := by
  refine Spec.map_bind (fun w => ({ w.1 with packet := pushField w.1.packet w.1.blue }, w.2))
    (fun _ => rfl) ?_
  refine Spec.map_bind (fun w => ({ w.1 with packet := pushField w.1.packet w.1.red }, w.2))
    (fun _ => rfl) ?_
  refine Spec.map (fun w => ({ w.1 with packet := pushField w.1.packet w.1.green }, w.2))
    (fun _ => rfl) ?_
  simp only [hpacket, packFrame]

/-! ## Clocking it out -/

/-- The bits after the first `j`. -/
def shiftFrom (j : Nat) : Code Unit := forEach (List.range' j (32 - j)) ledSendBit

/-- The loop of `LED_SendPacket` once the first bit is on the data pin. -/
def shiftRest : Code Unit := do
  act clockHigh
  act clockLow
  shiftFrom 1

/-- **A packet, cut where its parts begin.** -/
theorem ledSendPacket_eq : ledSendPacket = (do
    cli
    ledAct Led.loadSetting
    sei
    ledAct fun l => { l with commandPacket := BitVec.ofNat 32 (l.commandMode % 4) }
    pushCommands
    act fun s => { s with ports := s.ports.writeData (s.led.commandPacket.getLsbD 31) }
    shiftRest) := rfl

theorem shiftFrom_spec {j : Nat} (hj : j ≤ 32) (hclock : l.clock = false)
    (hreceived : Received l.packet j l.register) :
    Spec M wireView (l, d) (shiftFrom j) fun _ w =>
      ∃ d', w = ({ l with register := l.packet }, d') := by
  have hloop : Spec M wireView (l, d) (shiftFrom j) fun _ w => ∃ r d',
      Received l.packet 32 r ∧ w = ({ l with register := r }, d') := by
    have hturn := Spec.forEach_range' (M := M) (g := wireView) (v := (l, d)) (m := j) (n := 32 - j)
      (p := ledSendBit) (fun n w => ∃ r d', Received l.packet n r ∧
        w = ({ l with register := r }, d')) (fun n hjn hn w hw => ?_) ⟨l.register, d, hreceived, rfl⟩
    · rwa [show j + (32 - j) = 32 by omega] at hturn
    · obtain ⟨r, d', hr, rfl⟩ := hw
      refine Spec.map_bind (fun w => (w.1, w.1.packet.getLsbD (31 - n)))
        (fun t => wireView_writeData _ t) ?_
      refine Spec.map_bind (fun w => (w.1.clockHigh w.2, w.2)) wireView_clockHigh ?_
      refine Spec.map (fun w => (w.1.clockLow, w.2)) wireView_clockLow ?_
      refine ⟨_, l.packet.getLsbD (31 - n), hr.shiftConcat (by omega), ?_⟩
      simp only [Line.clockHigh, Line.clockLow, hclock]
      rfl
  refine Spec.mono hloop ?_
  rintro - w ⟨r, d', hr, rfl⟩
  rw [hr.eq]
  exact ⟨d', rfl⟩

theorem shiftRest_keeps {τ : Type} {g : Firmware → τ}
    (hg : ∀ s r p, g { s with led := { s.led with shiftRegister := r }, ports := p } = g s) :
    shiftRest.Keeps (SameOn g) := by
  have hhigh (s : Firmware) : SameOn g s (clockHigh s) := by
    have h := hg s (clockHigh s).led.shiftRegister (clockHigh s).ports
    rw [led_clockHigh] at h
    rwa [SameOn, show clockHigh s = { s with led := (clockHigh s).led, ports := (clockHigh s).ports }
      from rfl, led_clockHigh]
  have hports (s : Firmware) (p : Ports) : SameOn g s { s with ports := p } :=
    hg s s.led.shiftRegister p
  refine Keeps.bind (Keeps.act hhigh) fun _ => ?_
  refine Keeps.bind (Keeps.act fun s => hports s (clockLow s).ports) fun _ => ?_
  refine Keeps.forEach fun j _ => Keeps.bind (Keeps.act fun s => hports s _) fun _ => ?_
  exact Keeps.bind (Keeps.act hhigh) fun _ => Keeps.act fun s => hports s (clockLow s).ports

/-- The first clock is lost where `CLKPIN` is high, and then the register must hold that bit. -/
theorem shiftRest_spec (hdata : l.packet.getLsbD 31 = d)
    (hclock : l.clock = false ∨ l.register.getLsbD 0 = d) :
    Spec M wireView (l, d) shiftRest fun _ w => ∃ d',
      w = ({ l with register := l.packet, clock := false }, d') := by
  refine Spec.map_bind (fun w => (w.1.clockHigh w.2, w.2)) wireView_clockHigh ?_
  refine Spec.map_bind (fun w => (w.1.clockLow, w.2)) wireView_clockLow ?_
  refine shiftFrom_spec (l := (l.clockHigh d).clockLow) (by decide) rfl ?_
  show Received l.packet 1 (if l.clock then l.register else l.register.shiftConcat d)
  split
  · next hhigh =>
    intro i hi
    obtain rfl : i = 0 := by omega
    rw [hclock.resolve_left (by rw [hhigh]; decide), ← hdata]
  · rw [← hdata]
    exact Received.zero.shiftConcat (by decide)

/-! ## Sending a colour -/

/-- The line, the data pin and the frames latched so far. -/
def serialView (s : Firmware) := (wireView s, s.led.latched)

/-- `Led.loadSetting` on the line. -/
def Line.load (l : Line) : Line :=
  if l.commandMode = 0b01 then
    { l with red := l.setting 0, green := l.setting 1, blue := l.setting 2 }
  else l

/-- The packet that is sent. -/
def Line.frame (l : Line) : BitVec 32 := packFrame l.commandMode l.red l.green l.blue

variable {fs : List (BitVec 32)}

/-- A part of the work on the line latches nothing. -/
theorem serial_of_wire {p : Code Unit} {Q : Unit → Line × Bool → Prop}
    (h : Spec M wireView (l, d) p Q) (hp : p.Keeps (SameOn fun s => s.led.latched)) :
    Spec M serialView ((l, d), fs) p fun a w => ∃ v, Q a v ∧ w = (v, fs) := by
  have hwire : Spec M serialView ((l, d), fs) p fun a w => Q a w.1 :=
    Spec.of_part (f := Prod.fst) (fun _ => rfl) h
  have hlatched : Spec M serialView ((l, d), fs) p fun _ w => w.2 = fs :=
    Spec.of_keeps (S := fun v w : (Line × Bool) × List (BitVec 32) => w.2 = v.2) (fun _ => rfl)
      (fun _ _ _ h₁ h₂ => h₂.trans h₁) hp
  exact Spec.mono (hwire.and hlatched) fun a w hw => ⟨w.1, hw.1, Prod.ext rfl hw.2⟩

theorem ledSendPacket_spec (hclock : l.clock = false) :
    Spec M serialView ((l, d), fs) ledSendPacket fun _ w =>
      ∃ d', w = (({ l.load with packet := l.load.frame, register := l.load.frame }, d'), fs) := by
  have hload : l.load.clock = false := by
    unfold Line.load
    split <;> exact hclock
  rw [ledSendPacket_eq]
  refine Spec.keeps_bind (Keeps.act fun _ => rfl) fun _ => ?_
  refine Spec.map_bind (fun w => ((w.1.1.load, w.1.2), w.2)) (fun s => ?_) ?_
  · unfold serialView wireView lineView Led.loadSetting Line.load Led.line
    dsimp only
    split <;> rfl
  refine Spec.keeps_bind (Keeps.act fun _ => rfl) fun _ => ?_
  refine Spec.map_bind (fun w => (({ w.1.1 with
    packet := BitVec.ofNat 32 (w.1.1.commandMode % 4) }, w.1.2), w.2)) (fun _ => rfl) ?_
  refine Spec.bind (serial_of_wire (pushCommands_spec rfl) (pushCommands_keeps fun _ _ => rfl)) ?_
  rintro - _ ⟨_, rfl, rfl⟩
  refine Spec.map_bind (fun w => ((w.1.1, w.1.1.packet.getLsbD 31), w.2))
    (fun s => congrArg (Prod.mk · s.led.latched) (wireView_writeData _ s)) ?_
  refine Spec.mono (serial_of_wire (shiftRest_spec rfl (.inl hload))
    (shiftRest_keeps fun _ _ _ => rfl)) ?_
  rintro - _ ⟨_, ⟨d', rfl⟩, rfl⟩
  refine ⟨d', ?_⟩
  simp only [Line.frame, hload]

theorem serialView_latchHigh {s : Firmware} (hlatch : (lineView s).latch = false) :
    serialView (latchHigh s) = (({ lineView s with latch := true }, s.ports.data),
      s.led.latched ++ [s.led.shiftRegister]) := by
  have hlow : s.ports.portE &&& 0x40 = 0 := by
    by_contra h
    exact absurd (hlatch.symm.trans (decide_eq_true h)) (by decide)
  have hlatched : (latchHigh s).led.latched = s.led.latched ++ [s.led.shiftRegister] := by
    simp only [latchHigh, hlow, if_true]
  rw [serialView, wireView, lineView_latchHigh, hlatched]
  rfl

theorem ledLatch_spec (hlatch : l.latch = false) :
    Spec M serialView ((l, d), fs) ledLatch fun _ w => w = ((l, d), fs ++ [l.register]) := by
  refine Spec.act_bind (({ l with latch := true }, d), fs ++ [l.register]) (fun t ht => ?_) ?_
  · have hline : lineView t = l := congrArg (fun v => v.1.1) ht
    have hdata : t.ports.data = d := congrArg (fun v => v.1.2) ht
    have hlatched : t.led.latched = fs := congrArg (fun v => v.2) ht
    rw [serialView_latchHigh (hline ▸ hlatch), hline, hdata, hlatched, ← hline]
    rfl
  have henable (b : Bool) : (act (enable b) : Code Unit).Keeps (SameOn serialView) :=
    Keeps.act fun s => congrArg (fun v => ((v, s.ports.data), s.led.latched)) (lineView_enable b s)
  refine Spec.keeps_bind (henable true) fun _ => Spec.keeps_bind (henable false) fun _ => ?_
  refine Spec.map (fun w => (({ w.1.1 with latch := false }, w.1.2), w.2))
    (fun s => congrArg (fun v => ((v, s.ports.data), s.led.latched)) (lineView_latchLow s)) ?_
  rw [← hlatch]

/-- **A call of `LED_Set_Colour` that is left alone latches its colour and the settings.** -/
theorem ledSetColour_spec (r g b : Nat) (hclock : l.clock = false) (hlatch : l.latch = false) :
    Spec M serialView ((l, d), fs) (ledSetColour r g b) fun _ w => w.2 =
      fs ++ [packFrame 0 r g b] ++ [packFrame 1 (l.setting 0) (l.setting 1) (l.setting 2)] := by
  refine Spec.map_bind (fun w => (({ w.1.1 with commandMode := 0 }, w.1.2), w.2)) (fun _ => rfl) ?_
  refine Spec.map_bind (fun w => (({ w.1.1 with red := r }, w.1.2), w.2)) (fun _ => rfl) ?_
  refine Spec.map_bind (fun w => (({ w.1.1 with green := g }, w.1.2), w.2)) (fun _ => rfl) ?_
  refine Spec.map_bind (fun w => (({ w.1.1 with blue := b }, w.1.2), w.2)) (fun _ => rfl) ?_
  refine Spec.bind (ledSendPacket_spec hclock) ?_
  rintro - _ ⟨d₁, rfl⟩
  refine Spec.bind (ledLatch_spec hlatch) ?_
  rintro - _ rfl
  refine Spec.map_bind (fun w => (({ w.1.1 with commandMode := 1 }, w.1.2), w.2)) (fun _ => rfl) ?_
  refine Spec.bind (ledSendPacket_spec hclock) ?_
  rintro - _ ⟨d₂, rfl⟩
  refine Spec.mono (ledLatch_spec hlatch) ?_
  rintro - _ rfl
  rfl

end SphereWare
