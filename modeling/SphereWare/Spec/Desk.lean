import SphereWare.MidiWire.Event
import SphereWare.Spec.OutReport

/-!
# The desk

What the host has set and sent, without the registers, buffers and endpoints it went through: the
settings of the LED and its clock, and what has left on the two MIDI lines. A report of the host is
a list of orders (`RxBuffer.orders`), and the firmware carries them out one after the other
(`genericHIDProcessReport_desk`).
-/

namespace SphereWare

open Interrupt Prog

/-! ## The MIDI IN endpoint -/

/--
The bytes in the bank of the MIDI IN endpoint, those the host has got or can fetch, and how often
the bank was released.
-/
structure Outlet where
  bank : List UInt8
  sent : List UInt8
  releases : Nat
  deriving DecidableEq, Repr

namespace Outlet

/-- Clearing the endpoint hands the bank over, also if the firmware takes it for an OUT endpoint. -/
def apply (o : Outlet) : EndpointOp → Outlet
  | .write .midiIn data => { o with bank := o.bank ++ data }
  | .clearIN .midiIn => ⟨[], o.sent ++ o.bank, o.releases + 1⟩
  | .clearOUT .midiIn => ⟨[], o.sent ++ o.bank, o.releases⟩
  | _ => o

/-- Writes the data, if the bank is free for it, and hands the bank over. -/
def send (o : Outlet) (fetched : Nat → Bool) (data : List UInt8) : Outlet :=
  ⟨[], o.sent ++ if fetched o.releases then o.bank ++ data else o.bank, o.releases + 1⟩

theorem apply_clearOUT {o : Outlet} (h : o.bank = []) (ep : Endpoint) :
    o.apply (.clearOUT ep) = o := by
  cases ep with
  | midiIn =>
    rw [apply, h, List.append_nil, ← h]
  | _ => rfl

end Outlet

/-- The MIDI IN endpoint after all operations so far. -/
def Usb.outlet (u : Usb) : Outlet := u.ops.foldl Outlet.apply ⟨[], [], 0⟩

theorem Usb.outlet_append (u : Usb) (ops : List EndpointOp) :
    (u.ops ++ ops).foldl Outlet.apply ⟨[], [], 0⟩ = ops.foldl Outlet.apply u.outlet :=
  List.foldl_append

theorem Usb.outlet_write (u : Usb) (data : List UInt8) :
    (u.write data).outlet = u.outlet.apply (.write u.selected data) := u.outlet_append _

theorem Usb.outlet_clearIN (u : Usb) : u.clearIN.outlet = u.outlet.apply (.clearIN u.selected) :=
  u.outlet_append _

theorem Usb.outlet_clearOUT (u : Usb) :
    u.clearOUT.outlet = u.outlet.apply (.clearOUT u.selected) := u.outlet_append _

theorem Outlet.releases_foldl (o : Outlet) (ops : List EndpointOp) :
    (ops.foldl apply o).releases = o.releases + ops.count (.clearIN .midiIn) := by
  induction ops generalizing o with
  | nil => rfl
  | cons op ops ih =>
    rw [List.foldl_cons, ih, List.count_cons]
    have hop : (o.apply op).releases = o.releases + if op == .clearIN .midiIn then 1 else 0 := by
      rcases op with ⟨ep, data⟩ | ep | ep <;> cases ep <;> rfl
    omega

theorem Usb.releases_outlet (u : Usb) : u.outlet.releases = u.midiReleases :=
  (Outlet.releases_foldl _ _).trans (Nat.zero_add _)

/-! ## Desks -/

structure Desk where
  mode : UInt8
  status : UInt8
  pressureStatus : UInt8
  clockStatus : UInt8
  /-- 0 if no clock runs, 1 for the clock of AlphaLive, 2 for the MIDI clock. -/
  clockRunning : UInt8
  tempo : Nat
  palette : Nat → Colour
  staticColour : Colour
  /-- MIDI clocks since the last beat. -/
  clocks : UInt8
  serial : List UInt8
  outlet : Outlet

/-- The desk as the firmware has it. -/
def Firmware.desk (s : Firmware) : Desk where
  mode := s.led.mode
  status := s.led.status
  pressureStatus := s.led.pressureStatus
  clockStatus := s.led.clockStatus
  clockRunning := s.led.clockRunning
  tempo := s.led.tempo
  palette row := (s.led.colourValues row 0, s.led.colourValues row 1, s.led.colourValues row 2)
  staticColour :=
    (s.led.staticColourValues 0, s.led.staticColourValues 1, s.led.staticColourValues 2)
  clocks := s.midi.clockTimingCount
  serial := s.midi.uart
  outlet := s.usb.outlet

/-- What the host asks for. -/
inductive Order where
  /--
  Pass the message on. On USB this takes the place of a packet which the host may have fetched by
  then: `fetched` says after which releases it does.
  -/
  | midi (status data1 data2 : UInt8) (fetched : Nat → Bool)
  | status (v : UInt8)
  | pressureStatus (v : UInt8)
  | clockStatus (v : UInt8)
  | mode (v : UInt8)
  | colour (row : Nat) (red green blue : UInt8)
  /-- Start or stop the clock of AlphaLive, at a tempo in two bytes. -/
  | clock (start low high : UInt8)
  /-- A MIDI message from USB. -/
  | event (b0 b1 b2 : UInt8)

namespace Desk

/-- The LED shows a colour at most as bright as it can take. -/
def shown (c : ℚ × ℚ × ℚ) : Colour :=
  let c := scaleColour c
  (truncate c.1, truncate c.2.1, truncate c.2.2)

def setColour (p : Desk) (row : Nat) (red green blue : UInt8) : Desk :=
  let scaled (v : UInt8) : ℚ := 1023 * v.toNat / 255
  { p with
    palette := Function.update p.palette row (shown (scaled red, scaled green, scaled blue)) }

/-- On USB a message with status 0 is left out. -/
def sendUsb (p : Desk) (status data1 data2 : UInt8) (fetched : Nat → Bool) : Desk :=
  if status = 0 then p
  else { p with outlet := p.outlet.send fetched (MidiWire.event status data1 data2) }

def sendSerial (p : Desk) (status data1 data2 : UInt8) : Desk :=
  { p with serial := p.serial ++ [status, data1, data2] }

/-- The MIDI clock does not get through to a desk that follows AlphaLive. -/
def midiClock (p : Desk) (b : UInt8) : Desk :=
  if p.clockRunning = 1 then p
  else if b = 250 ∨ b = 251 then { p with clockRunning := 2, clocks := 0 }
  else if b = 252 then { p with clockRunning := 0 }
  else if b = 248 then { p with clocks := if 24 ≤ (p.clocks + 1).toNat then 0 else p.clocks + 1 }
  else p

/-- The control changes on channel 16. -/
def control (p : Desk) (b1 b2 : UInt8) : Desk :=
  let scaled : ℚ := 1023 * b2.toNat / 127
  let c := p.staticColour
  if b1 = 20 then { p with mode := if b2 = 0 then 0 else 1 }
  else if b1 = 21 then { p with staticColour := shown (scaled, c.2.1, c.2.2) }
  else if b1 = 22 then { p with staticColour := shown (c.1, scaled, c.2.2) }
  else if b1 = 23 then { p with staticColour := shown (c.1, c.2.1, scaled) }
  else p

/-- Carries out an order. -/
def apply (p : Desk) : Order → Desk
  | .midi status data1 data2 fetched =>
    (p.sendUsb status data1 data2 fetched).sendSerial status data1 data2
  | .status v => { p with status := v }
  | .pressureStatus v => { p with pressureStatus := v }
  | .clockStatus v => { p with clockStatus := v }
  | .mode v => { p with mode := v }
  | .colour row red green blue => p.setColour row red green blue
  | .clock start low high =>
    if p.clockRunning = 2 then p
    else { p with
      clockRunning := if start = 0 then 0 else 1
      tempo := low.toNat + 256 * high.toNat }
  | .event b0 b1 b2 =>
    let p := p.midiClock b0
    if b0 = 191 then p.control b1 b2 else p

/-- Carries out orders, one after the other. -/
def applyAll (p : Desk) (orders : List Order) : Desk := orders.foldl apply p

theorem applyAll_append (p : Desk) (l l' : List Order) :
    p.applyAll (l ++ l') = (p.applyAll l).applyAll l' := List.foldl_append

/-- Nothing waits in the bank of the MIDI IN endpoint. -/
def Idle (p : Desk) : Prop := p.outlet.bank = []

theorem outlet_midiClock (p : Desk) (b : UInt8) : (p.midiClock b).outlet = p.outlet := by
  unfold midiClock
  repeat' split
  all_goals rfl

theorem outlet_control (p : Desk) (b1 b2 : UInt8) : (p.control b1 b2).outlet = p.outlet := by
  unfold control
  dsimp only
  repeat' split
  all_goals rfl

theorem Idle.apply {p : Desk} (h : p.Idle) (o : Order) : (p.apply o).Idle := by
  cases o with
  | midi status data1 data2 fetched =>
    show (p.sendUsb status data1 data2 fetched).outlet.bank = []
    rw [Desk.sendUsb]
    split
    · exact h
    · rfl
  | clock start low high =>
    show (if p.clockRunning = 2 then p else _ : Desk).outlet.bank = []
    split <;> exact h
  | event b0 b1 b2 =>
    show (if b0 = 191 then (p.midiClock b0).control b1 b2 else p.midiClock b0).outlet.bank = []
    split
    · rw [outlet_control, outlet_midiClock]
      exact h
    · rw [outlet_midiClock]
      exact h
  | _ => exact h

theorem Idle.applyAll {p : Desk} (h : p.Idle) (orders : List Order) : (p.applyAll orders).Idle := by
  induction orders generalizing p with
  | nil => exact h
  | cons o orders ih => exact ih (h.apply o)

end Desk

/-- The message the order is to pass on. -/
def Order.message : Order → Option MidiWire.Message
  | .midi b1 b2 b3 _ => some (.ofBytes b1 b2 b3)
  | _ => none

namespace Desk

/-- The host hears the message the order passes on if the bank is free for it. -/
def hears (p : Desk) : Order → Bool
  | .midi _ _ _ fetched => fetched p.outlet.releases
  | _ => false

/-- The messages the host hears while the orders are carried out. -/
def heard (p : Desk) : List Order → List MidiWire.Message
  | [] => []
  | o :: orders => (if p.hears o then o.message.toList else []) ++ (p.apply o).heard orders

/-- The event the order puts on USB. -/
def usbBytes (p : Desk) : Order → List UInt8
  | .midi b1 b2 b3 fetched =>
    if b1 ≠ 0 ∧ fetched p.outlet.releases = true then MidiWire.event b1 b2 b3 else []
  | _ => []

theorem sent_apply {p : Desk} (h : p.Idle) (o : Order) :
    (p.apply o).outlet.sent = p.outlet.sent ++ p.usbBytes o := by
  cases o with
  | midi status data1 data2 fetched =>
    show (p.sendUsb status data1 data2 fetched).outlet.sent = p.outlet.sent ++ if _ then _ else _
    rw [sendUsb]
    split
    · next hstatus => simp [hstatus]
    · next hstatus =>
      have hbank : p.outlet.bank = [] := h
      simp [hstatus, Outlet.send, hbank]
  | clock start low high =>
    show (if p.clockRunning = 2 then p else _ : Desk).outlet.sent = _
    split <;> exact (List.append_nil _).symm
  | event b0 b1 b2 =>
    show (if b0 = 191 then (p.midiClock b0).control b1 b2 else p.midiClock b0).outlet.sent = _
    split
    · rw [outlet_control, outlet_midiClock]
      exact (List.append_nil _).symm
    · rw [outlet_midiClock]
      exact (List.append_nil _).symm
  | _ => exact (List.append_nil _).symm

/-- **Valid messages are heard as they were sent.** -/
theorem decodeEvents_usbBytes (p : Desk) (o : Order) (h : ∀ m ∈ o.message, m.Valid)
    (rest : List UInt8) : MidiWire.decodeEvents (p.usbBytes o ++ rest)
      = (if p.hears o then o.message.toList else []) ++ MidiWire.decodeEvents rest := by
  cases o with
  | midi status data1 data2 fetched =>
    have hm : (MidiWire.Message.ofBytes status data1 data2).Valid := h _ rfl
    -- 0 is no status
    have hstatus : status ≠ 0 := by
      rintro rfl
      exact absurd hm.1 (by decide)
    show MidiWire.decodeEvents ((if _ then _ else _) ++ rest)
      = (if fetched p.outlet.releases = true then _ else _) ++ _
    by_cases hfetched : fetched p.outlet.releases = true
    · rw [if_pos ⟨hstatus, hfetched⟩, if_pos hfetched, MidiWire.decodeEvents_event hm]
      rfl
    · rw [if_neg fun h => hfetched h.2, if_neg hfetched]
      rfl
  | _ => rfl

/-- **What goes on USB for a list of orders.** -/
theorem sent_applyAll {p : Desk} (h : p.Idle) (orders : List Order)
    (hvalid : ∀ m ∈ orders.filterMap Order.message, m.Valid) :
    ∃ l, (p.applyAll orders).outlet.sent = p.outlet.sent ++ l ∧
      MidiWire.decodeEvents l = p.heard orders := by
  induction orders generalizing p with
  | nil => exact ⟨[], (List.append_nil _).symm, rfl⟩
  | cons o orders ih =>
    have hfirst : ∀ m ∈ o.message, m.Valid := fun m hm =>
      hvalid m (List.mem_filterMap.mpr ⟨o, List.mem_cons_self, hm⟩)
    obtain ⟨l, hl, hheard⟩ := ih (h.apply o) fun m hm =>
      hvalid m (List.mem_filterMap.mpr (by
        obtain ⟨o', ho', hm⟩ := List.mem_filterMap.mp hm
        exact ⟨o', List.mem_cons_of_mem _ ho', hm⟩))
    refine ⟨p.usbBytes o ++ l, ?_, ?_⟩
    · rw [applyAll, List.foldl_cons, ← applyAll, hl, sent_apply h, List.append_assoc]
    · rw [decodeEvents_usbBytes p o hfirst, hheard, heard]

/-- No message is heard twice or before an earlier one. -/
theorem heard_sublist (p : Desk) (orders : List Order) :
    (p.heard orders).Sublist (orders.filterMap Order.message) := by
  induction orders generalizing p with
  | nil => exact List.Sublist.slnil
  | cons o orders ih =>
    have hsplit : (o :: orders).filterMap Order.message
        = o.message.toList ++ orders.filterMap Order.message := by
      cases h : o.message <;> simp [h]
    rw [hsplit, heard]
    refine List.Sublist.append ?_ (ih _)
    split
    · exact List.Sublist.refl _
    · exact List.nil_sublist _

/-- A host that fetches every packet hears every message. -/
theorem heard_of_fetched (p : Desk) {orders : List Order}
    (h : ∀ o ∈ orders, ∀ b1 b2 b3 fetched, o = .midi b1 b2 b3 fetched → ∀ n, fetched n = true) :
    p.heard orders = orders.filterMap Order.message := by
  induction orders generalizing p with
  | nil => rfl
  | cons o orders ih =>
    have hrest := ih (p.apply o) fun o' ho' => h o' (List.mem_cons_of_mem _ ho')
    rw [heard, hrest]
    cases o with
    | midi b1 b2 b3 fetched =>
      have hfetched := h _ List.mem_cons_self b1 b2 b3 fetched rfl p.outlet.releases
      show (if fetched p.outlet.releases = true then _ else _) ++ _ = _
      rw [if_pos hfetched]
      rfl
    | _ => rfl

end Desk

/-! ## Reports -/

namespace RxBuffer

/-- The order in a message with a general setting, if it is one of the four there are. -/
def setting (d : RxBuffer) (index : Nat) : Option Order :=
  let b1 := d.get (index + 1)
  let b2 := d.get (index + 2)
  if b1 = 1 then some (.status b2)
  else if b1 = 2 then some (.pressureStatus b2)
  else if b1 = 3 then some (.clockStatus b2)
  else if b1 = 4 then some (.mode b2)
  else none

/-- The order in message `m` of a report. Some messages have none. -/
def order (d : RxBuffer) (fetched : Nat → Bool) (m : Nat) : Option Order :=
  let index := m * 4 + 2
  let kind := d.get index
  let b1 := d.get (index + 1)
  let b2 := d.get (index + 2)
  let b3 := d.get (index + 3)
  if kind = 0 then some (.midi b1 b2 b3 fetched)
  else if kind = 1 then d.setting index
  else if 2 ≤ kind ∧ kind ≤ 4 then some (.colour (kind - 2).toNat b1 b2 b3)
  else if kind = 5 then some (.clock b1 b2 b3)
  else none

/-- The orders in a report. -/
def orders (d : RxBuffer) (fetched : Nat → Bool) : List Order :=
  if d.get 0 = 1 then (List.range (d.get 1).toNat).flatMap fun m => (d.order fetched m).toList
  else []

/-- For all messages of a report the host fetches as it does in the tick. -/
theorem fetched_of_mem_orders {d : RxBuffer} {fetched f : Nat → Bool} {b1 b2 b3 : UInt8}
    (h : .midi b1 b2 b3 f ∈ d.orders fetched) : f = fetched := by
  rw [orders] at h
  split at h
  · obtain ⟨m, -, h⟩ := List.mem_flatMap.mp h
    have h : d.order fetched m = some (.midi b1 b2 b3 f) := Option.mem_toList.mp h
    rw [order] at h
    split at h
    · cases h
      rfl
    · split at h
      · rw [setting] at h
        split_ifs at h <;> cases h
      · split_ifs at h <;> cases h
  · cases h

end RxBuffer

/-- The desk, and what sending on USB depends on. -/
def deskView (s : Firmware) : Desk × DeviceState × Endpoint :=
  (s.desk, s.usb.deviceState, s.usb.selected)

/-- The processor, where the host fetches the packets of the MIDI IN endpoint as `fetched` says. -/
def avrFetching (fetched : Nat → Bool) : Machine Firmware Input :=
  { avr with admits := fun s i =>
      i.tick.midiFetched s.usb.midiReleases == fetched s.usb.midiReleases }

theorem deskView_of_colourView {s t : Firmware} (h : SameOn colourView s t) :
    SameOn deskView s t := by
  simp only [SameOn, colourView, ledView, Led.settings, Prod.mk.injEq] at h
  obtain ⟨⟨-, -, -, hmidi, husb, -⟩, h₁, h₂, h₃, h₄, h₅, h₆, -, h₈, h₉⟩ := h
  simp only [SameOn, deskView, Firmware.desk, hmidi, husb, h₁, h₂, h₃, h₄, h₅, h₆, h₈, h₉]

/-! ### Single messages -/

section Messages

variable {p : Desk} {ep : Endpoint} {fetched : Nat → Bool}

theorem desk_readData {β : Type} {w : Desk × DeviceState × Endpoint} {d : RxBuffer} {n : Nat}
    {q : UInt8 → Code β} {Q : β → Desk × DeviceState × Endpoint → Prop}
    (hq : Spec (avrFetching fetched) deskView w (q (d.get n)) Q) :
    Spec (avrFetching fetched) deskView w ((readData d n).bind q) Q :=
  spec_readData_bind w (fun _ ht => ht) hq

/-- What is in the bank is handed over. -/
theorem endpointClearIN_desk :
    Spec (avrFetching fetched) deskView (p, .configured, .midiIn) endpointClearIN fun _ w =>
      w = ({ p with outlet := p.outlet.apply (.clearIN .midiIn) }, .configured, .midiIn) := by
  refine Spec.act _ (fun t ht => ?_) rfl
  simp only [deskView, Prod.mk.injEq] at ht
  obtain ⟨rfl, hstate, hselected⟩ := ht
  show ({ t.desk with outlet := t.usb.clearIN.outlet }, t.usb.deviceState, t.usb.selected) = _
  rw [Usb.outlet_clearIN, hstate, hselected]
  rfl

theorem endpointWriteStream_desk (data : List UInt8) :
    Spec (avrFetching fetched) deskView (p, .configured, .midiIn) (endpointWriteStream data)
      fun _ w =>
        w = ({ p with outlet := p.outlet.apply (.write .midiIn data) }, .configured, .midiIn) := by
  refine Spec.act _ (fun t ht => ?_) rfl
  simp only [deskView, Prod.mk.injEq] at ht
  obtain ⟨rfl, hstate, hselected⟩ := ht
  show ({ t.desk with outlet := (t.usb.write data).outlet }, t.usb.deviceState, t.usb.selected) = _
  rw [Usb.outlet_write, hstate, hselected]
  rfl

/-- A message is written into the bank, if that is free, and handed over. -/
theorem midiSendUsbMidi_desk (b1 b2 b3 : UInt8) :
    Spec (avrFetching fetched) deskView (p, .configured, ep) (midiSendUsbMidi b1 b2 b3) fun _ w =>
      w = (p.sendUsb b1 b2 b3 fetched, .configured, .midiIn) := by
  refine Spec.read_bind .configured (fun t ht => congrArg (fun w => w.2.1) ht) ?_
  rw [Prog.when, if_pos rfl]
  refine Spec.map_bind (fun w => (w.1, w.2.1, .midiIn)) (fun _ => rfl) ?_
  rw [Desk.sendUsb]
  refine Spec.when (fun hb => ?_) fun hb => by rw [if_pos (not_not.mp hb)]
  rw [if_neg hb]
  refine Spec.atomic_bind_of_admits fun i t ht hadm => ?_
  simp only [deskView, Prod.mk.injEq] at ht
  obtain ⟨rfl, hstate, hselected⟩ := ht
  have hfetched : i.tick.midiFetched t.usb.midiReleases = fetched t.desk.outlet.releases := by
    rw [show t.desk.outlet.releases = _ from t.usb.releases_outlet]
    exact beq_iff_eq.mp hadm
  have hview : deskView t = (t.desk, .configured, .midiIn) := by
    rw [deskView, hstate, hselected]
  show Spec _ _ (deskView t) ((when (i.tick.midiFetched t.usb.midiReleases = true)
    (endpointWriteStream (MidiWire.event b1 b2 b3))).bind fun _ => endpointClearIN) _
  rw [hview, hfetched, Outlet.send]
  cases fetched t.desk.outlet.releases with
  | true =>
    refine Spec.bind (endpointWriteStream_desk (MidiWire.event b1 b2 b3)) ?_
    rintro _ w rfl
    exact endpointClearIN_desk
  | false => exact endpointClearIN_desk

theorem midiSendUartMidi_desk (b1 b2 b3 : UInt8) :
    Spec (avrFetching fetched) deskView (p, .configured, ep) (midiSendUartMidi b1 b2 b3) fun _ w =>
      w = (p.sendSerial b1 b2 b3, .configured, ep) :=
  Spec.map (fun w => (w.1.sendSerial b1 b2 b3, w.2)) (fun _ => rfl) rfl

/-- A setting that no colour depends on is written, and the LED may be given a colour. -/
theorem desk_setting (f : Led → Led) {q : Code Unit} (F : Desk → Desk)
    (hf : ∀ s : Firmware, ({ s with led := f s.led } : Firmware).desk = F s.desk)
    (hq : q.Keeps (SameOn colourView)) :
    Spec (avrFetching fetched) deskView (p, .configured, ep) ((ledAct f).bind fun _ => q) fun _ w =>
      w = (F p, .configured, ep) := by
  refine Spec.map_bind (fun w => (F w.1, w.2)) (fun t => ?_) ?_
  · exact congrArg (fun x => (x, t.usb.deviceState, t.usb.selected)) (hf t)
  · exact Spec.keeps (Keeps.mono (fun _ _ => deskView_of_colourView) hq) fun _ => rfl

theorem ledSetStatus_desk (v : UInt8) :
    Spec (avrFetching fetched) deskView (p, .configured, ep) (ledSetStatus v) fun _ w =>
      w = ({ p with status := v }, .configured, ep) := by
  refine desk_setting (fun l => { l with status := v }) (fun p => { p with status := v })
    (fun _ => rfl) ?_
  refine Keeps.bind (Keeps.atomic fun _ _ => rfl) fun mode => ?_
  refine Keeps.when (Keeps.ite (ledSetColour_keeps_settings 0 0 0) ?_)
  exact Keeps.bind (Keeps.atomic fun _ _ => rfl) fun c => ledSetColour_keeps_settings _ _ _

theorem ledSetPressureStatus_desk (v : UInt8) :
    Spec (avrFetching fetched) deskView (p, .configured, ep) (ledSetPressureStatus v) fun _ w =>
      w = ({ p with pressureStatus := v }, .configured, ep) := by
  refine desk_setting (fun l => { l with pressureStatus := v })
    (fun p => { p with pressureStatus := v })
    (fun _ => rfl) ?_
  refine Keeps.bind (Keeps.atomic fun _ _ => rfl) fun mode => ?_
  refine Keeps.when (Keeps.bind (Keeps.atomic fun _ _ => rfl) fun on => Keeps.when ?_)
  exact Keeps.bind (Keeps.atomic fun _ _ => rfl) fun c => ledSetColour_keeps_settings _ _ _

theorem ledAct_desk {f : Led → Led} (F : Desk → Desk)
    (hf : ∀ s : Firmware, ({ s with led := f s.led } : Firmware).desk = F s.desk) :
    Spec (avrFetching fetched) deskView (p, .configured, ep) (ledAct f) fun _ w =>
      w = (F p, .configured, ep) :=
  Spec.map (fun w => (F w.1, w.2))
    (fun t => congrArg (fun x => (x, t.usb.deviceState, t.usb.selected)) (hf t)) rfl

theorem desk_setColourValues (s : Firmware) (row : Nat) (red green blue : UInt8) :
    ({ s with led := s.led.setColourValues row red green blue } : Firmware).desk
      = s.desk.setColour row red green blue := by
  have hpalette : (fun r => ((s.led.setColourValues row red green blue).colourValues r 0,
      (s.led.setColourValues row red green blue).colourValues r 1,
      (s.led.setColourValues row red green blue).colourValues r 2))
        = (s.desk.setColour row red green blue).palette := by
    funext r
    by_cases hr : r = row
    · subst hr
      simp [Led.setColourValues, Desk.setColour, Desk.shown]
    · simp [Led.setColourValues, Desk.setColour, Function.update_of_ne hr, Firmware.desk]
  exact congrArg (fun palette => { s.desk with palette := palette }) hpalette

theorem alphaLiveClock_desk (d : RxBuffer) (index : Nat) :
    Spec (avrFetching fetched) deskView (p, .configured, ep) (alphaLiveClock d index) fun _ w =>
      w = (p.apply (.clock (d.get (index + 1)) (d.get (index + 2)) (d.get (index + 3))),
        .configured, ep) := by
  refine Spec.read_bind p.clockRunning (fun t ht => congrArg (fun w => w.1.clockRunning) ht) ?_
  show Spec (avrFetching fetched) deskView _ _ fun _ w =>
    w = ((if p.clockRunning = 2 then p else _ : Desk), _)
  refine Spec.when (fun hrunning => ?_) fun hrunning => by rw [if_pos (not_not.mp hrunning)]
  rw [if_neg hrunning]
  refine desk_readData ?_
  refine Spec.map_bind (fun w => ({ w.1 with
    clockRunning := if d.get (index + 1) = 0 then 0 else 1 }, w.2)) (fun t => ?_) ?_
  · split <;> rfl
  · refine desk_readData (desk_readData ?_)
    exact ledAct_desk (fun p => { p with tempo := _ }) fun _ => rfl

theorem ledSetting_desk (d : RxBuffer) (index : Nat) :
    Spec (avrFetching fetched) deskView (p, .configured, ep) (ledSetting d index) fun _ w =>
      w = (p.applyAll (d.setting index).toList, .configured, ep) := by
  refine desk_readData (Spec.ite (fun h₁ => desk_readData ?_) fun h₁ =>
    Spec.ite (fun h₂ => desk_readData ?_) fun h₂ => Spec.ite (fun h₃ => desk_readData ?_) fun h₃ =>
    Spec.when (fun h₄ => desk_readData ?_) fun h₄ => ?_)
  · have hset : d.setting index = some (.status (d.get (index + 2))) := if_pos h₁
    rw [hset]
    exact ledSetStatus_desk _
  · have hset : d.setting index = some (.pressureStatus (d.get (index + 2))) := by
      dsimp only [RxBuffer.setting]
      rw [if_neg h₁, if_pos h₂]
    rw [hset]
    exact ledSetPressureStatus_desk _
  · have hset : d.setting index = some (.clockStatus (d.get (index + 2))) := by
      dsimp only [RxBuffer.setting]
      rw [if_neg h₁, if_neg h₂, if_pos h₃]
    rw [hset]
    exact ledAct_desk (fun p => { p with clockStatus := _ }) fun _ => rfl
  · have hset : d.setting index = some (.mode (d.get (index + 2))) := by
      dsimp only [RxBuffer.setting]
      rw [if_neg h₁, if_neg h₂, if_neg h₃, if_pos h₄]
    rw [hset]
    exact ledAct_desk (fun p => { p with mode := _ }) fun _ => rfl
  · have hset : d.setting index = none := by
      dsimp only [RxBuffer.setting]
      rw [if_neg h₁, if_neg h₂, if_neg h₃, if_neg h₄]
    rw [hset]
    rfl

/-- **A message of a report is the order in it.** -/
theorem processMessage_desk (d : RxBuffer) (m : Nat) :
    Spec (avrFetching fetched) deskView (p, .configured, ep) (processMessage d m) fun _ w =>
      w.1 = p.applyAll (d.order fetched m).toList ∧ w.2.1 = .configured := by
  have hdone {q : Code Unit} {e : Endpoint} (o : Option Order) (ho : d.order fetched m = o)
      (h : Spec (avrFetching fetched) deskView (p, .configured, ep) q fun _ w =>
        w = (p.applyAll o.toList, .configured, e)) :
      Spec (avrFetching fetched) deskView (p, .configured, ep) q fun _ w =>
        w.1 = p.applyAll (d.order fetched m).toList ∧ w.2.1 = .configured :=
    h.mono fun _ w hw => by rw [hw, ho]; exact ⟨rfl, rfl⟩
  let index := m * 4 + 2
  refine desk_readData (Spec.ite (fun h₀ => ?_) fun h₀ => Spec.ite (fun h₁ => ?_) fun h₁ =>
    Spec.ite (fun h₂ => ?_) fun h₂ => Spec.when (fun h₅ => ?_) fun h₅ => ?_)
  · refine hdone (e := .midiIn)
      (some (.midi (d.get (index + 1)) (d.get (index + 2)) (d.get (index + 3)) fetched))
      (if_pos h₀) ?_
    iterate 3 refine desk_readData ?_
    refine Spec.bind (midiSendUsbMidi_desk _ _ _) fun _ w hw => ?_
    rw [hw]
    exact midiSendUartMidi_desk _ _ _
  · refine hdone (d.setting index) ?_ (ledSetting_desk d index)
    dsimp only [RxBuffer.order]
    rw [if_neg h₀, if_pos h₁]
  · refine hdone (e := ep) (some (.colour (d.get index - 2).toNat (d.get (index + 1))
      (d.get (index + 2)) (d.get (index + 3)))) ?_ ?_
    · dsimp only [RxBuffer.order]
      rw [if_neg h₀, if_neg h₁, if_pos h₂]
    · iterate 3 refine desk_readData ?_
      exact ledAct_desk (fun p => p.setColour _ _ _ _) fun s => desk_setColourValues s _ _ _ _
  · refine hdone (some (.clock (d.get (index + 1)) (d.get (index + 2)) (d.get (index + 3)))) ?_
      (alphaLiveClock_desk d index)
    dsimp only [RxBuffer.order]
    rw [if_neg h₀, if_neg h₁, if_neg h₂, if_pos h₅]
  · refine ⟨?_, rfl⟩
    dsimp only [RxBuffer.order]
    rw [if_neg h₀, if_neg h₁, if_neg h₂, if_neg h₅]
    rfl

/-- **A report is its orders, one after the other.** -/
theorem genericHIDProcessReport_desk (d : RxBuffer) :
    Spec (avrFetching fetched) deskView (p, .configured, ep) (genericHIDProcessReport d) fun _ w =>
      w.1 = p.applyAll (d.orders fetched) ∧ w.2.1 = .configured := by
  refine desk_readData (Spec.when (fun hid => desk_readData ?_) fun hid => ?_)
  · rw [List.range_eq_range']
    have hloop := Spec.forEach_range' (M := avrFetching fetched) (g := deskView) (m := 0)
      (n := (d.get 1).toNat) (v := (p, .configured, ep)) (p := processMessage d) (I := fun k w =>
        w.1 = p.applyAll ((List.range k).flatMap fun m => (d.order fetched m).toList) ∧
          w.2.1 = .configured)
      (fun k _ _ w hw => ?_) ⟨rfl, rfl⟩
    · refine hloop.mono fun _ w hw => ?_
      rw [RxBuffer.orders, if_pos hid]
      rwa [Nat.zero_add] at hw
    · obtain ⟨q, state, ep'⟩ := w
      obtain ⟨rfl, rfl⟩ := hw
      refine (processMessage_desk d k).mono fun _ w hw => ⟨?_, hw.2⟩
      rw [hw.1, List.range_succ, List.flatMap_append, List.flatMap_singleton,
        Desk.applyAll_append]
  · rw [RxBuffer.orders, if_neg hid]
    exact ⟨rfl, rfl⟩

end Messages

end SphereWare
