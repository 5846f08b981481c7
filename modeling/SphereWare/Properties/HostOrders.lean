import SphereWare.Interrupt.Timing
import SphereWare.Spec.HidRun
import SphereWare.Spec.Desk
import SphereWare.Spec.MainProgram

/-!
# The host's orders

Each tick carries out at most one MIDI event and the orders of at most one report, in this order.
Main leaves the desk alone, so the desk is what the ticks of a run have made of it
(`desk_of_run`). What the host sends to the MIDI lines arrives whole on USB as far as the host
fetches what is there (`messages_of_run`).

This is about runs in which no tick is interrupted. Sending a colour to the LED enables interrupts,
and a tick that strikes then carries out its orders between those of the report with the LED
message, and leaves another endpoint selected.
-/

namespace SphereWare

open Interrupt Prog

/-! ## A tick -/

/-- A call of `MIDI_Recieve_Usb_Midi` in which every step sees the input `i`. -/
def midiCall (i : Input) (s : Firmware) : Firmware :=
  (midiRecieveUsbMidi.exec (fun _ => i) s).2

/-- A tick of the timer in which every step sees the input `i`, and which is not interrupted. -/
def tickCall (i : Input) (s : Firmware) : Firmware := (timerHandler.exec (fun _ => i) s).2

/-- The state in which the tick comes to the HID task. -/
def afterMidi (i : Input) (s : Firmware) : Firmware := midiCall i (standbyTick s)

/-- The buffer of the event the call handles. -/
def eventAt (tick : TickInput) (s : Firmware) : Option RxBuffer :=
  (if (s.usb.bank .midiOut).isSome then s.usb.bank .midiOut else tick.midiOut).map fun packet =>
    ⟨(readBytes 4 packet tick.midiLater).data, tick.midiStack⟩

/-- What the MIDI event asks for. The first byte names the cable and is not looked at. -/
def RxBuffer.midiEvent (event : RxBuffer) : Order :=
  .event ((event.drop 1).get 0) ((event.drop 1).get 1) ((event.drop 1).get 2)

/-- The orders a tick that begins in the state `s` carries out. -/
def tickOrders (i : Input) (s : Firmware) : List Order :=
  ((eventAt i.tick (standbyTick s)).map RxBuffer.midiEvent).toList ++
    ((reportAt i.tick (afterMidi i s)).map fun d => d.orders i.tick.midiFetched).getD []

theorem Usb.outlet_receive (u : Usb) (arrival : Option (List UInt8)) :
    (u.receive arrival).outlet = u.outlet := by
  unfold receive
  split <;> rfl

/-- Clearing another endpoint is nothing to the MIDI IN endpoint. -/
theorem Outlet.foldl_clearOUT (o : Outlet) {ep : Endpoint} (h : ep ≠ .midiIn) (n : Nat) :
    (List.replicate n (EndpointOp.clearOUT ep)).foldl Outlet.apply o = o := by
  induction n with
  | zero => rfl
  | succ n ih =>
    rw [List.replicate_succ, List.foldl_cons]
    cases ep with
    | midiIn => exact absurd rfl h
    | _ => exact ih

/-- Of a USB controller a desk shows the MIDI IN endpoint only. -/
theorem desk_usb (s : Firmware) {u : Usb} (h : u.outlet = s.usb.outlet) :
    ({ s with usb := u } : Firmware).desk = s.desk := by
  show { s.desk with outlet := u.outlet } = s.desk
  rw [h]
  rfl

/-! ### The MIDI event -/

theorem desk_midiClock (b : UInt8) (s : Firmware) :
    (midiClock b s).desk = s.desk.midiClock b := by
  unfold midiClock Desk.midiClock
  simp only [show s.desk.clockRunning = s.led.clockRunning from rfl]
  split
  · rfl
  · split
    · rfl
    · split
      · rfl
      · split
        · show (if 24 ≤ (s.midi.clockTimingCount + 1).toNat then _ else _ : Firmware).desk
            = { s.desk with clocks := if 24 ≤ (s.midi.clockTimingCount + 1).toNat then 0
                else s.midi.clockTimingCount + 1 }
          split <;> rfl
        · rfl

theorem desk_midiLedControl (s : Firmware) (b0 b1 b2 : UInt8) :
    ({ s with led := midiLedControl s.led b0 b1 b2 } : Firmware).desk
      = if b0 = 191 then s.desk.control b1 b2 else s.desk := by
  unfold midiLedControl Desk.control
  dsimp only
  repeat' split
  all_goals rfl

theorem midiProcessUsbMidi_desk (env : Firmware → Input) (message : RxBuffer) (s : Firmware) :
    ((midiProcessUsbMidi message).exec env s).2.desk
      = s.desk.apply (.event (message.get 0) (message.get 1) (message.get 2)) := by
  refine (desk_midiLedControl _ _ _ _).trans ?_
  rw [desk_midiClock]
  rfl

theorem midiProcessUsbMidi_selected (env : Firmware → Input) (message : RxBuffer) (s : Firmware) :
    ((midiProcessUsbMidi message).exec env s).2.usb.selected = s.usb.selected :=
  midiClock_same (g := fun s => s.usb.selected) (fun _ _ _ => rfl) (message.get 0) _

/-- The acknowledgement of an OUT endpoint. -/
theorem desk_clearOUT {s : Firmware} (h : s.usb.selected ≠ .midiIn) :
    ({ s with usb := s.usb.clearOUT } : Firmware).desk = s.desk := by
  refine desk_usb s ((Usb.outlet_clearOUT s.usb).trans ?_)
  cases hep : s.usb.selected with
  | midiIn => exact absurd hep h
  | _ => rfl

/-- A stream read may acknowledge the OUT endpoint it reads from. -/
theorem endpointReadStream_desk (n : Nat) (later : TickInput → List (List UInt8))
    (stack : TickInput → Nat → UInt8) (env : Firmware → Input) {s : Firmware}
    (h : s.usb.selected ≠ .midiIn) :
    ((endpointReadStream n later stack).exec env s).2.desk = s.desk :=
  desk_usb s ((Usb.outlet_append _ _).trans (Outlet.foldl_clearOUT _ h _))

/-- The state when the call looks for an event. -/
def beforeEvent (i : Input) (s : Firmware) : Firmware :=
  { s with usb := (s.usb.select .midiOut).receive i.tick.midiOut }

theorem beforeEvent_usb (i : Input) (s : Firmware) :
    (beforeEvent i s).usb.selected = .midiOut ∧ (beforeEvent i s).usb.bank .midiOut =
      if (s.usb.bank .midiOut).isSome then s.usb.bank .midiOut else i.tick.midiOut :=
  ⟨((s.usb.select .midiOut).receive_same i.tick.midiOut).1,
    (s.usb.select .midiOut).bank_receive i.tick.midiOut⟩

/-- The event is read if one has come. -/
theorem midiCall_eq (i : Input) (s : Firmware) : midiCall i s
    = ((when (((beforeEvent i s).usb.bank (beforeEvent i s).usb.selected).isSome = true) do
        let event ← endpointReadStream 4 TickInput.midiLater TickInput.midiStack
        midiProcessUsbMidi (event.drop 1)
        let left ← endpointBytesInEndpoint
        when (left = 0) endpointClearOUT : Code Unit).exec (fun _ => i) (beforeEvent i s)).2 := rfl

theorem midiCall_desk (i : Input) (s : Firmware) :
    (midiCall i s).desk
      = s.desk.applyAll ((eventAt i.tick s).map RxBuffer.midiEvent).toList := by
  obtain ⟨hselected, hbank⟩ := beforeEvent_usb i s
  have hbefore : (beforeEvent i s).desk = s.desk :=
    desk_usb s (Usb.outlet_receive (s.usb.select .midiOut) _)
  rw [midiCall_eq, exec_when, hselected, eventAt, ← hbank]
  cases hpacket : (beforeEvent i s).usb.bank .midiOut with
  | none =>
    rw [if_neg (by simp)]
    exact hbefore
  | some packet =>
    have hlast (t : Firmware) (ht : t.usb.selected = .midiOut) : ((do
        let left ← endpointBytesInEndpoint
        when (left = 0) endpointClearOUT : Code Unit).exec (fun _ => i) t).2.desk = t.desk := by
      have hwhen : ((do
          let left ← endpointBytesInEndpoint
          when (left = 0) endpointClearOUT : Code Unit).exec (fun _ => i) t).2
            = ((when (t.usb.bytesInEndpoint = 0) endpointClearOUT).exec (fun _ => i) t).2 := rfl
      rw [hwhen, exec_when]
      split
      · exact desk_clearOUT (by rw [ht]; decide)
      · rfl
    have hread := endpointReadStream_desk 4 TickInput.midiLater TickInput.midiStack (fun _ => i)
      (show (beforeEvent i s).usb.selected ≠ .midiIn by rw [hselected]; decide)
    rw [if_pos Option.isSome_some, bind_eq, exec_bind, bind_eq, exec_bind, hlast,
      midiProcessUsbMidi_desk, hread, hbefore, endpointReadStream, exec_atomic]
    · dsimp only
      rw [hselected, hpacket]
      rfl
    · rw [midiProcessUsbMidi_selected]
      exact hselected

/-! ### The report -/

theorem beforeReceive_desk (i : Input) (s : Firmware) : (beforeReceive i s).desk = s.desk := by
  have hhalf : (((s.usb.select .genericIn).write s.hid.half).clearIN).outlet = s.usb.outlet := by
    rw [Usb.outlet_clearIN, Usb.outlet_write]
    rfl
  rw [beforeReceive, genericHIDTaskIn_exec]
  split
  · exact desk_usb s hhalf
  · rfl

theorem beforeReport_desk (i : Input) (s : Firmware) : (beforeReport i s).desk = s.desk := by
  have hselected := (bank_receive i s).1
  refine (desk_usb (beforeReceive i s) ?_).trans (beforeReceive_desk i s)
  refine (Usb.outlet_append _ _).trans ?_
  rw [hselected]
  exact (Outlet.foldl_clearOUT _ (by decide) _).trans (Usb.outlet_receive _ _)

/-- A call that finds no report leaves the desk alone. -/
theorem taskCall_desk_none {i : Input} {s : Firmware} (h : reportAt i.tick s = none) :
    (taskCall i s).desk = s.desk := by
  by_cases hconfigured : s.usb.deviceState = .configured
  · obtain ⟨hselected, hbank⟩ := bank_receive i s
    have hdesk : ({ beforeReceive i s with
        usb := (beforeReceive i s).usb.receive i.tick.hidOut } : Firmware).desk = s.desk :=
      (desk_usb _ (Usb.outlet_receive _ _)).trans (beforeReceive_desk i s)
    rw [taskCall_configured hconfigured, genericHIDReceive_received, exec_when, hselected, hbank]
    cases hpacket : outPacket i.tick s with
    | none =>
      rw [if_neg (by simp)]
      exact hdesk
    | some packet =>
      have hempty : packet = [] := by
        cases packet with
        | nil => rfl
        | cons b bs =>
          rw [reportAt_eq_some.mpr ⟨hconfigured, b, bs, hpacket, rfl⟩] at h
          cases h
      have hnot : ((beforeReceive i s).usb.receive i.tick.hidOut).readWriteAllowed = false := by
        rw [Usb.readWriteAllowed, hselected, hbank, hpacket, hempty]
      rw [if_pos Option.isSome_some, bind_eq, exec_bind, endpointIsReadWriteAllowed, exec_read,
        bind_eq, exec_bind, exec_when, hnot, if_neg Bool.false_ne_true]
      exact (desk_clearOUT (by rw [hselected]; decide)).trans hdesk
  · rw [taskCall_eq, if_neg hconfigured]

/-- **A call of the HID task carries out the orders in the report it finds.** -/
theorem taskCall_desk {i : Input} {s : Firmware} (h : s.desk.Idle) :
    (taskCall i s).desk
      = s.desk.applyAll
        (((reportAt i.tick s).map fun d => d.orders i.tick.midiFetched).getD []) := by
  cases hreport : reportAt i.tick s with
  | none => exact taskCall_desk_none hreport
  | some d =>
    obtain ⟨hconfigured, -⟩ := reportAt_eq_some.mp hreport
    obtain ⟨hselected, hstate, -⟩ := beforeReport_usb i s
    have hview : deskView (beforeReport i s) = (s.desk, .configured, .genericOut) := by
      rw [deskView, beforeReport_desk, hstate, hconfigured, hselected]
    have hspec : Spec (avrFetching i.tick.midiFetched) deskView (s.desk, .configured, .genericOut)
        (genericHIDProcessReport d) _ := genericHIDProcessReport_desk d
    rw [← hview] at hspec
    obtain ⟨hdesk, -⟩ := hspec.exec (fun _ => i) fun _ => beq_self_eq_true _
    -- the acknowledgement finds nothing in the bank of the MIDI IN endpoint
    have hidle := h.applyAll (d.orders i.tick.midiFetched)
    rw [taskCall_report hreport _ rfl]
    refine (desk_usb _ ((Usb.outlet_clearOUT _).trans ?_)).trans hdesk
    refine Outlet.apply_clearOUT ?_ _
    rw [← show _ = s.desk.applyAll (d.orders _) from hdesk] at hidle
    exact hidle

/-! ### The whole tick -/

theorem tickCall_eq (i : Input) (s : Firmware) :
    tickCall i s = (usbUSBTask.exec (fun _ => i) (taskCall i (afterMidi i s))).2 := by
  rw [tickCall, timerHandler, bind_eq, exec_bind, bind_eq, exec_bind, bind_eq, exec_bind]
  rfl

/-- **A tick is its orders, one after the other.** -/
theorem tickCall_desk {i : Input} {s : Firmware} (h : s.desk.Idle) :
    (tickCall i s).desk = s.desk.applyAll (tickOrders i s) := by
  have hmidi : (afterMidi i s).desk = s.desk.applyAll _ := midiCall_desk i (standbyTick s)
  have hidle : (afterMidi i s).desk.Idle := by
    rw [hmidi]
    exact h.applyAll _
  have hbus (t : Firmware) : (usbUSBTask.exec (fun _ => i) t).2.desk = t.desk := by
    rw [usbUSBTask, exec_atomic]
    dsimp only
    split
    · rfl
    · next event _ => cases event <;> rfl
  rw [tickCall_eq, hbus, taskCall_desk hidle, hmidi, tickOrders, Desk.applyAll_append]

/-! ## Main -/

/-- **Main leaves the desk alone.** -/
theorem mainProgram_desk (n : Nat) : (mainProgram n).Keeps (SameOn Firmware.desk) := by
  refine Keeps.mono (fun s t hst => ?_) (mainProgram_host n)
  simp only [SameOn, hostView, Prod.mk.injEq] at hst
  obtain ⟨hmidi, husb, h₁, h₂, h₃, h₄, h₅, h₆, h₇, h₈⟩ := hst
  simp only [SameOn, Firmware.desk, hmidi, husb, h₁, h₂, h₃, h₄, h₅, h₆, h₇, h₈]

/-! ## Runs -/

/-- The orders the ticks of a run carry out, in the order of time. -/
def ordersOf {α : Type} (timing : Timing Input) (p : Code α) (s : Firmware) : List Order :=
  (timing.begun avr p s).flatMap fun x => tickOrders x.1 x.2

theorem foldl_applyAll {β : Type} (f : β → List Order) (p : Desk) (l : List β) :
    l.foldl (fun p x => p.applyAll (f x)) p = p.applyAll (l.flatMap f) := by
  induction l generalizing p with
  | nil => rfl
  | cons x l ih => rw [List.foldl_cons, ih, List.flatMap_cons, Desk.applyAll_append]

/-- A program that leaves the desk alone leaves it to the ticks. -/
theorem desk_of_ticks {α : Type} {p : Code α} (hp : p.Keeps (SameOn Firmware.desk))
    (timing : Timing Input) {s t : Firmware} {a : α} (h : s.desk.Idle)
    (hrun : p.run avr (timing.sched avr p s) s = some (a, t)) :
    t.desk = s.desk.applyAll (ordersOf timing p s) := by
  rw [ordersOf, ← foldl_applyAll]
  refine Timing.run_fold (fun s => s.desk.Idle) (fun _ _ => rfl) (fun i s hs => ?_) timing p hp ?_
    h hrun
  · have htick : (tickCall i (avr.enter s)).desk = s.desk.applyAll (tickOrders i (avr.enter s)) :=
      tickCall_desk (s := avr.enter s) hs
    refine ⟨htick, ?_⟩
    show (tickCall i (avr.enter s)).desk.Idle
    rw [htick]
    exact hs.applyAll _
  · refine Keeps.mono (fun s t hst hs => ?_) hp
    rw [show t.desk = s.desk from hst]
    exact hs

/-- The run of main for `n` passes, with ticks where `timing` says. -/
def mainRun (n : Nat) (timing : Timing Input) (s : Firmware) : Option (Unit × Firmware) :=
  (mainProgram n).run avr (timing.sched avr (mainProgram n) s) s

theorem fetched_of_mem_tickOrders {i : Input} {s : Firmware} {b1 b2 b3 : UInt8}
    {fetched : Nat → Bool} (h : Order.midi b1 b2 b3 fetched ∈ tickOrders i s) :
    fetched = i.tick.midiFetched := by
  rw [tickOrders] at h
  rcases List.mem_append.mp h with h | h
  · cases hevent : eventAt i.tick (standbyTick s) <;> simp [hevent, RxBuffer.midiEvent] at h
  · cases hreport : reportAt i.tick (afterMidi i s) with
    | none => simp [hreport] at h
    | some d =>
      rw [hreport] at h
      exact RxBuffer.fetched_of_mem_orders h

/-- The host fetches nothing after the first packet. -/
def fetchesNone (releases : Nat) : Bool := releases == 0

/-- A tick that finds a report with a program change and a note. -/
def twoMessagesTick : Input :=
  { Input.quiet with tick := { TickInput.quiet with
      hidOut := some [1, 2, 0, 0xC0, 5, 0, 0, 0x90, 60, 100]
      midiFetched := fetchesNone } }

/-- The orders in the report. -/
def twoMessages : List Order := [.midi 0xC0 5 0 fetchesNone, .midi 0x90 60 100 fetchesNone]

theorem tickOrders_twoMessages {s : Firmware} (h : s.usb = configured.usb) :
    tickOrders twoMessagesTick s = twoMessages := by
  obtain ⟨pads, standby, hid, led, midi, usb, ports, adc, elite, cpu⟩ := s
  cases h
  rfl

/-- Main starts up, and then the tick strikes. -/
def twoMessagesTiming : Timing Input :=
  .atEnd Input.quiet twoMessagesTick (mainProgram 0) configured

theorem mainRun_atEnd {n : Nat} {i j : Input} {s : Firmware}
    (h : avr.enabled ((mainProgram n).exec (fun _ => i) s).2 = true) :
    ∃ t, mainRun n (.atEnd i j (mainProgram n) s) s = some ((), t) :=
  ⟨_, Timing.run_atEnd (fun _ _ => rfl) h⟩

theorem mainRun_twoMessages : ∃ t, mainRun 0 twoMessagesTiming configured = some ((), t) :=
  mainRun_atEnd (startUp_enabled (fun _ => Input.quiet) configured)

theorem ordersOf_atEnd {p : Code Unit}
    (h : (p.exec (fun _ => Input.quiet) configured).2.usb = configured.usb) :
    ordersOf (.atEnd Input.quiet twoMessagesTick p configured) p configured = twoMessages := by
  have horders := tickOrders_twoMessages (s := avr.enter _) h
  rw [ordersOf, Timing.begun_atEnd, List.flatMap_singleton, horders]

theorem ordersOf_twoMessages :
    ordersOf twoMessagesTiming (mainProgram 0) configured = twoMessages :=
  ordersOf_atEnd (mainProgram_usb 0 _ _)

end SphereWare
