import SphereWare.Firmware.Frame

/-!
# What a call of GenericHID_Task does

Uninterrupted, a call either sends the half `flip` points at and moves on, or leaves the report
alone; which of the two is up to the device state and the host. The OUT half of the task has no
part in it.
-/

namespace SphereWare

open Interrupt Prog

/-! ## Packets -/

/-- The data of a write to the HID IN endpoint. -/
def EndpointOp.hidPacket : EndpointOp → Option (List UInt8)
  | .write .genericIn data => some data
  | _ => none

/-- The packets written to the HID IN endpoint so far. -/
def Usb.packets (u : Usb) : List (List UInt8) := u.ops.filterMap EndpointOp.hidPacket

/-- No packet goes to the HID IN endpoint once another endpoint is selected. -/
def PacketsKept (s t : Firmware) : Prop :=
  s.usb.selected ≠ .genericIn → t.usb.selected ≠ .genericIn ∧ t.usb.packets = s.usb.packets

theorem PacketsKept.refl (s : Firmware) : PacketsKept s s := fun h => ⟨h, rfl⟩

theorem PacketsKept.trans {s t u : Firmware} (h₁ : PacketsKept s t) (h₂ : PacketsKept t u) :
    PacketsKept s u := fun h =>
  ⟨(h₂ (h₁ h).1).1, (h₂ (h₁ h).1).2.trans (h₁ h).2⟩

theorem packetsKept_of_messageView {s t : Firmware} (h : SameOn messageView s t) :
    PacketsKept s t := by
  simp only [SameOn, messageView, Prod.mk.injEq] at h
  obtain ⟨-, -, -, -, -, hselected, -, hops, -⟩ := h
  intro hs
  rw [Usb.packets, Usb.packets, hselected, hops]
  exact ⟨hs, rfl⟩

theorem packetsKept_of_keeps {α : Type} {p : Code α} (h : p.Keeps (SameOn messageView)) :
    p.Keeps PacketsKept := Keeps.mono (fun _ _ => packetsKept_of_messageView) h

theorem Usb.packets_write (u : Usb) (data : List UInt8) (h : u.selected ≠ .genericIn) :
    (u.write data).packets = u.packets := by
  simp only [packets, write, List.filterMap_append, List.filterMap_cons, List.filterMap_nil]
  cases hs : u.selected <;> simp_all [EndpointOp.hidPacket]

theorem Usb.packets_clearOUT (u : Usb) : u.clearOUT.packets = u.packets := by
  simp [packets, clearOUT, EndpointOp.hidPacket]

theorem Usb.packets_clearIN (u : Usb) : u.clearIN.packets = u.packets := by
  simp [packets, clearIN, EndpointOp.hidPacket]

theorem midiSendUsbMidi_packets (b1 b2 b3 : UInt8) :
    (midiSendUsbMidi b1 b2 b3).Keeps PacketsKept := by
  refine Keeps.bind (Keeps.atomic fun _ s => PacketsKept.refl s) fun _ => Keeps.when ?_
  refine Keeps.bind (Keeps.act fun s _ => ⟨by simp [Usb.select], rfl⟩) fun _ => Keeps.when ?_
  refine Keeps.bind (Keeps.atomic fun _ s => PacketsKept.refl s) fun _ => Keeps.bind (Keeps.when ?_)
    fun _ => Keeps.act fun s hs => ⟨hs, s.usb.packets_clearIN⟩
  exact Keeps.act fun s hs => ⟨hs, s.usb.packets_write _ hs⟩

theorem processMessage_packets (d : RxBuffer) (i : Nat) :
    (processMessage d i).Keeps PacketsKept := by
  have hread (j : Nat) : (readData d j).Keeps PacketsKept :=
    packetsKept_of_keeps (readData_keeps d j)
  refine Keeps.bind (hread _) fun kind => ?_
  refine Keeps.ite ?_ (packetsKept_of_keeps (otherMessage_keeps _ _ _))
  iterate 3 refine Keeps.bind (hread _) fun _ => ?_
  exact Keeps.bind (midiSendUsbMidi_packets _ _ _) fun _ => Keeps.act fun s hs => ⟨hs, rfl⟩

theorem genericHIDProcessReport_packets (d : RxBuffer) :
    (genericHIDProcessReport d).Keeps PacketsKept := by
  have hread (j : Nat) : (readData d j).Keeps PacketsKept :=
    packetsKept_of_keeps (readData_keeps d j)
  refine Keeps.bind (hread _) fun _ => Keeps.when (Keeps.bind (hread _) fun _ => ?_)
  exact Keeps.forEach fun i _ => processMessage_packets d i

theorem Usb.packets_receive (u : Usb) (arrival : Option (List UInt8)) :
    (u.receive arrival).packets = u.packets ∧ (u.receive arrival).selected = u.selected := by
  unfold receive
  split <;> exact ⟨rfl, rfl⟩

theorem Usb.packets_append_clearOUT (u : Usb) (n : Nat) (ep : Endpoint) :
    (u.ops ++ List.replicate n (EndpointOp.clearOUT ep)).filterMap EndpointOp.hidPacket
      = u.packets := by
  have hnone : (List.replicate n (EndpointOp.clearOUT ep)).filterMap EndpointOp.hidPacket = [] :=
    List.filterMap_eq_nil_iff.mpr fun op hop => by
      rw [List.eq_of_mem_replicate hop]
      rfl
  rw [List.filterMap_append, hnone, List.append_nil, packets]

theorem endpointReadStream_packets (n : Nat) (later : TickInput → List (List UInt8))
    (stack : TickInput → Nat → UInt8) : (endpointReadStream n later stack).Keeps PacketsKept :=
  Keeps.atomic fun _ s hs => ⟨hs, s.usb.packets_append_clearOUT _ _⟩

theorem genericHIDReceive_packets : genericHIDReceive.Keeps PacketsKept := by
  refine Keeps.bind (Keeps.atomic fun i s hs => ?_) fun received => Keeps.when ?_
  · obtain ⟨hpackets, hselected⟩ := s.usb.packets_receive (i.tick.hidOut)
    exact ⟨hselected ▸ hs, hpackets⟩
  · refine Keeps.bind (Keeps.atomic fun _ s => PacketsKept.refl s) fun allowed => ?_
    refine Keeps.bind (Keeps.when ?_) fun _ => Keeps.act fun s hs => ⟨hs, s.usb.packets_clearOUT⟩
    exact Keeps.bind (endpointReadStream_packets _ _ _) fun d => genericHIDProcessReport_packets d

/-- The OUT half sends no report. -/
theorem genericHIDTaskOut_packets (env : Firmware → Input) (s : Firmware) :
    (genericHIDTaskOut.exec env s).2.usb.packets = s.usb.packets := by
  have hkept := genericHIDReceive_packets.exec PacketsKept.refl
    (fun _ _ _ => PacketsKept.trans) env { s with usb := s.usb.select .genericOut }
  exact (hkept (by simp [Usb.select])).2

/-! ## The whole task -/

/-- In this state and with this host a call sends a packet. -/
def Sends (tick : TickInput) (s : Firmware) : Prop :=
  s.usb.deviceState = .configured ∧ tick.inReady = true

instance (tick : TickInput) (s : Firmware) : Decidable (Sends tick s) :=
  inferInstanceAs (Decidable (_ ∧ _))

/-- A call of `GenericHID_Task` in which every step sees the input `i`. -/
def taskCall (i : Input) (s : Firmware) : Firmware := (genericHIDTask.exec (fun _ => i) s).2

theorem genericHIDTaskIn_exec (i : Input) (s : Firmware) :
    (genericHIDTaskIn.exec (fun _ => i) s).2 =
      if i.tick.inReady then
        { s with
          hid := s.hid.afterHalf
          usb := (((s.usb.select .genericIn).write s.hid.half).clearIN) }
      else { s with usb := s.usb.select .genericIn } := by
  have hready : (genericHIDTaskIn.exec (fun _ => i) s).2
      = ((when i.tick.inReady do
          let data ← atomic fun _ s => (s.hid.half, { s with hid := s.hid.afterHalf })
          endpointWriteStream data
          endpointClearIN : Code Unit).exec (fun _ => i)
            { s with usb := s.usb.select .genericIn }).2 := rfl
  rw [hready, exec_when]
  split <;> rfl

theorem taskCall_eq (i : Input) (s : Firmware) :
    taskCall i s =
      if s.usb.deviceState = .configured then
        (genericHIDTaskOut.exec (fun _ => i) (genericHIDTaskIn.exec (fun _ => i) s).2).2
      else s := by
  have hstate : taskCall i s
      = ((when (s.usb.deviceState = .configured) do
          genericHIDTaskIn
          genericHIDTaskOut : Code Unit).exec (fun _ => i) s).2 := rfl
  rw [hstate, exec_when]
  split
  · rw [bind_eq, exec_bind]
  · rfl

theorem genericHIDTaskOut_reportView (env : Firmware → Input) (s : Firmware) :
    SameOn reportView s (genericHIDTaskOut.exec env s).2 :=
  genericHIDTaskOut_keeps.exec (SameOn.refl _) (fun _ _ _ => SameOn.trans) env s

/-- **A call sends the current half and moves on to the other, or does nothing to the report.** -/
theorem taskCall_hid (i : Input) (s : Firmware) :
    (taskCall i s).hid = if Sends i.tick s then s.hid.afterHalf else s.hid := by
  have hout (t : Firmware) : (genericHIDTaskOut.exec (fun _ => i) t).2.hid = t.hid := by
    have h := genericHIDTaskOut_reportView (fun _ => i) t
    simp only [SameOn, reportView, Prod.mk.injEq] at h
    exact h.2.2.1
  rw [taskCall_eq]
  by_cases hstate : s.usb.deviceState = .configured
  · rw [if_pos hstate, hout, genericHIDTaskIn_exec]
    by_cases hready : i.tick.inReady = true
    · rw [if_pos hready, if_pos (show Sends i.tick s from ⟨hstate, hready⟩)]
    · rw [if_neg hready, if_neg fun h : Sends i.tick s => hready h.2]
  · rw [if_neg hstate, if_neg fun h : Sends i.tick s => hstate h.1]

/-- **The packet a call sends is the current half.** -/
theorem taskCall_packets (i : Input) (s : Firmware) :
    (taskCall i s).usb.packets
      = s.usb.packets ++ if Sends i.tick s then [s.hid.half] else [] := by
  rw [taskCall_eq]
  by_cases hstate : s.usb.deviceState = .configured
  · rw [if_pos hstate, genericHIDTaskOut_packets, genericHIDTaskIn_exec]
    by_cases hready : i.tick.inReady = true
    · rw [if_pos hready, if_pos (show Sends i.tick s from ⟨hstate, hready⟩), Usb.packets_clearIN]
      simp [Usb.packets, Usb.write, Usb.select, EndpointOp.hidPacket]
    · rw [if_neg hready, if_neg fun h : Sends i.tick s => hready h.2, List.append_nil]
      rfl
  · rw [if_neg hstate, if_neg fun h : Sends i.tick s => hstate h.1, List.append_nil]

end SphereWare
