import SphereWare.Interrupt.View
import SphereWare.Spec.HidTask

/-!
# Reports from the host

What a call of `GenericHID_Task` takes for a report, and how the call goes around the handling of
it: up to the report the HID OUT endpoint is selected and its banks are read, after it the endpoint
that is selected by then is acknowledged.
-/

namespace SphereWare

open Interrupt Prog

/-! ## The report -/

/-- The packet in the bank of the HID OUT endpoint when the call looks at it. -/
def outPacket (tick : TickInput) (s : Firmware) : Option (List UInt8) :=
  if (s.usb.bank .genericOut).isSome then s.usb.bank .genericOut else tick.hidOut

/-- The receive buffer the call hands to `GenericHID_ProcessReport`. -/
def reportAt (tick : TickInput) (s : Firmware) : Option RxBuffer :=
  if s.usb.deviceState = .configured then
    match outPacket tick s with
    | some (b :: bs) =>
      some ⟨(readBytes genericReportSize (b :: bs) tick.hidLater).data, tick.hidStack⟩
    | _ => none
  else none

/-! ## The call around the report -/

/-- The state when the call looks for a report. -/
def beforeReceive (i : Input) (s : Firmware) : Firmware :=
  let t := (genericHIDTaskIn.exec (fun _ => i) s).2
  { t with usb := t.usb.select .genericOut }

/-- The state when the call hands over the report. -/
def beforeReport (i : Input) (s : Firmware) : Firmware :=
  let t := beforeReceive i s
  let u := t.usb.receive i.tick.hidOut
  let r := readBytes genericReportSize ((u.bank u.selected).getD []) i.tick.hidLater
  { t with usb := { u with
      bank := Function.update u.bank u.selected r.bank
      ops := u.ops ++ List.replicate r.cleared (.clearOUT u.selected) } }

/-- The OUT endpoint whose bank the operation frees. -/
def EndpointOp.cleared : EndpointOp → Option Endpoint
  | .clearOUT ep => some ep
  | _ => none

/-- The OUT endpoints whose banks were freed so far, in order. -/
def Usb.released (u : Usb) : List Endpoint := u.ops.filterMap EndpointOp.cleared

theorem Usb.released_clearOUT (u : Usb) : u.clearOUT.released = u.released ++ [u.selected] := by
  simp [released, clearOUT, EndpointOp.cleared]

theorem Usb.released_write_clearIN (u : Usb) (data : List UInt8) :
    (u.write data).clearIN.released = u.released := by
  simp [released, write, clearIN, EndpointOp.cleared]

theorem Usb.released_append_clearOUT (u : Usb) (n : Nat) (ep : Endpoint) :
    (u.ops ++ List.replicate n (EndpointOp.clearOUT ep)).filterMap EndpointOp.cleared
      = u.released ++ List.replicate n ep := by
  have hcleared : (List.replicate n (EndpointOp.clearOUT ep)).filterMap EndpointOp.cleared
      = List.replicate n ep := by
    induction n with
    | zero => rfl
    | succ n ih => rw [List.replicate_succ, List.filterMap_cons, ih]; rfl
  rw [List.filterMap_append, hcleared, released]

theorem Usb.receive_same (u : Usb) (arrival : Option (List UInt8)) :
    (u.receive arrival).selected = u.selected ∧ (u.receive arrival).deviceState = u.deviceState ∧
      (u.receive arrival).reads = u.reads ∧ (u.receive arrival).released = u.released := by
  unfold receive
  split <;> exact ⟨rfl, rfl, rfl, rfl⟩

/-- A bank that was free may have been filled. -/
theorem Usb.bank_receive (u : Usb) (arrival : Option (List UInt8)) :
    (u.receive arrival).bank u.selected =
      if (u.bank u.selected).isSome then u.bank u.selected else arrival := by
  unfold receive
  split
  · rfl
  · exact Function.update_self _ _ _

theorem beforeReceive_usb (i : Input) (s : Firmware) :
    (beforeReceive i s).usb.bank = s.usb.bank ∧
      (beforeReceive i s).usb.selected = .genericOut ∧
      (beforeReceive i s).usb.deviceState = s.usb.deviceState ∧
      (beforeReceive i s).usb.reads = s.usb.reads ∧
      (beforeReceive i s).usb.released = s.usb.released ∧ (beforeReceive i s).led = s.led := by
  rw [beforeReceive, genericHIDTaskIn_exec]
  split
  · exact ⟨rfl, rfl, rfl, rfl, (s.usb.select .genericIn).released_write_clearIN s.hid.half, rfl⟩
  · exact ⟨rfl, rfl, rfl, rfl, rfl, rfl⟩

/-- Up to the report only banks of the HID OUT endpoint are freed, and nothing of it is read. -/
theorem beforeReport_usb (i : Input) (s : Firmware) :
    (beforeReport i s).usb.selected = .genericOut ∧
      (beforeReport i s).usb.deviceState = s.usb.deviceState ∧
      (beforeReport i s).usb.reads = s.usb.reads ∧ (beforeReport i s).led = s.led ∧
      ∃ n, (beforeReport i s).usb.released = s.usb.released ++ List.replicate n .genericOut := by
  obtain ⟨-, hselected, hstate, hreads, hreleased, hled⟩ := beforeReceive_usb i s
  obtain ⟨hselected', hstate', hreads', hreleased'⟩ :=
    (beforeReceive i s).usb.receive_same i.tick.hidOut
  refine ⟨hselected'.trans hselected, hstate'.trans hstate, hreads'.trans hreads, hled, ?_⟩
  have happend (n : Nat) := Usb.released_append_clearOUT
    ((beforeReceive i s).usb.receive i.tick.hidOut) n .genericOut
  rw [hreleased', hreleased] at happend
  rw [beforeReport, hselected', hselected]
  exact ⟨_, happend _⟩

theorem bank_receive (i : Input) (s : Firmware) :
    ((beforeReceive i s).usb.receive i.tick.hidOut).selected = .genericOut ∧
      ((beforeReceive i s).usb.receive i.tick.hidOut).bank .genericOut = outPacket i.tick s := by
  obtain ⟨hbank, hselected, -⟩ := beforeReceive_usb i s
  have hreceive := (beforeReceive i s).usb.bank_receive i.tick.hidOut
  rw [hselected, hbank] at hreceive
  exact ⟨((beforeReceive i s).usb.receive_same i.tick.hidOut).1.trans hselected, hreceive⟩

theorem taskCall_configured {i : Input} {s : Firmware} (h : s.usb.deviceState = .configured) :
    taskCall i s = (genericHIDReceive.exec (fun _ => i) (beforeReceive i s)).2 := by
  rw [taskCall_eq, if_pos h]
  rfl

theorem genericHIDReceive_received (i : Input) (t : Firmware) :
    (genericHIDReceive.exec (fun _ => i) t).2
      = ((when (((t.usb.receive i.tick.hidOut).bank
            (t.usb.receive i.tick.hidOut).selected).isSome = true) do
          let allowed ← endpointIsReadWriteAllowed
          when allowed do
            let d ← endpointReadStream genericReportSize TickInput.hidLater TickInput.hidStack
            genericHIDProcessReport d
          endpointClearOUT : Code Unit).exec (fun _ => i)
            { t with usb := t.usb.receive i.tick.hidOut }).2 := rfl

/-- What the OUT half does with a packet: handle it if it is not empty, and acknowledge. -/
theorem genericHIDReceive_exec {i : Input} {t : Firmware}
    (h : ((t.usb.receive i.tick.hidOut).bank
      (t.usb.receive i.tick.hidOut).selected).isSome = true) :
    (genericHIDReceive.exec (fun _ => i) t).2 =
      (((when ((t.usb.receive i.tick.hidOut).readWriteAllowed = true) do
        let d ← endpointReadStream genericReportSize TickInput.hidLater TickInput.hidStack
        genericHIDProcessReport d : Code Unit).bind fun _ => endpointClearOUT).exec (fun _ => i)
          { t with usb := t.usb.receive i.tick.hidOut }).2 := by
  rw [genericHIDReceive_received, exec_when, if_pos h]
  rfl

theorem reportAt_eq_some {tick : TickInput} {s : Firmware} {d : RxBuffer} :
    reportAt tick s = some d ↔ s.usb.deviceState = .configured ∧ ∃ b bs,
      outPacket tick s = some (b :: bs) ∧
        d = ⟨(readBytes genericReportSize (b :: bs) tick.hidLater).data, tick.hidStack⟩ := by
  rw [reportAt]
  split
  · next hconfigured =>
    split
    · next b bs hpacket =>
      constructor
      · exact fun h => ⟨hconfigured, b, bs, hpacket, (Option.some.inj h).symm⟩
      · rintro ⟨-, b', bs', hpacket', rfl⟩
        rw [hpacket] at hpacket'
        rw [Option.some.inj hpacket']
    · next hnone =>
      constructor
      · exact fun h => absurd h (by simp)
      · rintro ⟨-, b, bs, hpacket, -⟩
        exact absurd hpacket (hnone b bs)
  · next hconfigured =>
    exact ⟨fun h => absurd h (by simp), fun h => absurd h.1 hconfigured⟩

/-- **A call that finds a report.** -/
theorem taskCall_report {i : Input} {s : Firmware} {d : RxBuffer}
    (h : reportAt i.tick s = some d) (t : Firmware)
    (ht : t = ((genericHIDProcessReport d).exec (fun _ => i) (beforeReport i s)).2) :
    taskCall i s = { t with usb := t.usb.clearOUT } := by
  obtain ⟨hconfigured, b, bs, hpacket, rfl⟩ := reportAt_eq_some.mp h
  obtain ⟨hselected, hbank⟩ := bank_receive i s
  rw [hpacket] at hbank
  have hsome : (((beforeReceive i s).usb.receive i.tick.hidOut).bank
      ((beforeReceive i s).usb.receive i.tick.hidOut).selected).isSome = true := by
    rw [hselected, hbank]
    rfl
  have hallowed : ((beforeReceive i s).usb.receive i.tick.hidOut).readWriteAllowed = true := by
    rw [Usb.readWriteAllowed, hselected, hbank]
  rw [taskCall_configured hconfigured, genericHIDReceive_exec hsome, exec_bind, exec_when,
    if_pos hallowed, ht]
  have hread : ((endpointReadStream genericReportSize TickInput.hidLater TickInput.hidStack).exec
      (fun _ => i) { beforeReceive i s with usb := (beforeReceive i s).usb.receive i.tick.hidOut })
      = (⟨(readBytes genericReportSize (b :: bs) i.tick.hidLater).data, i.tick.hidStack⟩,
        beforeReport i s) := by
    rw [endpointReadStream, exec_atomic, beforeReport]
    dsimp only
    rw [hselected, hbank]
    rfl
  rw [bind_eq, exec_bind, hread]
  rfl

/-- **A call that finds no report.** It reads nothing and frees at most its own empty bank. -/
theorem taskCall_no_report {i : Input} {s : Firmware} (h : reportAt i.tick s = none) :
    (taskCall i s).usb.reads = s.usb.reads ∧
      ((taskCall i s).usb.released = s.usb.released ∨
        (taskCall i s).usb.released = s.usb.released ++ [.genericOut]) := by
  by_cases hconfigured : s.usb.deviceState = .configured
  · obtain ⟨-, hselected, -, hreads, hreleased, -⟩ := beforeReceive_usb i s
    obtain ⟨hselected', -, hreads', hreleased'⟩ :=
      (beforeReceive i s).usb.receive_same i.tick.hidOut
    have hbank := (bank_receive i s).2
    rw [← hselected, ← hselected'] at hbank
    rw [taskCall_configured hconfigured]
    cases hpacket : outPacket i.tick s with
    | none =>
      have hexec : (genericHIDReceive.exec (fun _ => i) (beforeReceive i s)).2
          = { beforeReceive i s with usb := (beforeReceive i s).usb.receive i.tick.hidOut } := by
        have hnone : ¬(((beforeReceive i s).usb.receive i.tick.hidOut).bank
            ((beforeReceive i s).usb.receive i.tick.hidOut).selected).isSome = true := by
          rw [hbank, hpacket]
          simp
        have hreceived := genericHIDReceive_received i (beforeReceive i s)
        rwa [exec_when, if_neg hnone] at hreceived
      rw [hexec]
      exact ⟨hreads'.trans hreads, Or.inl (hreleased'.trans hreleased)⟩
    | some packet =>
      have hempty : packet = [] := by
        cases packet with
        | nil => rfl
        | cons b bs =>
          have hsome := reportAt_eq_some.mpr ⟨hconfigured, b, bs, hpacket, rfl⟩
          rw [h] at hsome
          cases hsome
      have hnot : ¬((beforeReceive i s).usb.receive i.tick.hidOut).readWriteAllowed = true := by
        rw [Usb.readWriteAllowed, hbank, hpacket, hempty]
        simp
      rw [genericHIDReceive_exec (by rw [hbank, hpacket]; rfl), exec_bind, exec_when, if_neg hnot]
      refine ⟨hreads'.trans hreads, Or.inr ?_⟩
      refine (Usb.released_clearOUT _).trans ?_
      rw [hreleased', hreleased, hselected', hselected]
  · rw [taskCall_eq, if_neg hconfigured]
    exact ⟨rfl, Or.inl rfl⟩

/-! ## Reading a report -/

/-- The read is on record. -/
def Firmware.noteRead (s : Firmware) (r : RxRead) : Firmware :=
  { s with usb := { s.usb with reads := s.usb.reads ++ [r] } }

/-- Whether the host sent the byte with index `i`. -/
def RxBuffer.read (d : RxBuffer) (i : Nat) : RxRead := ⟨i, decide (i < d.received.length)⟩

theorem spec_readData_bind {M : Machine Firmware Input} {τ β : Type} {g : Firmware → τ} {v : τ}
    (w : τ) {d : RxBuffer} {n : Nat} {q : UInt8 → Code β} {Q : β → τ → Prop}
    (hw : ∀ t, g t = v → g (t.noteRead (d.read n)) = w)
    (hq : Spec M g w (q (d.get n)) Q) : Spec M g v ((readData d n).bind q) Q :=
  Spec.atomic_bind fun _ t ht => by
    show Spec M g (g (t.noteRead (d.read n))) (q (d.get n)) Q
    rw [hw t ht]
    exact hq

end SphereWare
