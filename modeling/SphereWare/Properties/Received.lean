import SphereWare.Interrupt.Log
import SphereWare.Interrupt.Timing
import SphereWare.Spec.HidRun
import SphereWare.Spec.MainProgram
import SphereWare.Spec.OutReport

/-!
# Bytes the host did not send

Neither receive path looks at the result of its stream read, and the number of messages in a report
is the host's to choose. What is read is therefore received exactly as long as the host sends
enough: a whole MIDI event, and every message a report announces.

An LED message of a report enables interrupts, so another tick may start or stop the clock before a
clock message of the same report is looked at. Whether its data are read is decided only then.
-/

namespace SphereWare

open Interrupt Prog

/-! ## What a report is read for -/

/--
How many bytes beyond its first a message with its first byte at `index` is read for, if it is not
the clock message of AlphaLive.
-/
def messageExtent (d : RxBuffer) (index : Nat) : Nat :=
  let kind := d.get index
  if kind = 0 then 3
  else if kind = 1 then
    if 1 ≤ d.get (index + 1) ∧ d.get (index + 1) ≤ 4 then 2 else 1
  else if 2 ≤ kind ∧ kind ≤ 4 then 3
  else 0

/-- How many bytes a report must have: all up to the last byte of the last message. -/
def neededBytes (d : RxBuffer) : Nat :=
  if d.get 0 = 1 then
    match (d.get 1).toNat with
    | 0 => 2
    | n + 1 => n * 4 + 2 + messageExtent d (n * 4 + 2) + 1
  else 1

/-- The indices read for message `m`. -/
def messageReads (d : RxBuffer) (m : Nat) : List Nat :=
  (List.range (messageExtent d (m * 4 + 2) + 1)).map (m * 4 + 2 + ·)

/-- The indices read for a report. -/
def reportReads (d : RxBuffer) : List Nat :=
  if d.get 0 = 1 then [0, 1] ++ (List.range (d.get 1).toNat).flatMap (messageReads d) else [0]

theorem messageExtent_le (d : RxBuffer) (index : Nat) : messageExtent d index ≤ 3 := by
  rw [messageExtent]
  split_ifs <;> decide

theorem mem_messageReads {d : RxBuffer} {m j : Nat} :
    j ∈ messageReads d m ↔ ∃ x ≤ messageExtent d (m * 4 + 2), m * 4 + 2 + x = j := by
  simp only [messageReads, List.mem_map, List.mem_range, Nat.lt_succ_iff]

/-- **The last byte a report is read for decides.** -/
theorem reportReads_lt_iff (d : RxBuffer) (n : Nat) :
    (∀ j ∈ reportReads d, j < n) ↔ neededBytes d ≤ n := by
  rw [reportReads, neededBytes]
  split
  · cases hcount : (d.get 1).toNat with
    | zero =>
      simp only [List.range_zero, List.flatMap_nil, List.append_nil, List.mem_cons,
        List.not_mem_nil, or_false, forall_eq_or_imp, forall_eq]
      omega
    | succ k =>
      dsimp only
      constructor
      · intro h
        have hlast := h (k * 4 + 2 + messageExtent d (k * 4 + 2)) (by
          refine List.mem_append_right _ (List.mem_flatMap.mpr ⟨k, ?_, ?_⟩)
          · exact List.mem_range.mpr k.lt_succ_self
          · exact mem_messageReads.mpr ⟨_, Nat.le_refl _, rfl⟩)
        omega
      · intro hn j hj
        rcases List.mem_append.mp hj with hj | hj
        · have hj : j = 0 ∨ j = 1 := by simpa using hj
          omega
        · obtain ⟨m, hm, hj⟩ := List.mem_flatMap.mp hj
          obtain ⟨x, hx, rfl⟩ := mem_messageReads.mp hj
          have hm := List.mem_range.mp hm
          -- an earlier message ends before the next one begins
          have hextent := messageExtent_le d (m * 4 + 2)
          rcases Nat.lt_succ_iff_lt_or_eq.mp hm with hlt | rfl
          · omega
          · omega
  · simp only [List.mem_singleton, forall_eq]
    omega

/-! ## The bytes read so far -/

def readLog (s : Firmware) : List RxRead := s.usb.reads

theorem keeps_grows {α : Type} {p : Code α} (h : p.Keeps (SameOn readLog)) :
    p.Keeps (Appends readLog) := by
  refine Keeps.mono (fun s t hst => ?_) h
  have hlog : readLog t = readLog s := hst
  exact ⟨[], (List.append_nil _).trans hlog.symm⟩

theorem readData_noted (d : RxBuffer) (n : Nat) (s : Firmware) :
    Noted readLog (d.read n) s (s.noteRead (d.read n)) :=
  ⟨[d.read n], rfl, List.mem_singleton_self _⟩

theorem readData_grows (d : RxBuffer) (n : Nat) : (readData d n).Keeps (Appends readLog) :=
  Keeps.atomic fun _ s => (readData_noted d n s).appends

/-! ### What reads nothing -/

theorem midiSend_unread (b1 b2 b3 : UInt8) : (do
    midiSendUsbMidi b1 b2 b3
    midiSendUartMidi b1 b2 b3 : Code Unit).Keeps (SameOn readLog) :=
  Keeps.bind (midiSendUsbMidi_of (fun _ _ _ hreads => hreads) b1 b2 b3) fun _ =>
    Keeps.act fun _ => rfl

theorem keeps_unread {α : Type} {p : Code α} (h : p.Keeps (SameOn statusView)) :
    p.Keeps (SameOn readLog) := by
  refine Keeps.mono (fun s t hst => ?_) h
  simp only [SameOn, statusView, ledView, Prod.mk.injEq] at hst
  obtain ⟨⟨-, -, -, -, husb, -⟩, -⟩ := hst
  rw [SameOn, readLog, readLog, husb]

theorem ledAct_unread (f : Led → Led) : (ledAct f).Keeps (SameOn readLog) := Keeps.act fun _ => rfl

theorem endpointIsOUTReceived_unread (arrival : TickInput → Option (List UInt8)) :
    (endpointIsOUTReceived arrival).Keeps (SameOn readLog) :=
  Keeps.atomic fun i s => (s.usb.receive_same (arrival i.tick)).2.2.1

theorem endpointReadStream_unread (n : Nat) (later : TickInput → List (List UInt8))
    (stack : TickInput → Nat → UInt8) : (endpointReadStream n later stack).Keeps (SameOn readLog) :=
  Keeps.atomic fun _ _ => rfl

theorem genericHIDTaskIn_unread : genericHIDTaskIn.Keeps (SameOn readLog) := by
  refine Keeps.bind (Keeps.act fun _ => rfl) fun _ => ?_
  refine Keeps.bind (Keeps.atomic fun _ _ => rfl) fun _ => Keeps.when ?_
  refine Keeps.bind (Keeps.atomic fun _ _ => rfl) fun _ => ?_
  exact Keeps.bind (Keeps.act fun _ => rfl) fun _ => Keeps.act fun _ => rfl

theorem usbUSBTask_unread : usbUSBTask.Keeps (SameOn readLog) := by
  refine Keeps.atomic fun i s => ?_
  dsimp only
  split
  · rfl
  · next event _ => cases event <;> rfl

/-! ### Three bytes -/

/-- Reads the three bytes from `n` on and goes on with them. -/
def readThree (d : RxBuffer) (n : Nat) (q : UInt8 → UInt8 → UInt8 → Code Unit) : Code Unit := do
  let b1 ← readData d n
  let b2 ← readData d (n + 1)
  let b3 ← readData d (n + 2)
  q b1 b2 b3

/-- What is done with the three bytes of an event. -/
def midiHandle (b0 b1 b2 : UInt8) : Code Unit := do
  act fun s => { s with hid := s.hid.writeMidiData b0 b1 b2 }
  act (midiClock b0)
  ledAct fun l => midiLedControl l b0 b1 b2

/-- `MIDI_Process_Usb_Midi`, in two parts. -/
theorem midiProcessUsbMidi_eq (message : RxBuffer) :
    midiProcessUsbMidi message = readThree message 0 midiHandle := rfl

theorem midiHandle_unread (b0 b1 b2 : UInt8) : (midiHandle b0 b1 b2).Keeps (SameOn readLog) := by
  refine Keeps.bind (Keeps.act fun _ => rfl) fun _ => Keeps.bind (Keeps.act fun s => ?_) fun _ =>
    ledAct_unread _
  exact midiClock_same (g := readLog) (fun _ _ _ => rfl) b0 s

/-- What follows the look at the clock in `alphaLiveClock`. -/
def clockData (d : RxBuffer) (n : Nat) : Code Unit := do
  let start ← readData d (n + 1)
  ledAct fun l =>
    if start = 0x00 then { l with clockRunning := 0 }
    else { l with clockRunning := 1, fadeStep := 100 }
  let low ← readData d (n + 2)
  let high ← readData d (n + 3)
  ledAct fun l => { l with tempo := low.toNat + 256 * high.toNat }

theorem alphaLiveClock_eq (d : RxBuffer) (n : Nat) :
    alphaLiveClock d n = (read fun s => s.led.clockRunning).bind fun running =>
      when (running ≠ 2) (clockData d n) := rfl

section ReadThree

variable {d : RxBuffer} {n : Nat} {q : UInt8 → UInt8 → UInt8 → Code Unit}

theorem readThree_grows (hq : ∀ b1 b2 b3, (q b1 b2 b3).Keeps (SameOn readLog)) :
    (readThree d n q).Keeps (Appends readLog) := by
  iterate 3 refine Keeps.bind (readData_grows _ _) fun _ => ?_
  exact keeps_grows (hq _ _ _)

theorem clockData_grows : (clockData d n).Keeps (Appends readLog) := by
  refine Keeps.bind (readData_grows _ _) fun start => ?_
  refine Keeps.bind (keeps_grows (ledAct_unread _)) fun _ => ?_
  iterate 2 refine Keeps.bind (readData_grows _ _) fun _ => ?_
  exact keeps_grows (ledAct_unread _)

/-! ## The handler adds to the log -/

theorem alphaLiveClock_grows : (alphaLiveClock d n).Keeps (Appends readLog) :=
  Keeps.bind (keeps_grows (Keeps.atomic fun _ _ => rfl)) fun _ => Keeps.when clockData_grows

theorem ledSetting_grows : (ledSetting d n).Keeps (Appends readLog) := by
  have hvalue {f : UInt8 → Code Unit} (hf : ∀ v, (f v).Keeps (SameOn readLog)) :
      ((readData d (n + 2)).bind f).Keeps (Appends readLog) :=
    Keeps.bind (readData_grows _ _) fun v => keeps_grows (hf v)
  refine Keeps.bind (readData_grows _ _) fun setting => ?_
  refine Keeps.ite (hvalue fun v => keeps_unread (ledSetStatus_keeps v)) (Keeps.ite ?_ ?_)
  · exact hvalue fun v => keeps_unread (ledSetPressureStatus_keeps v)
  · exact Keeps.ite (hvalue fun _ => ledAct_unread _) (Keeps.when (hvalue fun _ => ledAct_unread _))

end ReadThree

theorem processMessage_grows (d : RxBuffer) (m : Nat) :
    (processMessage d m).Keeps (Appends readLog) := by
  refine Keeps.bind (readData_grows _ _) fun kind => Keeps.ite ?_ (Keeps.ite ledSetting_grows ?_)
  · exact readThree_grows (n := m * 4 + 2 + 1) midiSend_unread
  · refine Keeps.ite ?_ (Keeps.when alphaLiveClock_grows)
    exact readThree_grows (n := m * 4 + 2 + 1) fun _ _ _ => ledAct_unread _

theorem genericHIDProcessReport_grows (d : RxBuffer) :
    (genericHIDProcessReport d).Keeps (Appends readLog) := by
  refine Keeps.bind (readData_grows _ _) fun id => Keeps.when ?_
  refine Keeps.bind (readData_grows _ _) fun count => Keeps.forEach fun m _ => ?_
  exact processMessage_grows d m

theorem midiRecieveUsbMidi_grows : midiRecieveUsbMidi.Keeps (Appends readLog) := by
  refine Keeps.bind (keeps_grows (Keeps.act fun _ => rfl)) fun _ => ?_
  refine Keeps.bind (keeps_grows (endpointIsOUTReceived_unread _)) fun _ => Keeps.when ?_
  refine Keeps.bind (keeps_grows (endpointReadStream_unread _ _ _)) fun event => ?_
  refine Keeps.bind (readThree_grows midiHandle_unread) fun _ => keeps_grows ?_
  exact Keeps.bind (Keeps.atomic fun _ _ => rfl) fun _ => Keeps.when (Keeps.act fun _ => rfl)

theorem genericHIDTaskOut_grows : genericHIDTaskOut.Keeps (Appends readLog) := by
  refine Keeps.bind (keeps_grows (Keeps.act fun _ => rfl)) fun _ => ?_
  refine Keeps.bind (keeps_grows (endpointIsOUTReceived_unread _)) fun _ => Keeps.when ?_
  refine Keeps.bind (keeps_grows (Keeps.atomic fun _ _ => rfl)) fun allowed => ?_
  refine Keeps.bind (Keeps.when ?_) fun _ => keeps_grows (Keeps.act fun _ => rfl)
  refine Keeps.bind (keeps_grows (endpointReadStream_unread _ _ _)) fun d => ?_
  exact genericHIDProcessReport_grows d

theorem timerHandler_grows : timerHandler.Keeps (Appends readLog) := by
  refine Keeps.bind (keeps_grows (Keeps.act fun _ => rfl)) fun _ => ?_
  refine Keeps.bind midiRecieveUsbMidi_grows fun _ => Keeps.bind ?_ fun _ =>
    keeps_grows usbUSBTask_unread
  refine Keeps.bind (keeps_grows (Keeps.atomic fun _ _ => rfl)) fun state => Keeps.when ?_
  exact Keeps.bind (keeps_grows genericHIDTaskIn_unread) fun _ => genericHIDTaskOut_grows

/-- **No tick takes a read back.** -/
theorem avr_logs : avr.Logs readLog where
  handler := timerHandler_grows
  enter _ := rfl
  leave _ := rfl

/-! ## What is read -/

section Notes

variable {d : RxBuffer} {n : Nat} {e : RxRead}

theorem notes_here {α : Type} {q : UInt8 → Code α}
    (h : ((readData d n).bind q).Keeps (Appends readLog)) :
    ((readData d n).bind q).Notes avr readLog (d.read n) :=
  .atomic_left h fun _ s => readData_noted d n s

theorem notes_later {α : Type} {q : UInt8 → Code α} (hq : (q (d.get n)).Notes avr readLog e) :
    ((readData d n).bind q).Notes avr readLog e :=
  .atomic_bind (fun _ s => (readData_noted d n s).appends) fun _ _ => hq

theorem readThree_notes {q : UInt8 → UInt8 → UInt8 → Code Unit}
    (hq : ∀ b1 b2 b3, (q b1 b2 b3).Keeps (SameOn readLog)) {x : Nat} (hx : x < 3) :
    (readThree d n q).Notes avr readLog (d.read (n + x)) := by
  have hlast (b1 b2 b3 : UInt8) := keeps_grows (hq b1 b2 b3)
  match x, hx with
  | 0, _ => exact notes_here (readThree_grows hq)
  | 1, _ =>
    refine notes_later (notes_here ?_)
    exact Keeps.bind (readData_grows _ _) fun b2 => Keeps.bind (readData_grows _ _) (hlast _ b2)
  | 2, _ =>
    exact notes_later (notes_later (notes_here (Keeps.bind (readData_grows _ _) (hlast _ _))))

theorem clockData_notes : (clockData d n).Notes avr readLog (d.read (n + 3)) := by
  refine notes_later (.bind_right (keeps_grows (ledAct_unread _)) fun _ => notes_later ?_)
  exact notes_here (Keeps.bind (readData_grows _ _) fun _ => keeps_grows (ledAct_unread _))

theorem ledSetting_notes {x : Nat}
    (hx : x < if 1 ≤ d.get (n + 1) ∧ d.get (n + 1) ≤ 4 then 2 else 1) :
    (ledSetting d n).Notes avr readLog (d.read (n + 1 + x)) := by
  have hvalue {f : UInt8 → Code Unit} (hf : ∀ v, (f v).Keeps (SameOn readLog)) :
      ((readData d (n + 2)).bind f).Notes avr readLog (d.read (n + 1 + 1)) :=
    notes_here (Keeps.bind (readData_grows _ _) fun v => keeps_grows (hf v))
  match x, hx with
  | 0, _ => exact notes_here ledSetting_grows
  | 1, hx =>
    have hknown : 1 ≤ d.get (n + 1) ∧ d.get (n + 1) ≤ 4 := by
      by_contra h
      rw [if_neg h] at hx
      exact absurd hx (by decide)
    refine notes_later (.ite (fun _ => ?_) fun h₁ => .ite (fun _ => ?_) fun h₂ =>
      .ite (fun _ => ?_) fun h₃ => .when ?_ ?_)
    · exact hvalue fun v => keeps_unread (ledSetStatus_keeps v)
    · exact hvalue fun v => keeps_unread (ledSetPressureStatus_keeps v)
    · exact hvalue fun _ => ledAct_unread _
    · generalize d.get (n + 1) = setting at hknown h₁ h₂ h₃
      grind
    · exact hvalue fun _ => ledAct_unread _
  | x + 2, hx => exact absurd hx (by split <;> omega)

/-- **A message is read up to its last byte.** -/
theorem processMessage_notes {m x : Nat} (hx : x ≤ messageExtent d (m * 4 + 2)) :
    (processMessage d m).Notes avr readLog (d.read (m * 4 + 2 + x)) := by
  match x with
  | 0 => exact notes_here (processMessage_grows d m)
  | x + 1 =>
    rw [messageExtent] at hx
    rw [show m * 4 + 2 + (x + 1) = m * 4 + 2 + 1 + x by omega]
    refine notes_later (.ite (fun h₀ => ?_) fun h₀ => .ite (fun h₁ => ?_) fun h₁ =>
      .ite (fun h₂ => ?_) fun h₂ => ?_)
    · rw [if_pos h₀] at hx
      exact readThree_notes midiSend_unread hx
    · rw [if_neg h₀, if_pos h₁] at hx
      exact ledSetting_notes hx
    · rw [if_neg h₀, if_neg h₁, if_pos h₂] at hx
      exact readThree_notes (fun _ _ _ => ledAct_unread _) hx
    · rw [if_neg h₀, if_neg h₁, if_neg h₂] at hx
      exact absurd hx (Nat.not_succ_le_zero x)

/-- **A report is read up to its last message.** -/
theorem genericHIDProcessReport_notes {j : Nat} (hj : j ∈ reportReads d) :
    (genericHIDProcessReport d).Notes avr readLog (d.read j) := by
  rw [reportReads] at hj
  split at hj
  · next hid =>
    have hwhen {p : Code Unit} (hp : p.Notes avr readLog (d.read j)) :
        (when (d.get 0 = 1) p).Notes avr readLog (d.read j) := .when hid hp
    rcases List.mem_append.mp hj with hj | hj
    · rcases List.mem_pair.mp hj with rfl | rfl
      · exact notes_here (genericHIDProcessReport_grows d)
      · refine notes_later (hwhen (notes_here ?_))
        exact Keeps.bind (readData_grows _ _) fun count =>
          Keeps.forEach fun m _ => processMessage_grows d m
    · obtain ⟨m, hm, hj⟩ := List.mem_flatMap.mp hj
      obtain ⟨x, hx, rfl⟩ := mem_messageReads.mp hj
      refine notes_later (hwhen (notes_later ?_))
      exact .forEach hm (processMessage_notes hx) (processMessage_grows d)
  · rw [List.mem_singleton.mp hj]
    exact notes_here (genericHIDProcessReport_grows d)

/-- The clock message is read to its end if the clock does not follow MIDI when it is looked at. -/
theorem alphaLiveClock_run {α : Type} {q : Unit → Code α} (hq : ∀ a, (q a).Keeps (Appends readLog))
    {i : Input} {rest : Sched Input} {s t : Firmware} {a : α} (hs : s.led.clockRunning ≠ 2)
    (hrun : ((alphaLiveClock d n).bind q).run avr (.go i rest) s = some (a, t)) :
    Noted readLog (d.read (n + 3)) s t := by
  have hdata : ((when (s.led.clockRunning ≠ 2) (clockData d n)).bind q).run avr rest s
      = some (a, t) := hrun
  exact Notes.run avr_logs (.bind_left (.when hs clockData_notes) hq) hdata

end Notes

/-! ## Only received bytes -/

/-- The host sent the byte, and it lies in the report buffer. -/
def RxRead.FromHost (r : RxRead) : Prop := r.received = true ∧ r.index < genericReportSize

instance (r : RxRead) : Decidable r.FromHost := inferInstanceAs (Decidable (_ ∧ _))

/-- The host sends enough: whole events, and reports with all the messages they announce. -/
structure SendsEnough {α : Type} (P : Code α) (s : Firmware) : Prop where
  /-- Of an event that is handled next. -/
  event : ∀ (event : RxBuffer) (q : Unit → Code α),
    P = (midiProcessUsbMidi (event.drop 1)).bind q → 4 ≤ event.received.length
  /-- Of a report that is handled next. -/
  report : ∀ (d : RxBuffer) (q : Unit → Code α),
    P = (genericHIDProcessReport d).bind q → neededBytes d ≤ d.received.length
  /-- Of a clock message that is looked at next. -/
  clock : ∀ (d : RxBuffer) (n : Nat) (q : Unit → Code α), P = (alphaLiveClock d n).bind q →
    s.led.clockRunning ≠ 2 → n + 3 < d.received.length

theorem SendsEnough.of_bind {α β : Type} {p : Code α} {q : α → Code β} {s : Firmware}
    (h : SendsEnough (p.bind q) s) : SendsEnough p s where
  event event q' hp := h.event event (fun a => (q' a).bind q) (by rw [hp, bind_assoc])
  report d q' hp := h.report d (fun a => (q' a).bind q) (by rw [hp, bind_assoc])
  clock d n q' hp := h.clock d n (fun a => (q' a).bind q) (by rw [hp, bind_assoc])

/-! ### Enough is sent -/

section Carries

/-- All reads but the first `k` are of received bytes. -/
def ReceivedFrom (k : Nat) (s : Firmware) : Prop := GoodFrom readLog RxRead.FromHost k s

/-- Runs in which the host sends enough. -/
def receiving (k : Nat) : Contract Firmware Input :=
  (Contract.logging readLog RxRead.FromHost k fun _ P s _ => SendsEnough P s).own anyStep anyStep

variable {k n : Nat} {d : RxBuffer}

theorem receiving_stable : (receiving k).Stable avr (ReceivedFrom k) := Contract.logging_stable

theorem receiving_mono : (receiving k).Mono := Contract.logging_mono SendsEnough.of_bind

theorem carries_unread {α : Type} {p : Code α} (h : p.Keeps (SameOn readLog)) :
    p.Carries avr (receiving k) (ReceivedFrom k) :=
  .of_keeps receiving_stable (fun _ _ _ hst _ hs => ⟨trivial, hs.of_eq hst⟩) h

theorem readData_fromHost {s : Firmware} (h : ReceivedFrom k s)
    (hlength : d.received.length ≤ genericReportSize) (hn : n < d.received.length) :
    ReceivedFrom k (s.noteRead (d.read n)) :=
  h.snoc rfl ⟨decide_eq_true hn, hn.trans_le hlength⟩

variable (hlength : d.received.length ≤ genericReportSize)

include hlength

theorem carries_read {α : Type} {q : UInt8 → Code α} (hn : n < d.received.length)
    (hq : (q (d.get n)).Carries avr (receiving k) (ReceivedFrom k)) :
    ((readData d n).bind q).Carries avr (receiving k) (ReceivedFrom k) := fun _ hs =>
  pwp_step receiving_stable hs fun _ _ ht _ => ⟨trivial, hq _ (readData_fromHost ht hlength hn)⟩

theorem readThree_carries {q : UInt8 → UInt8 → UInt8 → Code Unit} (hn : n + 2 < d.received.length)
    (hq : ∀ b1 b2 b3, (q b1 b2 b3).Keeps (SameOn readLog)) :
    (readThree d n q).Carries avr (receiving k) (ReceivedFrom k) := by
  refine carries_read hlength (by omega) (carries_read hlength (by omega) ?_)
  exact carries_read hlength hn (carries_unread (hq _ _ _))

theorem clockData_carries (hn : n + 3 < d.received.length) :
    (clockData d n).Carries avr (receiving k) (ReceivedFrom k) := by
  refine carries_read hlength (by omega) (.bind receiving_mono (carries_unread (ledAct_unread _))
    fun _ => carries_read hlength (by omega) ?_)
  exact carries_read hlength hn (carries_unread (ledAct_unread _))

/-- What the look at the clock finds decides whether the data must have come. -/
theorem alphaLiveClock_carries :
    (alphaLiveClock d n).Carries avr (receiving k) (ReceivedFrom k) := by
  rw [alphaLiveClock_eq]
  refine fun s hs => pwp_step receiving_stable hs fun i t ht hsends => ⟨trivial, ?_⟩
  have hclock := hsends.1.clock d n ret (bind_ret _).symm
  have hdata : (when (t.led.clockRunning ≠ 2) (clockData d n)).Carries avr (receiving k)
      (ReceivedFrom k) := by
    rw [when]
    split
    · next hrunning => exact clockData_carries hlength (hclock hrunning)
    · exact .ret receiving_stable ()
  exact hdata t ht

theorem ledSetting_carries
    (hn : ∀ x < if 1 ≤ d.get (n + 1) ∧ d.get (n + 1) ≤ 4 then 2 else 1,
      n + 1 + x < d.received.length) :
    (ledSetting d n).Carries avr (receiving k) (ReceivedFrom k) := by
  have hvalue {f : UInt8 → Code Unit} (hknown : 1 ≤ d.get (n + 1) ∧ d.get (n + 1) ≤ 4)
      (hf : ∀ v, (f v).Keeps (SameOn readLog)) :
      ((readData d (n + 2)).bind f).Carries avr (receiving k) (ReceivedFrom k) :=
    carries_read hlength (hn 1 (by rw [if_pos hknown]; decide)) (carries_unread (hf _))
  refine carries_read hlength (hn 0 (by split <;> decide)) ?_
  split
  · next h => exact hvalue (by rw [h]; decide) fun v => keeps_unread (ledSetStatus_keeps v)
  · split
    · next h =>
      exact hvalue (by rw [h]; decide) fun v => keeps_unread (ledSetPressureStatus_keeps v)
    · split
      · next h => exact hvalue (by rw [h]; decide) fun _ => ledAct_unread _
      · rw [when]
        split
        · next h => exact hvalue (by rw [h]; decide) fun _ => ledAct_unread _
        · exact .ret receiving_stable ()

theorem processMessage_carries {m : Nat} (hm : ∀ j ∈ messageReads d m, j < d.received.length) :
    (processMessage d m).Carries avr (receiving k) (ReceivedFrom k) := by
  have hread {x : Nat} (hx : x ≤ messageExtent d (m * 4 + 2)) :
      m * 4 + 2 + x < d.received.length := hm _ (mem_messageReads.mpr ⟨x, hx, rfl⟩)
  rw [messageExtent] at hread
  refine carries_read hlength (hread (Nat.zero_le _)) ?_
  split
  · next h₀ =>
    rw [if_pos h₀] at hread
    exact readThree_carries hlength (hread (Nat.le_refl 3)) midiSend_unread
  · next h₀ =>
    rw [if_neg h₀] at hread
    split
    · next h₁ =>
      rw [if_pos h₁] at hread
      refine ledSetting_carries hlength fun x hx => ?_
      have := hread (x := x + 1) hx
      omega
    · next h₁ =>
      rw [if_neg h₁] at hread
      split
      · next h₂ =>
        rw [if_pos h₂] at hread
        exact readThree_carries hlength (hread (Nat.le_refl 3)) fun _ _ _ => ledAct_unread _
      · exact .when receiving_stable (alphaLiveClock_carries hlength)

/-- **Of a report the host has sent enough of nothing else is read.** -/
theorem genericHIDProcessReport_carries :
    (genericHIDProcessReport d).Carries avr (receiving k) (ReceivedFrom k) := by
  intro s hs
  refine pwp_step receiving_stable hs fun i t ht hsends => ⟨trivial, ?_⟩
  have hneeded := (reportReads_lt_iff d _).mpr (hsends.1.report d ret (bind_ret _).symm)
  rw [reportReads] at hneeded
  have hrest : (when (d.get 0 = 1) ((readData d 1).bind fun count =>
      forEach (List.range count.toNat) (processMessage d))).Carries avr (receiving k)
        (ReceivedFrom k) := by
    rw [when]
    split
    · next hid =>
      rw [if_pos hid] at hneeded
      refine carries_read hlength (hneeded 1 (by simp)) (.forEach receiving_mono receiving_stable
        fun m hm => processMessage_carries hlength fun j hj => hneeded j ?_)
      exact List.mem_append_right _ (List.mem_flatMap.mpr ⟨m, hm, hj⟩)
    · exact .ret receiving_stable ()
  refine hrest _ (readData_fromHost ht hlength (hneeded 0 ?_))
  split <;> simp

omit hlength

theorem midiProcessUsbMidi_carries {event : RxBuffer} (hlength : event.received.length ≤ 4) :
    (midiProcessUsbMidi (event.drop 1)).Carries avr (receiving k) (ReceivedFrom k) := by
  have hdrop : (event.drop 1).received.length = event.received.length - 1 := List.length_drop
  refine fun s hs => pwp_step receiving_stable hs fun i t ht hsends => ⟨trivial, ?_⟩
  have hevent := hsends.1.event event ret (bind_ret _).symm
  have hfits : (event.drop 1).received.length ≤ genericReportSize := by
    rw [hdrop, genericReportSize]
    omega
  refine carries_read hfits (by omega) (carries_read hfits (by omega) ?_) _
    (readData_fromHost ht hfits (by omega))
  exact carries_unread (midiHandle_unread _ _ _)

/-- What a stream read fills fits into the buffer. -/
theorem endpointReadStream_carries {α : Type} {m : Nat} {later : TickInput → List (List UInt8)}
    {stack : TickInput → Nat → UInt8} {q : RxBuffer → Code α}
    (hq : ∀ d : RxBuffer, d.received.length ≤ m →
      (q d).Carries avr (receiving k) (ReceivedFrom k)) :
    ((endpointReadStream m later stack).bind q).Carries avr (receiving k) (ReceivedFrom k) :=
  fun _ hs => pwp_step receiving_stable hs fun _ _ ht _ =>
    ⟨trivial, hq _ (readBytes_length_le m _ _) _ (ht.of_eq rfl)⟩

theorem midiRecieveUsbMidi_carries :
    midiRecieveUsbMidi.Carries avr (receiving k) (ReceivedFrom k) := by
  refine .bind receiving_mono (carries_unread (Keeps.act fun _ => rfl)) fun _ => ?_
  refine .bind receiving_mono (carries_unread (endpointIsOUTReceived_unread _)) fun received => ?_
  refine .when receiving_stable (endpointReadStream_carries fun event hevent => ?_)
  refine .bind receiving_mono (midiProcessUsbMidi_carries hevent) fun _ => carries_unread ?_
  exact Keeps.bind (Keeps.atomic fun _ _ => rfl) fun _ => Keeps.when (Keeps.act fun _ => rfl)

theorem genericHIDTaskOut_carries :
    genericHIDTaskOut.Carries avr (receiving k) (ReceivedFrom k) := by
  refine .bind receiving_mono (carries_unread (Keeps.act fun _ => rfl)) fun _ => ?_
  refine .bind receiving_mono (carries_unread (endpointIsOUTReceived_unread _)) fun received => ?_
  refine .when receiving_stable (.bind receiving_mono
    (carries_unread (Keeps.atomic fun _ _ => rfl)) fun allowed => ?_)
  refine .bind receiving_mono (.when receiving_stable ?_) fun _ =>
    carries_unread (Keeps.act fun _ => rfl)
  exact endpointReadStream_carries fun d hd => genericHIDProcessReport_carries hd

theorem timerHandler_carries : timerHandler.Carries avr (receiving k) (ReceivedFrom k) := by
  refine .bind receiving_mono (carries_unread (Keeps.act fun _ => rfl)) fun _ => ?_
  refine .bind receiving_mono midiRecieveUsbMidi_carries fun _ => .bind receiving_mono ?_ fun _ =>
    carries_unread usbUSBTask_unread
  refine .bind receiving_mono (carries_unread (Keeps.atomic fun _ _ => rfl)) fun state => ?_
  refine .when receiving_stable (.bind receiving_mono (carries_unread genericHIDTaskIn_unread)
    fun _ => genericHIDTaskOut_carries)

end Carries

/-! ### Not enough is sent -/

/-- **A step with too few bytes before it leads to a read of a byte that has not come.** -/
theorem sendsEnough_of_log {α : Type} {f : Input → Firmware → Firmware}
    {g : Input → Firmware → Code α} {i : Input} {rest : Sched Input} {s t : Firmware} {a : α}
    {l : List RxRead} (hkeeps : (Prog.step f g).Keeps (Appends readLog))
    (hrun : (Prog.step f g).run avr (.go i rest) s = some (a, t))
    (hlog : readLog t = readLog s ++ l) (hl : ∀ r ∈ l, r.FromHost) :
    SendsEnough (Prog.step f g) s := by
  have hreceived {d : RxBuffer} {n : Nat} (h : Noted readLog (d.read n) s t) :
      n < d.received.length := by
    obtain ⟨l', hl', hmem⟩ := h
    rw [List.append_cancel_left (hlog.symm.trans hl')] at hl
    exact of_decide_eq_true (hl _ hmem).1
  have hrest {c : Code Unit} {q : Unit → Code α} (hP : Prog.step f g = c.bind q) (a : Unit) :
      (q a).Keeps (Appends readLog) := by
    rw [hP] at hkeeps
    exact (hkeeps.of_bind i s).choose_spec
  constructor
  · intro event q hP
    have hnotes :
        (midiProcessUsbMidi (event.drop 1)).Notes avr readLog ((event.drop 1).read 2) := by
      rw [midiProcessUsbMidi_eq]
      exact readThree_notes midiHandle_unread (x := 2) (by decide)
    rw [hP] at hrun
    have hread := hreceived (Notes.run avr_logs (hnotes.bind_left (hrest hP)) hrun)
    have hdrop : (event.drop 1).received.length = event.received.length - 1 := List.length_drop
    omega
  · intro d q hP
    rw [hP] at hrun
    refine (reportReads_lt_iff d _).mp fun j hj => hreceived (n := j) ?_
    exact Notes.run avr_logs ((genericHIDProcessReport_notes hj).bind_left (hrest hP)) hrun
  · intro d n q hP hrunning
    rw [hP] at hrun
    exact hreceived (alphaLiveClock_run (hrest hP) hrunning hrun)

/-- What is read in the run, the host sent, and it lies in the report buffer. -/
def OnlyReceived (s t : Firmware) : Prop :=
  ∀ r ∈ t.usb.reads.drop s.usb.reads.length, r.FromHost

/--
**When only received bytes are read.** In every run of the firmware, with ticks wherever interrupts
are on, all bytes that are read have been received exactly if every MIDI event comes whole and every
report is as long as its messages need.
-/
theorem only_received_iff (n : Nat) (sched : Sched Input) (s t : Firmware)
    (hrun : (mainProgram n).run avr sched s = some ((), t)) :
    OnlyReceived s t ↔ (mainProgram n).everyStep avr (fun _ P s _ => SendsEnough P s) sched s := by
  have hmain : (mainProgram n).Keeps (SameOn readLog) :=
    Keeps.mono (fun _ _ hst => congrArg (fun v => v.2.1.reads) hst) (mainProgram_host n)
  obtain ⟨l, hl⟩ := (keeps_grows hmain).run_appends avr_logs hrun
  constructor
  · intro hreceived
    rw [OnlyReceived, show t.usb.reads = _ from hl.symm, show s.usb.reads = readLog s from rfl,
      List.drop_left] at hreceived
    exact everyStep_of_log avr_logs sendsEnough_of_log sched _ s (keeps_grows hmain) hrun hl.symm
      hreceived
  · intro hsends
    exact (pwp_sound (Contract.logging_sound avr_logs timerHandler_carries) sched anyStep anyStep
      (mainProgram n) _ s hsends (along_any _ _ _)
      (carries_unread hmain s (goodFrom_length s))).2 () t hrun

/-! ## Two runs -/

/-- A tick that finds a report of these bytes, with nothing to follow. -/
def reportTick (report : List UInt8) : Input :=
  { Input.quiet with tick := { TickInput.quiet with hidOut := some report } }

/-- Main makes `n` passes from the state `s`, and then the tick strikes. -/
def tickAtEnd (n : Nat) (report : List UInt8) (s : Firmware) : Sched Input :=
  (Timing.atEnd Input.quiet (reportTick report) (mainProgram n) s).sched avr (mainProgram n) s

theorem run_tickAtEnd {n : Nat} {report : List UInt8} {s : Firmware}
    (h : avr.enabled ((mainProgram n).exec (fun _ => Input.quiet) s).2 = true) :
    (mainProgram n).run avr (tickAtEnd n report s) s = some ((),
      afterIrq avr (fun _ => reportTick report)
        ((mainProgram n).exec (fun _ => Input.quiet) s).2) :=
  Timing.run_atEnd (fun _ _ => rfl) h

/-- A report of two bytes announces a message. Its type is read from the stack. -/
theorem reads_cut {s : Firmware} (h : s.usb = configured.usb) :
    (afterIrq avr (fun _ => reportTick [1, 1]) s).usb.reads
      = [⟨0, true⟩, ⟨1, true⟩, ⟨2, false⟩, ⟨3, false⟩, ⟨4, false⟩, ⟨5, false⟩] := by
  obtain ⟨pads, standby, hid, led, midi, usb, ports, adc, elite, cpu⟩ := s
  cases h
  rfl

/-- A setting and a MIDI message, with all their bytes. -/
theorem reads_whole {s : Firmware} (h : s.usb = configured.usb) :
    (afterIrq avr (fun _ => reportTick [1, 2, 1, 3, 1, 0, 0, 0xB0, 7, 100]) s).usb.reads
      = [⟨0, true⟩, ⟨1, true⟩, ⟨2, true⟩, ⟨3, true⟩, ⟨4, true⟩, ⟨6, true⟩, ⟨7, true⟩, ⟨8, true⟩,
        ⟨9, true⟩] := by
  obtain ⟨pads, standby, hid, led, midi, usb, ports, adc, elite, cpu⟩ := s
  cases h
  rfl

theorem not_only_received : ¬∀ (n : Nat) (sched : Sched Input) (s t : Firmware),
    (mainProgram n).run avr sched s = some ((), t) → OnlyReceived s t := by
  intro h
  have honly := h 0 (tickAtEnd 0 [1, 1] configured) configured _
    (run_tickAtEnd (startUp_enabled _ _))
  have hreads := reads_cut (mainProgram_usb 0 (fun _ => Input.quiet) configured)
  rw [OnlyReceived, hreads] at honly
  exact absurd (honly ⟨2, false⟩ (by decide)).1 (by decide)

/-- With the whole report nothing else is read, and with the first two bytes of one something is. -/
theorem only_received_iff_firstTick :
    (mainProgram 0).everyStep avr (fun _ P s _ => SendsEnough P s)
        (tickAtEnd 0 [1, 2, 1, 3, 1, 0, 0, 0xB0, 7, 100] configured) configured ∧
      ¬(mainProgram 0).everyStep avr (fun _ P s _ => SendsEnough P s)
        (tickAtEnd 0 [1, 1] configured) configured := by
  have husb := mainProgram_usb 0 (fun _ => Input.quiet) configured
  constructor
  · refine (only_received_iff 0 _ _ _ (run_tickAtEnd (startUp_enabled _ _))).mp ?_
    rw [OnlyReceived, reads_whole husb]
    decide
  · refine fun h => ?_
    have honly := (only_received_iff 0 _ _ _ (run_tickAtEnd (startUp_enabled _ _))).mpr h
    rw [OnlyReceived, reads_cut husb] at honly
    exact absurd (honly ⟨2, false⟩ (by decide)).1 (by decide)

end SphereWare
