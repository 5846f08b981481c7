import SphereWare.MidiWire.Receiver
import SphereWare.Spec.OutReport

/-!
# MIDI on the serial line

`MIDI_Send_Uart_Midi` puts three bytes on the line whatever the message is. The receiver takes the
zeros behind a shorter message for data bytes.
-/

namespace SphereWare

open Interrupt Prog MidiWire

/-! ## Reports of MIDI messages -/

/-- A HID OUT report with messages of type 0 only, the unused bytes of which are zero. -/
structure MidiReport where
  data : RxBuffer
  messages : List MidiWire.Message
  id : data.get 0 = 1
  count : (data.get 1).toNat = messages.length
  kind : ∀ i < messages.length, data.get (i * 4 + 2) = 0
  bytes : (List.range messages.length).flatMap (fun i =>
    [data.get (i * 4 + 2 + 1), data.get (i * 4 + 2 + 2), data.get (i * 4 + 2 + 3)])
      = messages.flatMap MidiWire.Message.padded
  valid : ∀ m ∈ messages, m.Valid

/-- The state after `GenericHID_ProcessReport` has been called with each of the reports. -/
def processReports (env : Firmware → Input) : List MidiReport → Firmware → Firmware
  | [], s => s
  | r :: rs, s => processReports env rs ((genericHIDProcessReport r.data).exec env s).2

/-- The bytes that are new on the serial line. -/
def uartBytes (s t : Firmware) : List UInt8 := t.midi.uart.drop s.midi.uart.length

/-! ## The bytes on the line -/

theorem midiSendUsbMidi_uart (b1 b2 b3 : UInt8) :
    (midiSendUsbMidi b1 b2 b3).Keeps (SameOn fun s => s.midi.uart) :=
  midiSendUsbMidi_of (fun _ _ _ _ => rfl) b1 b2 b3

/-- A message of type 0 puts its three bytes on the line. -/
theorem processMessage_uart {d : RxBuffer} {i : Nat} (hkind : d.get (i * 4 + 2) = 0)
    (uart : List UInt8) :
    Spec avr (fun s => s.midi.uart) uart (processMessage d i) fun _ w =>
      w = uart ++ [d.get (i * 4 + 2 + 1), d.get (i * 4 + 2 + 2), d.get (i * 4 + 2 + 3)] := by
  refine spec_readData_bind uart (fun _ ht => ht) ?_
  rw [hkind, if_pos rfl]
  iterate 3 refine spec_readData_bind uart (fun _ ht => ht) ?_
  refine Spec.keeps_bind (midiSendUsbMidi_uart _ _ _) fun _ => ?_
  exact Spec.map (fun w => w ++ [d.get (i * 4 + 2 + 1), d.get (i * 4 + 2 + 2),
    d.get (i * 4 + 2 + 3)]) (fun _ => rfl) rfl

theorem foldl_append_eq {α β : Type} (f : α → List β) (l : List α) (w : List β) :
    l.foldl (fun w a => w ++ f a) w = w ++ l.flatMap f := by
  induction l generalizing w with
  | nil => exact (List.append_nil w).symm
  | cons a l ih => rw [List.foldl_cons, ih, List.flatMap_cons, List.append_assoc]

/-- **A report puts its messages on the line, padded to three bytes each.** -/
theorem genericHIDProcessReport_uart (r : MidiReport) (uart : List UInt8) :
    Spec avr (fun s => s.midi.uart) uart (genericHIDProcessReport r.data) fun _ w =>
      w = uart ++ r.messages.flatMap MidiWire.Message.padded := by
  refine spec_readData_bind uart (fun _ ht => ht) (Spec.when (fun _ => ?_) fun hid => ?_)
  · refine spec_readData_bind uart (fun _ ht => ht) ?_
    rw [r.count, ← r.bytes, ← foldl_append_eq]
    refine Spec.forEach_fold (fun _ => True) trivial (fun _ _ _ => trivial) fun i hi w _ => ?_
    exact processMessage_uart (r.kind i (List.mem_range.mp hi)) w
  · exact absurd r.id hid

theorem processReports_uart (env : Firmware → Input) (rs : List MidiReport) (s : Firmware) :
    (processReports env rs s).midi.uart
      = s.midi.uart ++ (rs.flatMap MidiReport.messages).flatMap MidiWire.Message.padded := by
  induction rs generalizing s with
  | nil => exact (List.append_nil _).symm
  | cons r rs ih =>
    have hreport := (genericHIDProcessReport_uart r s.midi.uart).exec env fun _ => rfl
    rw [processReports, ih, hreport, List.flatMap_cons, List.flatMap_append, List.append_assoc]

/-! ## What the receiver hears -/

/--
**When the line means what the host sent.** Exactly if there is no program change and no channel
pressure, and all real-time messages come before the first channel message.
-/
theorem decode_uart_iff (env : Firmware → Input) (s : Firmware) (rs : List MidiReport) :
    Receiver.idle.decode (uartBytes s (processReports env rs s)) = rs.flatMap MidiReport.messages ↔
      (∀ m ∈ rs.flatMap MidiReport.messages, ¬m.IsTwo) ∧
        (rs.flatMap MidiReport.messages).Pairwise fun m n => n.IsRealTime → m.IsRealTime := by
  have hvalid : ∀ m ∈ rs.flatMap MidiReport.messages, m.Valid := by
    intro m hm
    obtain ⟨r, -, hmr⟩ := List.mem_flatMap.mp hm
    exact r.valid m hmr
  rw [uartBytes, processReports_uart, List.drop_left, Receiver.idle, decode_padded none _ hvalid,
    heard_eq_iff]
  simp

/-! ## A program change -/

/-- The report with a program change to program 5 on channel 1. -/
def programChange : MidiReport where
  data := .ofList [1, 1, 0, 0xC0, 5, 0]
  messages := [.two 0xC0 5]
  id := rfl
  count := rfl
  kind i hi := by
    obtain rfl : i = 0 := Nat.lt_one_iff.mp hi
    rfl
  bytes := rfl
  valid := by decide

/-- It is heard as a change to program 5 and another one to program 0. -/
theorem not_decode_uart : ¬∀ (rs : List MidiReport),
    Receiver.idle.decode (uartBytes powerOn (processReports (fun _ => .quiet) rs powerOn))
      = rs.flatMap MidiReport.messages := by
  intro h
  have htwice : Receiver.idle.decode
      (uartBytes powerOn (processReports (fun _ => .quiet) [programChange] powerOn))
      = [.two 0xC0 5, .two 0xC0 0] := by decide +kernel
  have hprogram := (htwice.symm.trans (h [programChange]))
  exact absurd hprogram (by decide)

end SphereWare
