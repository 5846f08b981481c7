import Mathlib.Data.List.Basic

/-!
# MIDI on a serial line

Complete messages, and a receiver that puts them together from the bytes on the line. A status
byte says how many data bytes follow. As long as no new one comes, further data bytes are further
messages with the same status (running status). Real-time messages are single bytes that may come
at any time.

A sender that fills shorter messages up with zeros sends data bytes the receiver takes for messages
(`heard`).
-/

namespace MidiWire

/-! ## Messages -/

inductive Message where
  | three (status data1 data2 : UInt8)
  | two (status data : UInt8)
  | realTime (status : UInt8)
  deriving DecidableEq, Repr

/-- Program change and channel pressure, the channel messages with one data byte. -/
def ShortStatus (status : UInt8) : Prop := 0xC0 ≤ status.toNat ∧ status.toNat < 0xE0

instance : DecidablePred ShortStatus := fun _ => inferInstanceAs (Decidable (_ ∧ _))

namespace Message

def Valid : Message → Prop
  | three status data1 data2 => 0x80 ≤ status.toNat ∧ status.toNat < 0xF0 ∧ ¬ShortStatus status ∧
      data1.toNat < 0x80 ∧ data2.toNat < 0x80
  | two status data => ShortStatus status ∧ data.toNat < 0x80
  | realTime status => 0xF8 ≤ status.toNat

instance : DecidablePred Valid
  | three .. => inferInstanceAs (Decidable (_ ∧ _))
  | two .. => inferInstanceAs (Decidable (_ ∧ _))
  | realTime _ => inferInstanceAs (Decidable (_ ≤ _))

def IsTwo : Message → Prop
  | two .. => True
  | _ => False

def IsRealTime : Message → Prop
  | realTime _ => True
  | _ => False

/-- The message as three bytes, the unused ones zero. -/
def padded : Message → List UInt8
  | three status data1 data2 => [status, data1, data2]
  | two status data => [status, data, 0]
  | realTime status => [status, 0, 0]

end Message

/-! ## The receiver -/

/-- The status in force, and the first of two data bytes if it has come. -/
structure Receiver where
  running : Option UInt8
  first : Option UInt8

namespace Receiver

def idle : Receiver := ⟨none, none⟩

/-- A byte comes in: the receiver afterwards, and the message that is complete now. -/
def byte (r : Receiver) (b : UInt8) : Receiver × List Message :=
  if 0xF8 ≤ b.toNat then (r, [.realTime b])
  -- system messages end the running status
  else if 0xF0 ≤ b.toNat then (idle, [])
  else if 0x80 ≤ b.toNat then (⟨some b, none⟩, [])
  else
    match r.running, r.first with
    | none, _ => (r, [])
    | some status, first =>
      if ShortStatus status then (r, [.two status b])
      else
        match first with
        | none => (⟨some status, some b⟩, [])
        | some data => (⟨some status, none⟩, [.three status data b])

/-- The messages in a stream of bytes. -/
def decode (r : Receiver) : List UInt8 → List Message
  | [] => []
  | b :: bytes => (r.byte b).2 ++ (r.byte b).1.decode bytes

theorem byte_realTime (r : Receiver) {b : UInt8} (h : 0xF8 ≤ b.toNat) :
    r.byte b = (r, [.realTime b]) := if_pos h

theorem byte_status (r : Receiver) {b : UInt8} (h₁ : 0x80 ≤ b.toNat) (h₂ : b.toNat < 0xF0) :
    r.byte b = (⟨some b, none⟩, []) := by
  rw [byte, if_neg (by omega), if_neg (by omega), if_pos h₁]

theorem byte_data_idle {b : UInt8} (h : b.toNat < 0x80) : idle.byte b = (idle, []) := by
  rw [byte, if_neg (by omega), if_neg (by omega), if_neg (by omega)]
  rfl

theorem byte_data_short {status b : UInt8} (hshort : ShortStatus status) (h : b.toNat < 0x80) :
    (⟨some status, none⟩ : Receiver).byte b = (⟨some status, none⟩, [.two status b]) := by
  rw [byte, if_neg (by omega), if_neg (by omega), if_neg (by omega)]
  exact if_pos hshort

theorem byte_data_first {status b : UInt8} (hlong : ¬ShortStatus status) (h : b.toNat < 0x80) :
    (⟨some status, none⟩ : Receiver).byte b = (⟨some status, some b⟩, []) := by
  rw [byte, if_neg (by omega), if_neg (by omega), if_neg (by omega)]
  exact if_neg hlong

theorem byte_data_second {status d b : UInt8} (hlong : ¬ShortStatus status) (h : b.toNat < 0x80) :
    (⟨some status, some d⟩ : Receiver).byte b = (⟨some status, none⟩, [.three status d b]) := by
  rw [byte, if_neg (by omega), if_neg (by omega), if_neg (by omega)]
  exact if_neg hlong

end Receiver

/-! ## Padded messages -/

/-- The running status after a message. -/
def Message.runningAfter (running : Option UInt8) : Message → Option UInt8
  | three status .. => some status
  | two status _ => some status
  | realTime _ => running

/-- What the receiver makes of the zeros behind a message. -/
def Message.echo (running : Option UInt8) : Message → List Message
  | three .. => []
  | two status _ => [.two status 0]
  | realTime _ =>
    match running with
    | none => []
    | some status =>
      if ShortStatus status then [.two status 0, .two status 0] else [.three status 0 0]

/-- What the receiver makes of a list of padded messages. -/
def heard (running : Option UInt8) : List Message → List Message
  | [] => []
  | m :: ms => m :: (m.echo running ++ heard (m.runningAfter running) ms)

theorem decode_padded_append (running : Option UInt8) {m : Message} (h : m.Valid)
    (bytes : List UInt8) : (⟨running, none⟩ : Receiver).decode (m.padded ++ bytes)
      = m :: (m.echo running ++ (⟨m.runningAfter running, none⟩ : Receiver).decode bytes) := by
  have hzero : (0 : UInt8).toNat < 0x80 := by decide
  cases m with
  | three status data1 data2 =>
    obtain ⟨h₁, h₂, hlong, hdata1, hdata2⟩ := h
    simp only [Message.padded, List.cons_append, List.nil_append, Receiver.decode,
      Receiver.byte_status _ h₁ h₂, Receiver.byte_data_first hlong hdata1,
      Receiver.byte_data_second hlong hdata2]
    rfl
  | two status data =>
    obtain ⟨hshort, hdata⟩ := h
    obtain ⟨h₁, h₂⟩ := id hshort
    simp only [Message.padded, List.cons_append, List.nil_append, Receiver.decode,
      Receiver.byte_status _ (show 0x80 ≤ status.toNat by omega) (by omega),
      Receiver.byte_data_short hshort hdata, Receiver.byte_data_short hshort hzero]
    rfl
  | realTime status =>
    simp only [Message.padded, List.cons_append, List.nil_append, Receiver.decode,
      Receiver.byte_realTime _ h]
    cases running with
    | none =>
      rw [show (⟨none, none⟩ : Receiver) = .idle from rfl, Receiver.byte_data_idle hzero,
        Receiver.byte_data_idle hzero]
      rfl
    | some running =>
      by_cases hshort : ShortStatus running
      · simp only [Receiver.byte_data_short hshort hzero, Message.echo, if_pos hshort]
        rfl
      · simp only [Receiver.byte_data_first hshort hzero, Receiver.byte_data_second hshort hzero,
          Message.echo, if_neg hshort]
        rfl

/-- **The receiver hears the messages, and an echo behind some of them.** -/
theorem decode_padded (running : Option UInt8) (ms : List Message) (h : ∀ m ∈ ms, m.Valid) :
    (⟨running, none⟩ : Receiver).decode (ms.flatMap Message.padded) = heard running ms := by
  induction ms generalizing running with
  | nil => rfl
  | cons m ms ih =>
    rw [List.flatMap_cons, decode_padded_append running (h m List.mem_cons_self), heard,
      ih _ fun x hx => h x (List.mem_cons_of_mem m hx)]

theorem length_le_heard (running : Option UInt8) (ms : List Message) :
    ms.length ≤ (heard running ms).length := by
  induction ms generalizing running with
  | nil => exact Nat.le_refl 0
  | cons m ms ih =>
    have hrest := ih (m.runningAfter running)
    rw [heard, List.length_cons, List.length_cons, List.length_append]
    omega

/-- Nothing is heard but the messages if and only if none has an echo. -/
theorem heard_cons_eq (running : Option UInt8) (m : Message) (ms : List Message) :
    heard running (m :: ms) = m :: ms ↔
      m.echo running = [] ∧ heard (m.runningAfter running) ms = ms := by
  rw [heard, List.cons_inj_right]
  constructor
  · intro h
    have hlength := congrArg List.length h
    rw [List.length_append] at hlength
    have hle := length_le_heard (m.runningAfter running) ms
    have hecho : m.echo running = [] := List.eq_nil_of_length_eq_zero (by omega)
    rw [hecho] at h
    exact ⟨hecho, h⟩
  · rintro ⟨hecho, hrest⟩
    rw [hecho, hrest, List.nil_append]

theorem echo_eq_nil_iff (running : Option UInt8) (m : Message) :
    m.echo running = [] ↔ ¬m.IsTwo ∧ (m.IsRealTime → running = none) := by
  cases m with
  | three status data1 data2 => simp [Message.echo, Message.IsTwo, Message.IsRealTime]
  | two status data => simp [Message.echo, Message.IsTwo]
  | realTime status =>
    cases running with
    | none => simp [Message.echo, Message.IsTwo]
    | some running =>
      simp only [Message.echo, Message.IsTwo, Message.IsRealTime]
      split <;> simp

theorem runningAfter_ne_none (running : Option UInt8) (m : Message) :
    m.runningAfter running ≠ none ↔ m.IsRealTime → running ≠ none := by
  cases m <;> simp [Message.runningAfter, Message.IsRealTime]

/--
**When padding does no harm.** There are no messages of two bytes, and all real-time messages come
before the first channel message.
-/
theorem heard_eq_iff (running : Option UInt8) (ms : List Message) :
    heard running ms = ms ↔ (∀ m ∈ ms, ¬m.IsTwo) ∧ (running ≠ none → ∀ m ∈ ms, ¬m.IsRealTime) ∧
      ms.Pairwise fun m n => n.IsRealTime → m.IsRealTime := by
  induction ms generalizing running with
  | nil => simp [heard]
  | cons m ms ih =>
    rw [heard_cons_eq, echo_eq_nil_iff, ih, runningAfter_ne_none, List.pairwise_cons,
      List.forall_mem_cons, List.forall_mem_cons]
    by_cases hm : m.IsRealTime
    · simp only [hm, imp_true_iff]
      tauto
    · simp only [hm, imp_false]
      tauto

end MidiWire
