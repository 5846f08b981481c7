import Mathlib.Algebra.FreeMonoid.Basic
import SphereWare.Accumulator.Drain
import SphereWare.Spec.HidRun

/-!
# MIDI messages for the host

Messages from the MIDI OUT endpoint wait in the report buffer behind a count, seven at most, and the
next second half takes them along. The buffer is a bounded queue: a drained accumulator of lists
that has room for another message as long as it holds less than seven.
-/

namespace SphereWare

open Interrupt Prog Accumulator

variable {s : Firmware} {calls : Nat → HidCall} {n : Nat}

/-! ## Messages -/

abbrev Message : Type := UInt8 × UInt8 × UInt8

/-- The messages waiting in the buffer. -/
def Hid.pendingMessages (h : Hid) : List Message :=
  (List.range h.noOfMidiInMessages.toNat).map fun k =>
    (h.buffer (101 + 3 * k), h.buffer (102 + 3 * k), h.buffer (103 + 3 * k))

/-- The messages in a second half: byte 100 of the report is their number. -/
def decodeMessages (data : List UInt8) : List Message :=
  (List.range (data.getD 36 0).toNat).map fun k =>
    (data.getD (37 + 3 * k) 0, data.getD (38 + 3 * k) 0, data.getD (39 + 3 * k) 0)

/-- The messages the host has read, in the order of the packets. -/
def messagesSent (s : Firmware) (calls : Nat → HidCall) (n : Nat) : List Message :=
  (secondHalves s calls n).flatMap decodeMessages

/-- The messages processed so far, each with how many were waiting when it came. -/
def arrivals (s : Firmware) (calls : Nat → HidCall) : Nat → List (Message × Nat)
  | 0 => []
  | n + 1 => arrivals s calls n ++ match calls n with
    | .midi b0 b1 b2 => [((b0, b1, b2), (stateAt s calls n).hid.pendingMessages.length)]
    | _ => []

/-! ## The buffer as a queue -/

/-- The count in the report is the counter, and it never exceeds seven. -/
structure Hid.QueueOk (h : Hid) : Prop where
  count : h.buffer 100 = h.noOfMidiInMessages
  le : h.noOfMidiInMessages.toNat ≤ 7

theorem Hid.length_pendingMessages (h : Hid) :
    h.pendingMessages.length = h.noOfMidiInMessages.toNat := by
  rw [pendingMessages, List.length_map, List.length_range]

theorem Hid.pendingMessages_congr {h h' : Hid}
    (hcount : h'.noOfMidiInMessages = h.noOfMidiInMessages)
    (hbuffer : ∀ j, 100 ≤ j → h'.buffer j = h.buffer j) :
    h'.pendingMessages = h.pendingMessages := by
  rw [pendingMessages, pendingMessages, hcount]
  refine List.map_congr_left fun k _ => ?_
  rw [hbuffer _ (by omega), hbuffer _ (by omega), hbuffer _ (by omega)]

theorem Hid.QueueOk.congr {h h' : Hid} (hok : h.QueueOk)
    (hcount : h'.noOfMidiInMessages = h.noOfMidiInMessages)
    (hbuffer : ∀ j, 100 ≤ j → h'.buffer j = h.buffer j) : h'.QueueOk :=
  ⟨by rw [hbuffer 100 (le_refl _), hcount, hok.count], by rw [hcount]; exact hok.le⟩

theorem toNat_succ {b : UInt8} (hb : b.toNat ≤ 6) : (b + 1).toNat = b.toNat + 1 := by
  have hone : (1 : UInt8).toNat = 1 := rfl
  rw [UInt8.toNat_add]
  omega

/-- **A message is appended if there is room, and dropped if there is none.** -/
theorem Hid.pendingMessages_writeMidiData (h : Hid) (b0 b1 b2 : UInt8) :
    (h.writeMidiData b0 b1 b2).pendingMessages =
      if h.pendingMessages.length < 7 then h.pendingMessages ++ [(b0, b1, b2)]
      else h.pendingMessages := by
  rw [length_pendingMessages]
  by_cases hroom : h.noOfMidiInMessages.toNat ≤ 6
  · rw [if_pos (by omega), writeMidiData, if_pos hroom, pendingMessages, pendingMessages,
      toNat_succ hroom, List.range_succ, List.map_append, List.map_singleton]
    dsimp only
    congr 1
    · refine List.map_congr_left fun k hk => ?_
      have hk : k < h.noOfMidiInMessages.toNat := List.mem_range.mp hk
      have hold (j : Nat) (hj : 100 < j) (hj' : j < h.noOfMidiInMessages.toNat * 3 + 101) :
          Function.update (Function.update (Function.update (Function.update h.buffer
            (h.noOfMidiInMessages.toNat * 3 + 101) b0)
            (h.noOfMidiInMessages.toNat * 3 + 101 + 1) b1)
            (h.noOfMidiInMessages.toNat * 3 + 101 + 2) b2) 100 (h.noOfMidiInMessages + 1) j
            = h.buffer j := by
        rw [Function.update_of_ne (by omega), Function.update_of_ne (by omega),
          Function.update_of_ne (by omega), Function.update_of_ne (by omega)]
      rw [hold _ (by omega) (by omega), hold _ (by omega) (by omega), hold _ (by omega) (by omega)]
    · have hindex : 101 + 3 * h.noOfMidiInMessages.toNat
          = h.noOfMidiInMessages.toNat * 3 + 101 := by
        omega
      have hindex₁ : 102 + 3 * h.noOfMidiInMessages.toNat
          = h.noOfMidiInMessages.toNat * 3 + 101 + 1 := by omega
      have hindex₂ : 103 + 3 * h.noOfMidiInMessages.toNat
          = h.noOfMidiInMessages.toNat * 3 + 101 + 2 := by omega
      rw [hindex, hindex₁, hindex₂]
      simp
  · rw [if_neg (by omega), writeMidiData, if_neg hroom]

theorem Hid.QueueOk.writeMidiData {h : Hid} (hok : h.QueueOk) (b0 b1 b2 : UInt8) :
    (h.writeMidiData b0 b1 b2).QueueOk := by
  by_cases hroom : h.noOfMidiInMessages.toNat ≤ 6
  · rw [Hid.writeMidiData, if_pos hroom]
    constructor
    · dsimp only
      rw [Function.update_self]
    · rw [toNat_succ hroom]
      omega
  · rw [Hid.writeMidiData, if_neg hroom]
    exact hok

/-- A call that writes no message leaves the queue alone. -/
theorem HidCall.write_queue {c : HidCall} (hc : ∀ b0 b1 b2, c ≠ .midi b0 b1 b2) (h : Hid) :
    (c.write h).noOfMidiInMessages = h.noOfMidiInMessages ∧
      ∀ j, 100 ≤ j → (c.write h).buffer j = h.buffer j := by
  cases c with
  | midi b0 b1 b2 => exact absurd rfl (hc b0 b1 b2)
  | padData pad value velocity =>
    have hpad : pad.val < 48 := pad.isLt
    exact ⟨rfl, fun j hj => h.buffer_writePadData_of_ne value velocity (by omega) (by omega)⟩
  | pressureOnly pad value =>
    have hpad : pad.val < 48 := pad.isLt
    exact ⟨rfl, fun j hj => h.buffer_writePressureOnly_of_ne value (by omega) (by omega)⟩
  | buttonData buttons => exact ⟨rfl, fun j hj => h.buffer_writeButtonData buttons (by omega)⟩
  | adjustDial dial amount =>
    have hdial : dial.val < 2 := dial.isLt
    exact ⟨rfl, fun j hj => h.buffer_adjustDial dial amount (by omega)⟩
  | clear =>
    refine ⟨rfl, fun j hj => ?_⟩
    show h.clear.buffer j = h.buffer j
    rw [Hid.clear, Hid.buffer_fill, if_neg (by omega)]
  | bus event => exact ⟨rfl, fun _ _ => rfl⟩
  | task tick => exact ⟨rfl, fun _ _ => rfl⟩

/-- **A second half carries the messages that are waiting.** -/
theorem Hid.decodeMessages_half {h : Hid} (hok : h.QueueOk) (hflip : h.flip = true) :
    decodeMessages h.half = h.pendingMessages := by
  have hle := hok.le
  have hbyte (i : Nat) (hi : i < 64) : h.half.getD i 0 = h.buffer (i + 64) := by
    rw [List.getD_eq_getElem?_getD, h.getElem?_half hi, hflip, if_pos rfl]
    rfl
  rw [decodeMessages, pendingMessages, hbyte 36 (by omega), hok.count]
  refine List.map_congr_left fun k hk => ?_
  have hk : k < h.noOfMidiInMessages.toNat := List.mem_range.mp hk
  rw [hbyte _ (by omega), hbyte _ (by omega), hbyte _ (by omega)]
  rw [show 37 + 3 * k + 64 = 101 + 3 * k by omega, show 38 + 3 * k + 64 = 102 + 3 * k by omega,
    show 39 + 3 * k + 64 = 103 + 3 * k by omega]

theorem Hid.queue_afterHalf (h : Hid) (hflip : h.flip = true) :
    h.afterHalf.noOfMidiInMessages = 0 ∧ h.afterHalf.buffer 100 = 0 := by
  rw [afterHalf, if_pos hflip]
  exact ⟨rfl, rfl⟩

/-! ## Refinement of the queue -/

/-- What the call with index `n` does to the queue. -/
def midiOp (s : Firmware) (calls : Nat → HidCall) (n : Nat) : Option (Op (FreeAddMonoid Message)) :=
  if SendsSecond s calls n then some .drain
  else match calls n with
    | .midi b0 b1 b2 => some (.put (.of (b0, b1, b2)))
    | _ => none

theorem midiOp_midi {b0 b1 b2 : UInt8} (hc : calls n = .midi b0 b1 b2) :
    ¬SendsSecond s calls n ∧ midiOp s calls n = some (.put (.of (b0, b1, b2))) := by
  have hsends : ¬SendsSecond s calls n := by
    rintro ⟨h, -⟩
    rw [hc] at h
    exact h
  exact ⟨hsends, by rw [midiOp, if_neg hsends, hc]⟩

theorem midiOp_other (hc : ∀ b0 b1 b2, calls n ≠ .midi b0 b1 b2) :
    midiOp s calls n = if SendsSecond s calls n then some .drain else none := by
  rw [midiOp]
  split
  · rfl
  · split
    · next b0 b1 b2 heq => exact absurd heq (hc b0 b1 b2)
    · rfl

/-- Less than seven messages are waiting. -/
def midiRoom (waiting : FreeAddMonoid Message) : Bool := decide (waiting.toList.length < 7)

/-- The report buffer and the packets show the queue `b`. -/
structure ShowsQueue (s : Firmware) (calls : Nat → HidCall) (n : Nat)
    (b : Buffer (FreeAddMonoid Message)) : Prop where
  ok : (stateAt s calls n).hid.QueueOk
  pending : (stateAt s calls n).hid.pendingMessages = b.pending.toList
  drained : (secondHalves s calls n).map decodeMessages = b.drained.map FreeAddMonoid.toList

theorem ShowsQueue.drain {b : Buffer (FreeAddMonoid Message)} (h : ShowsQueue s calls n b)
    (hsends : SendsSecond s calls n) :
    ShowsQueue s calls (n + 1) (b.apply midiRoom .drain) := by
  obtain ⟨hcount, hbyte⟩ := (stateAt s calls n).hid.queue_afterHalf hsends.2
  refine ⟨?_, ?_, ?_⟩
  · rw [stateAt_hid_of_sends hsends]
    exact ⟨by rw [hbyte, hcount], by rw [hcount]; decide⟩
  · rw [stateAt_hid_of_sends hsends, Hid.pendingMessages, hcount]
    rfl
  · rw [secondHalves_of_sends hsends, List.map_append, List.map_singleton, h.drained,
      Hid.decodeMessages_half h.ok hsends.2, h.pending, Buffer.apply, List.map_append,
      List.map_singleton]

theorem ShowsQueue.put {b : Buffer (FreeAddMonoid Message)} (h : ShowsQueue s calls n b)
    (hsends : ¬SendsSecond s calls n) {b0 b1 b2 : UInt8} (hc : calls n = .midi b0 b1 b2) :
    ShowsQueue s calls (n + 1) (b.apply midiRoom (.put (.of (b0, b1, b2)))) := by
  obtain ⟨hbuffer, hcount⟩ := stateAt_hid_of_not hsends
  have hwrite : (calls n).write (stateAt s calls n).hid
      = (stateAt s calls n).hid.writeMidiData b0 b1 b2 := by
    rw [hc]
    rfl
  rw [hwrite] at hbuffer hcount
  refine ⟨(h.ok.writeMidiData b0 b1 b2).congr hcount fun j _ => congrFun hbuffer j, ?_, ?_⟩
  · rw [Hid.pendingMessages_congr hcount fun j _ => congrFun hbuffer j,
      Hid.pendingMessages_writeMidiData, h.pending, Buffer.apply]
    by_cases hroom : b.pending.toList.length < 7
    · rw [if_pos hroom, if_pos (show midiRoom b.pending = true from decide_eq_true hroom)]
      rfl
    · rw [if_neg hroom, if_neg fun h : midiRoom b.pending = true => hroom (of_decide_eq_true h)]
  · rw [secondHalves_of_not hsends, h.drained, Buffer.apply]
    split <;> rfl

theorem ShowsQueue.other {b : Buffer (FreeAddMonoid Message)} (h : ShowsQueue s calls n b)
    (hsends : ¬SendsSecond s calls n) (hc : ∀ b0 b1 b2, calls n ≠ .midi b0 b1 b2) :
    ShowsQueue s calls (n + 1) b := by
  obtain ⟨hbuffer, hcount⟩ := stateAt_hid_of_not hsends
  obtain ⟨hcount', hbuffer'⟩ := HidCall.write_queue hc (stateAt s calls n).hid
  have hcount := hcount.trans hcount'
  have hbuffer (j : Nat) (hj : 100 ≤ j) := (congrFun hbuffer j).trans (hbuffer' j hj)
  refine ⟨h.ok.congr hcount hbuffer, ?_, ?_⟩
  · rw [Hid.pendingMessages_congr hcount hbuffer, h.pending]
  · rw [secondHalves_of_not hsends, h.drained]

theorem showsQueue_bufferAt (calls : Nat → HidCall) (n : Nat) :
    ShowsQueue powerOn calls n (bufferAt midiRoom (midiOp powerOn calls) n) := by
  induction n with
  | zero => exact ⟨⟨rfl, Nat.zero_le 7⟩, rfl, rfl⟩
  | succ n ih =>
    by_cases hmidi : ∃ b0 b1 b2, calls n = .midi b0 b1 b2
    · obtain ⟨b0, b1, b2, hc⟩ := hmidi
      obtain ⟨hsends, hop⟩ := midiOp_midi (s := powerOn) hc
      rw [bufferAt_some hop]
      exact ih.put hsends hc
    · have hc (b0 b1 b2 : UInt8) : calls n ≠ .midi b0 b1 b2 := fun hc => hmidi ⟨b0, b1, b2, hc⟩
      have hop := midiOp_other (s := powerOn) hc
      by_cases hsends : SendsSecond powerOn calls n
      · rw [if_pos hsends] at hop
        rw [bufferAt_some hop]
        exact ih.drain hsends
      · rw [if_neg hsends] at hop
        rw [bufferAt_none hop]
        exact ih.other hsends hc

/-- What the queue accepts are the messages that did not find seven others. -/
theorem accepted_midiOp (calls : Nat → HidCall) (n : Nat) :
    (accepted midiRoom (midiOp powerOn calls) n).sum.toList
      = ((arrivals powerOn calls n).filter fun a => a.2 ≠ 7).map Prod.fst := by
  induction n with
  | zero => rfl
  | succ n ih =>
    rw [arrivals, List.filter_append, List.map_append, ← ih, accepted, puts, List.filter_append,
      List.map_append, List.sum_append, FreeAddMonoid.toList_add, ← accepted]
    congr 1
    have hshows := showsQueue_bufferAt calls n
    have hle := hshows.ok.le
    rw [← Hid.length_pendingMessages] at hle
    by_cases hmidi : ∃ b0 b1 b2, calls n = .midi b0 b1 b2
    · obtain ⟨b0, b1, b2, hc⟩ := hmidi
      rw [(midiOp_midi hc).2, hc]
      dsimp only
      have hroom : midiRoom (bufferAt midiRoom (midiOp powerOn calls) n).pending
          = decide ((stateAt powerOn calls n).hid.pendingMessages.length ≠ 7) := by
        rw [midiRoom, ← hshows.pending, decide_eq_decide]
        omega
      rw [List.filter_singleton, List.filter_singleton, hroom]
      cases decide ((stateAt powerOn calls n).hid.pendingMessages.length ≠ 7) <;> rfl
    · have hc (b0 b1 b2 : UInt8) : calls n ≠ .midi b0 b1 b2 := fun hc => hmidi ⟨b0, b1, b2, hc⟩
      rw [midiOp_other hc]
      split
      · next a heq =>
        split at heq
        · cases heq
        · cases heq
      · split
        · next b0 b1 b2 heq => exact absurd heq (hc b0 b1 b2)
        · rfl

/--
**Every message that finds room reaches the host once and in order.** What the host has read,
followed by what is waiting, are the messages processed less those that found seven others waiting.
-/
theorem midi_in_exactly_once (calls : Nat → HidCall) (n : Nat) :
    messagesSent powerOn calls n ++ (stateAt powerOn calls n).hid.pendingMessages
        = ((arrivals powerOn calls n).filter fun a => a.2 ≠ 7).map Prod.fst ∧
      (stateAt powerOn calls n).hid.buffer 100 = (stateAt powerOn calls n).hid.noOfMidiInMessages ∧
      (stateAt powerOn calls n).hid.noOfMidiInMessages.toNat ≤ 7 := by
  have hshows := showsQueue_bufferAt calls n
  refine ⟨?_, hshows.ok.count, hshows.ok.le⟩
  have htotal : (bufferAt midiRoom (midiOp powerOn calls) n).total.toList
      = (accepted midiRoom (midiOp powerOn calls) n).sum.toList := by rw [total_bufferAt]
  rw [accepted_midiOp, Buffer.total, FreeAddMonoid.toList_add, FreeAddMonoid.toList_sum,
    ← hshows.drained, ← hshows.pending] at htotal
  exact htotal

end SphereWare
