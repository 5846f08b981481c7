import SphereWare.MidiWire.Receiver

/-!
# MIDI on USB

USB carries MIDI in events of four bytes. The low half of the first one, the code index number, says
how many of the three bytes behind it the message has, so nothing is lost when a shorter message is
filled up: what a receiver makes of an event depends on that event only (`decodeEvents_event`).
-/

namespace MidiWire

/-- The first byte of an event on cable 0: the kind of the status byte. -/
def codeIndex (status : UInt8) : UInt8 := (status &&& 0xF0) >>> (4 : UInt8)

/-- An event on cable 0. -/
def event (status data1 data2 : UInt8) : List UInt8 := [codeIndex status, status, data1, data2]

theorem toNat_codeIndex (status : UInt8) : (codeIndex status).toNat = status.toNat / 16 := by
  have hstatus : status.toNat < 256 := status.toNat_lt
  have hhigh : status.toNat >>> 4 = status.toNat / 16 := Nat.shiftRight_eq_div_pow _ 4
  rw [codeIndex, UInt8.toNat_shiftRight, UInt8.toNat_and, show (4 : UInt8).toNat % 8 = 4 from rfl,
    Nat.shiftRight_and_distrib, hhigh]
  -- of a number below 16 nothing is masked
  exact (Nat.and_two_pow_sub_one_eq_mod _ 4).trans (Nat.mod_eq_of_lt (by omega))

/-! ## The receiver -/

namespace Message

/-- The message three bytes stand for. A shorter message leaves the last bytes unused. -/
def ofBytes (status data1 data2 : UInt8) : Message :=
  if 0xF8 ≤ status.toNat then .realTime status
  else if ShortStatus status then .two status data1
  else .three status data1 data2

/-- The message in an event. Of the other code index numbers none stands for a whole message. -/
def ofEvent (first b1 b2 b3 : UInt8) : Option Message :=
  let code := first.toNat % 16
  if code < 0x8 then none
  else if code = 0xF then some (.realTime b1)
  else if 0xC ≤ code ∧ code < 0xE then some (.two b1 b2)
  else some (.three b1 b2 b3)

/-- **An event is the message it was made for.** -/
theorem ofEvent_event {status data1 data2 : UInt8} (h : (ofBytes status data1 data2).Valid) :
    ofEvent (codeIndex status) status data1 data2 = some (ofBytes status data1 data2) := by
  have hstatus : status.toNat < 256 := status.toNat_lt
  dsimp only [ofEvent]
  rw [toNat_codeIndex]
  unfold ofBytes at h ⊢
  split at h
  · next hreal => rw [if_neg (by omega), if_pos (by omega), if_pos hreal]
  · next hreal =>
    split at h
    · next hshort =>
      obtain ⟨h₁, h₂⟩ := id hshort
      rw [if_neg (by omega), if_neg (by omega), if_pos (by omega), if_neg hreal, if_pos hshort]
    · next hshort =>
      obtain ⟨h₁, h₂, hlong, -⟩ := h
      have hlong : ¬(0xC0 ≤ status.toNat ∧ status.toNat < 0xE0) := hlong
      rw [if_neg (by omega), if_neg (by omega), if_neg (by omega), if_neg hreal, if_neg hshort]

end Message

/-- The messages in a stream of events. -/
def decodeEvents : List UInt8 → List Message
  | first :: b1 :: b2 :: b3 :: bytes =>
    (Message.ofEvent first b1 b2 b3).toList ++ decodeEvents bytes
  | _ => []

/-- **The receiver hears the message, and goes on behind it.** -/
theorem decodeEvents_event {status data1 data2 : UInt8}
    (h : (Message.ofBytes status data1 data2).Valid) (bytes : List UInt8) :
    decodeEvents (event status data1 data2 ++ bytes)
      = Message.ofBytes status data1 data2 :: decodeEvents bytes := by
  show (Message.ofEvent _ _ _ _).toList ++ decodeEvents bytes = _
  rw [Message.ofEvent_event h]
  rfl

end MidiWire
