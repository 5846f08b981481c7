import Mathlib.Data.List.Basic

/-!
# A sender and a reader with one packet between them

The sender cuts its data into packets of one size. A packet waits in the bank until the reader
fetches it. After a full packet the sender owes another one, which is empty if no data are left: a
reader knows the end by a packet that is not full, or by having got all the elements it wanted.
-/

namespace ControlTransfer

variable {α : Type}

/-- What the reader has received, and whether it has seen the end. -/
structure Reader (α : Type) where
  received : List α
  ended : Bool

def Reader.take (size wanted : Nat) (r : Reader α) (packet : List α) : Reader α where
  received := r.received ++ packet
  ended := decide (packet.length < size) || decide (wanted ≤ (r.received ++ packet).length)

structure Link (α : Type) where
  /-- What the sender has not put into a packet. -/
  left : List α
  /-- The last packet was full. -/
  owes : Bool
  bank : Option (List α)
  reader : Reader α

namespace Link

variable {size wanted : Nat} {data : List α} {l l' : Link α}

/-- The sender fills the bank. -/
def put (size : Nat) (l : Link α) : Link α :=
  { l with
    left := l.left.drop size
    owes := decide ((l.left.take size).length = size)
    bank := some (l.left.take size) }

/-- The reader takes the packet `p`. -/
def fetch (size wanted : Nat) (l : Link α) (p : List α) : Link α :=
  { l with bank := none, reader := l.reader.take size wanted p }

/-- What is kept, for a sender of `data`. -/
structure Sound (size : Nat) (data : List α) (l : Link α) : Prop where
  /-- Nothing is lost and nothing comes twice. -/
  whole : l.reader.received ++ l.bank.getD [] ++ l.left = data
  full : ∀ p, l.bank = some p → size ≤ p.length → l.owes = true
  short : ∀ p, l.bank = some p → p.length < size → l.left = [] ∧ l.owes = false
  ended : l.reader.ended = true → l.reader.received = data

/-- The sender has more to do for a reader that waits. -/
def Pending (l : Link α) : Prop :=
  l.reader.ended = false → l.bank = none → l.left ≠ [] ∨ l.owes = true

/-- The sender has put nothing into the bank. -/
theorem sound_start (data : List α) :
    Sound size data { left := data, owes := false, bank := none, reader := ⟨[], false⟩ } where
  whole := rfl
  full _ hp := absurd hp (by simp)
  short _ hp := absurd hp (by simp)
  ended h := absurd h (by simp)

/-- A sender without data starts with the empty packet. -/
theorem sound_empty (h : 0 < size) : Sound size ([] : List α)
    { left := [], owes := false, bank := some [], reader := ⟨[], false⟩ } where
  whole := rfl
  full p hp hlength := by
    obtain rfl := Option.some.inj hp
    exact absurd hlength (Nat.not_le_of_lt h)
  short _ _ _ := ⟨rfl, rfl⟩
  ended h := absurd h (by simp)

/-- All is received once the end is seen. -/
theorem Sound.rest (h : Sound size data l) (hended : l.reader.ended = true) :
    l.bank.getD [] = [] ∧ l.left = [] := by
  have hdata := h.whole
  rw [h.ended hended, List.append_assoc] at hdata
  exact List.append_eq_nil_iff.mp (List.append_right_eq_self.mp hdata)

theorem Sound.put (h : Sound size data l) (hbank : l.bank = none) :
    Sound size data (l.put size) where
  whole := by
    have hdata := h.whole
    rw [hbank, Option.getD_none, List.append_nil] at hdata
    show l.reader.received ++ l.left.take size ++ l.left.drop size = data
    rw [List.append_assoc, List.take_append_drop, hdata]
  full p hp hlength := by
    obtain rfl := Option.some.inj hp
    have hle : (l.left.take size).length ≤ size := by
      rw [List.length_take]
      exact Nat.min_le_left _ _
    exact decide_eq_true (Nat.le_antisymm hle hlength)
  short p hp hlength := by
    obtain rfl := Option.some.inj hp
    refine ⟨List.drop_eq_nil_of_le ?_, decide_eq_false (Nat.ne_of_lt hlength)⟩
    rw [List.length_take] at hlength
    omega
  ended hended := h.ended hended

theorem Sound.fetch (h : Sound size data l) (hwanted : data.length ≤ wanted) {p : List α}
    (hbank : l.bank = some p) : Sound size data (l.fetch size wanted p) := by
  have hdata := h.whole
  rw [hbank, Option.getD_some] at hdata
  refine ⟨?_, fun q hq => absurd hq (by simp [Link.fetch]), fun q hq =>
    absurd hq (by simp [Link.fetch]), fun hended => ?_⟩
  · show l.reader.received ++ p ++ [] ++ l.left = data
    rw [List.append_nil, hdata]
  · show l.reader.received ++ p = data
    have hleft : l.left = [] := by
      rcases (Bool.or_eq_true_iff).mp hended with hshort | hall
      · exact (h.short p hbank (of_decide_eq_true hshort)).1
      · have hlength := congrArg List.length hdata
        rw [List.length_append] at hlength
        have hall := of_decide_eq_true hall
        exact List.eq_nil_of_length_eq_zero (by omega)
    rwa [hleft, List.append_nil] at hdata

theorem pending_put (l : Link α) : (l.put size).Pending :=
  fun _ hnone => absurd hnone (by simp [Link.put])

/-- A reader that still waits has got a full packet. -/
theorem Sound.pending_fetch (h : Sound size data l) {p : List α} (hbank : l.bank = some p) :
    (l.fetch size wanted p).Pending := by
  refine fun hopen _ => .inr (h.full p hbank ?_)
  have hfull := (Bool.or_eq_false_iff.mp hopen).1
  exact Nat.not_lt.mp (of_decide_eq_false hfull)

/-- What the sender still has to do. -/
def weight (l : Link α) : Nat := 2 * l.left.length + l.owes.toNat

/-- Each packet brings the sender nearer to the end. -/
theorem weight_put (hsize : 0 < size) (h : l.left ≠ [] ∨ l.owes = true) :
    (l.put size).weight < l.weight := by
  unfold weight Link.put
  dsimp only
  rw [List.length_drop, List.length_take]
  cases hleft : l.left with
  | nil =>
    have howes := h.resolve_left fun hne => hne hleft
    rw [howes, List.length_nil, Nat.min_zero, decide_eq_false (Nat.ne_of_lt hsize), Nat.zero_sub]
    decide
  | cons b bs =>
    have hpending := Bool.toNat_le (decide (min size (b :: bs).length = size))
    rw [List.length_cons] at hpending ⊢
    omega

end Link

end ControlTransfer
