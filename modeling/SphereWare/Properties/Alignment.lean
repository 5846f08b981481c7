import Mathlib.Data.Nat.Bits
import SphereWare.Spec.HidRun

/-!
# Halves after a reconfiguration

After a configuration the host takes the first packet for a first half, the next for a second half,
and so on. The device goes by `flip`, which a configuration does not touch: it counts the packets
since power-on. The two agree when the number of packets before the configuration was even.
-/

namespace SphereWare

open Interrupt Prog

variable {s : Firmware} {calls : Nat → HidCall} {c k : Nat}

/-! ## Counting packets -/

/-- The number of packets sent by the calls before the one with index `n`. -/
def sentBefore (s : Firmware) (calls : Nat → HidCall) : Nat → Nat
  | 0 => 0
  | n + 1 => sentBefore s calls n + if (calls n).Sends (stateAt s calls n) then 1 else 0

theorem sentBefore_mono (h : c ≤ k) : sentBefore s calls c ≤ sentBefore s calls k := by
  induction k, h using Nat.le_induction with
  | base => exact le_refl _
  | succ k _ ih =>
    rw [sentBefore]
    omega

/-- **`flip` counts the packets modulo two.** -/
theorem stateAt_flip_eq (s : Firmware) (calls : Nat → HidCall) (n : Nat) :
    (stateAt s calls n).hid.flip = (s.hid.flip ^^ (sentBefore s calls n).bodd) := by
  induction n with
  | zero =>
    rw [sentBefore, Nat.bodd_zero, Bool.xor_false]
    rfl
  | succ n ih =>
    have hsome : (packetAt s calls n).isSome = decide ((calls n).Sends (stateAt s calls n)) := by
      rw [Bool.eq_iff_iff, packetAt_isSome, decide_eq_true_iff]
    rw [stateAt_flip, ih, sentBefore, Nat.bodd_add, hsome, Bool.xor_assoc]
    split
    · next h => rw [decide_eq_true h, Nat.bodd_one]
    · next h => rw [decide_eq_false h, Nat.bodd_zero]

/-! ## What the host expects -/

/-- The packet that holds the first or the second half of the report. -/
def Hid.packetOf (h : Hid) (second : Bool) : Packet := ⟨second, { h with flip := second }.half⟩

/-- Call `c` configures the device and no call after it and before `k` does. -/
def ConfiguredBy (calls : Nat → HidCall) (c k : Nat) : Prop :=
  c < k ∧ calls c = .bus .setConfiguration ∧
    ∀ m, c < m → m < k → calls m ≠ .bus .setConfiguration

/--
Every packet is the half the host takes it for: the first one after a configuration is the first
half, and the halves alternate until the next configuration.
-/
def Aligned (s : Firmware) (calls : Nat → HidCall) : Prop :=
  ∀ c k pkt, ConfiguredBy calls c k → packetAt s calls k = some pkt →
    pkt = (stateAt s calls k).hid.packetOf (sentBefore s calls k - sentBefore s calls c).bodd

theorem packetAt_eq_packetOf {pkt : Packet} (h : packetAt s calls k = some pkt) :
    pkt = (stateAt s calls k).hid.packetOf (stateAt s calls k).hid.flip :=
  (packetAt_eq_some.mp h).2

theorem Hid.packetOf_inj {h : Hid} {b b' : Bool} : h.packetOf b = h.packetOf b' ↔ b = b' :=
  ⟨fun heq => congrArg Packet.second heq, fun heq => by rw [heq]⟩

/-- After an even number of packets, and only then, the two countings agree. -/
theorem flip_eq_sinceConfiguration (hs : s.hid.flip = false) (hck : c ≤ k) :
    (stateAt s calls k).hid.flip = (sentBefore s calls k - sentBefore s calls c).bodd ↔
      (sentBefore s calls c).bodd = false := by
  have hsplit : sentBefore s calls k
      = sentBefore s calls c + (sentBefore s calls k - sentBefore s calls c) :=
    (Nat.add_sub_cancel' (sentBefore_mono hck)).symm
  have hflip : (stateAt s calls k).hid.flip = ((sentBefore s calls c).bodd
      ^^ (sentBefore s calls k - sentBefore s calls c).bodd) := by
    rw [stateAt_flip_eq, hs, Bool.false_xor, ← Nat.bodd_add, ← hsplit]
  -- the packets since the configuration cancel out
  rw [hflip]
  cases (sentBefore s calls c).bodd <;> simp

/--
**When the halves stay aligned.** They do exactly if an even number of packets was sent before
every configuration that is followed by a packet.
-/
theorem aligned_iff (calls : Nat → HidCall) : Aligned powerOn calls ↔
    ∀ c k, ConfiguredBy calls c k → (calls k).Sends (stateAt powerOn calls k) →
      (sentBefore powerOn calls c).bodd = false := by
  constructor
  · intro haligned c k hconfigured hsends
    have hpacket := packetAt_eq_some.mpr ⟨hsends, rfl⟩
    have hexpected := haligned c k _ hconfigured hpacket
    rw [packetAt_eq_packetOf hpacket, Hid.packetOf_inj] at hexpected
    exact (flip_eq_sinceConfiguration rfl hconfigured.1.le).mp hexpected
  · intro heven c k pkt hconfigured hpacket
    have hsends := (packetAt_eq_some.mp hpacket).1
    rw [packetAt_eq_packetOf hpacket, Hid.packetOf_inj]
    exact (flip_eq_sinceConfiguration rfl hconfigured.1.le).mpr (heven c k hconfigured hsends)

/-! ## A reset in the middle of a report -/

/-- What happens on the bus and in the timer interrupt. -/
def HidCall.BusTraffic : HidCall → Prop
  | .bus _ => True
  | .task _ => True
  | _ => False

/-- The host configures the device, takes one packet, and configures the device again. -/
def resetAfterOne : Nat → HidCall
  | 0 => .bus .connect
  | 1 => .bus .reset
  | 2 => .bus .setAddress
  | 3 => .bus .setConfiguration
  | 5 => .bus .reset
  | 6 => .bus .setAddress
  | 7 => .bus .setConfiguration
  | _ => .task .ready

/-- The first packet after the second configuration is the second half. -/
theorem not_aligned :
    ¬∀ calls : Nat → HidCall, (∀ k, (calls k).BusTraffic) → Aligned powerOn calls := by
  intro h
  have htraffic (k : Nat) : (resetAfterOne k).BusTraffic := by
    unfold resetAfterOne
    split <;> trivial
  have hconfigured : ConfiguredBy resetAfterOne 7 8 :=
    ⟨by decide, rfl, fun m h₇ h₈ => absurd h₈ (by omega)⟩
  have hpacket := packetAt_eq_some.mpr
    ⟨show (resetAfterOne 8).Sends (stateAt powerOn resetAfterOne 8) by decide +kernel, rfl⟩
  have hsecond := congrArg Packet.second (h resetAfterOne htraffic 7 8 _ hconfigured hpacket)
  have hflip : (stateAt powerOn resetAfterOne 8).hid.flip = true := by decide +kernel
  have hsince : (sentBefore powerOn resetAfterOne 8 - sentBefore powerOn resetAfterOne 7).bodd
      = false := by decide +kernel
  dsimp only [Hid.packetOf] at hsecond
  rw [hflip, hsince] at hsecond
  exact absurd hsecond (by decide)

end SphereWare
