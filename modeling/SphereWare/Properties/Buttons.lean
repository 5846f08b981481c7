import SphereWare.Spec.HidRun

/-!
# The elite buttons

`ButtonsAndDials_Read` writes the levels of all three buttons whenever it has read one of them, and
`GenericHID_Task` takes them away with every second half it sends. A button that is held down is
reported as such exactly as long as one of the buttons is read between any two second halves.
-/

namespace SphereWare

open Interrupt Prog

/-! ## Buttons -/

/-- The buttons by the names `hid-monitor.py` gives them. -/
inductive EliteButton where
  | button1 | button2 | button3
  deriving DecidableEq, Repr

namespace EliteButton

/-- The bit of byte 97. -/
def bit : EliteButton → UInt8
  | button1 => 1
  | button2 => 2
  | button3 => 3

/-- The elite input the button is on: `SW4`, `SW3` or `SW2`. -/
def mux : EliteButton → Fin 5
  | button1 => 3
  | button2 => 0
  | button3 => 1

/-- The bits a read of the button keeps. -/
def kept : EliteButton → UInt8
  | button1 => 0b00001101
  | button2 => 0b00001011
  | button3 => 0b00000111

/-- The static `buttons` after a read of the button. -/
def update (k : EliteButton) (buttons pinD : UInt8) : UInt8 :=
  (buttons &&& k.kept) ||| (pressed pinD <<< k.bit)

end EliteButton

/-- A button byte, as `hid-monitor.py` decodes it. -/
def decodeButton (b : UInt8) (k : EliteButton) : UInt8 := (b &&& (1 <<< k.bit)) >>> k.bit

/-- A read reports the button it has read, -/
theorem decodeButton_update_self (k : EliteButton) (buttons pinD : UInt8) :
    decodeButton (k.update buttons pinD) k = pressed pinD := by
  unfold EliteButton.update
  revert buttons
  rcases pressed_eq pinD with hp | hp <;> rw [hp] <;> refine forall_byte ?_ <;> cases k <;>
    decide +kernel

/-- and keeps the others. -/
theorem decodeButton_update_of_ne {j k : EliteButton} (hne : j ≠ k) (buttons pinD : UInt8) :
    decodeButton (j.update buttons pinD) k = decodeButton buttons k := by
  unfold EliteButton.update
  revert buttons
  rcases pressed_eq pinD with hp | hp <;> rw [hp] <;> refine forall_byte ?_ <;> cases j <;>
    cases k <;> first | exact absurd rfl hne | decide +kernel

theorem eliteInput_mux (v : EliteView) (k : EliteButton) (slot : Option Nat) (pinD : UInt8) :
    eliteInput v k.mux slot pinD = buttonRead v k.kept k.bit slot pinD := by
  cases k <;> rfl

/-- An encoder, the other kind of elite input, has no part in the buttons. -/
theorem encoderRead_buttons (v : EliteView) (number : Nat) (slot : Option Nat) (pinD : UInt8)
    (hnumber : 97 ≠ 98 + number) :
    (encoderRead v number slot pinD).elite.buttons = v.elite.buttons ∧
      (encoderRead v number slot pinD).hid.buffer 97 = v.hid.buffer 97 := by
  unfold encoderRead
  dsimp only
  split
  · split
    · exact ⟨rfl, v.hid.buffer_adjustDial number (-1) hnumber⟩
    · split
      · exact ⟨rfl, v.hid.buffer_adjustDial number 1 hnumber⟩
      · exact ⟨rfl, rfl⟩
  · exact ⟨rfl, rfl⟩

/-- Whether the unit is an elite one decides about `being_played` only. -/
theorem buttonsAndDialsRead_elite (v : EliteView) (pad : Nat) (base : Option Nat) (pinD : UInt8) :
    (buttonsAndDialsRead v pad base pinD).elite
        = (eliteInput v (pad % 8) (base.map (· + pad % 8)) pinD).elite ∧
      (buttonsAndDialsRead v pad base pinD).hid
        = (eliteInput v (pad % 8) (base.map (· + pad % 8)) pinD).hid := by
  unfold buttonsAndDialsRead
  dsimp only
  split <;> exact ⟨rfl, rfl⟩

/-! ## Reads and packets -/

/-- A read of one of the five elite inputs, a call of `GenericHID_Task` or an event on the bus. -/
inductive EliteCall where
  | read (eliteMuxNum : Fin 5) (pinD : UInt8)
  | task (tick : TickInput)
  | bus (event : UsbEvent)

namespace EliteCall

/-- The state after the call. -/
def step : EliteCall → Firmware → Firmware
  | read n pinD, s =>
    ((buttonsAndDials n (some numPads)).exec (fun _ => { Input.quiet with pinD := pinD }) s).2
  | task tick, s => (HidCall.task tick).step s
  | bus event, s => (HidCall.bus event).step s

/-- The call is a read of the button. -/
def Reads (k : EliteButton) : EliteCall → Prop
  | read n _ => n = k.mux
  | _ => False

/-- The call is a read of the button that finds it pressed: the pin is low. -/
def FindsPressed (k : EliteButton) : EliteCall → Prop
  | read n pinD => n = k.mux ∧ pressed pinD = 1
  | _ => False

/-- The call is one of `GenericHID_Task`, and it sends a packet. -/
def Sends (s : Firmware) : EliteCall → Prop
  | task tick => SphereWare.Sends tick s
  | _ => False

/-- The packet that is new on the bus after a call. -/
def packet (c : EliteCall) (s : Firmware) : Option Packet :=
  ((c.step s).usb.packets.drop s.usb.packets.length).head?.map fun data => ⟨s.hid.flip, data⟩

theorem FindsPressed.reads {k : EliteButton} {c : EliteCall} (h : c.FindsPressed k) :
    c.Reads k := by
  cases c with
  | read n pinD => exact h.1
  | task tick => exact h
  | bus event => exact h

/-- The call sends a second half. -/
def SendsSecond (c : EliteCall) (s : Firmware) : Prop := c.Sends s ∧ s.hid.flip = true

theorem read_step (n : Fin 5) (pinD : UInt8) (s : Firmware) :
    ((read n pinD).step s).elite = (eliteInput ⟨s.elite, s.hid, s.pads.beingPlayed⟩ n
        (some (numPads + n)) pinD).elite ∧
      ((read n pinD).step s).hid = (eliteInput ⟨s.elite, s.hid, s.pads.beingPlayed⟩ n
        (some (numPads + n)) pinD).hid := by
  have hread := buttonsAndDialsRead_elite ⟨s.elite, s.hid, s.pads.beingPlayed⟩ n (some numPads) pinD
  rwa [Nat.mod_eq_of_lt (show (n : Nat) < 8 by omega)] at hread

/-- A button that is read goes to `buttons` and, with the others, to byte 97. -/
theorem step_of_reads {k : EliteButton} {c : EliteCall} (h : c.Reads k) (s : Firmware) :
    ∃ pinD, (c.FindsPressed k → pressed pinD = 1) ∧
      (c.step s).elite.buttons = k.update s.elite.buttons pinD ∧
      (c.step s).hid.buffer 97 = k.update s.elite.buttons pinD := by
  cases c with
  | read n pinD =>
    obtain rfl : n = k.mux := h
    obtain ⟨helite, hhid⟩ := read_step k.mux pinD s
    rw [eliteInput_mux] at helite hhid
    rw [helite, hhid]
    exact ⟨pinD, fun hpressed => hpressed.2, rfl, Hid.buffer_writeButtonData_self _ _⟩
  | task tick => exact h.elim
  | bus event => exact h.elim

instance (s : Firmware) (c : EliteCall) : Decidable (c.SendsSecond s) :=
  match c with
  | task tick => inferInstanceAs (Decidable (SphereWare.Sends tick s ∧ _))
  | read _ _ | bus _ => isFalse fun h => h.1

/-- A call that reads no button leaves `buttons` alone. A second half clears byte 97. -/
theorem step_of_not_reads {c : EliteCall} (h : ∀ k, ¬c.Reads k) (s : Firmware) :
    (c.step s).elite.buttons = s.elite.buttons ∧
      (c.step s).hid.buffer 97 = if c.SendsSecond s then 0 else s.hid.buffer 97 := by
  cases c with
  | read n pinD =>
    obtain ⟨helite, hhid⟩ := read_step n pinD s
    have hencoder : (eliteInput ⟨s.elite, s.hid, s.pads.beingPlayed⟩ n
        (some (numPads + n)) pinD).elite.buttons = s.elite.buttons ∧
      (eliteInput ⟨s.elite, s.hid, s.pads.beingPlayed⟩ n
        (some (numPads + n)) pinD).hid.buffer 97 = s.hid.buffer 97 := by
      match n, h with
      | 0, h => exact absurd rfl (h .button2)
      | 1, h => exact absurd rfl (h .button3)
      | 2, _ => exact encoderRead_buttons _ 0 _ pinD (by decide)
      | 3, h => exact absurd rfl (h .button1)
      | 4, _ => exact encoderRead_buttons _ 1 _ pinD (by decide)
    rw [helite, hhid]
    exact ⟨hencoder.1, hencoder.2.trans (if_neg fun hsecond => hsecond.1).symm⟩
  | task tick =>
    have helite : ((task tick).step s).elite = s.elite :=
      congrArg (fun v => v.2.2.2.2.1) (genericHIDTask_keeps.exec (SameOn.refl _)
        (fun _ _ _ => SameOn.trans) _ s)
    have hhid : ((task tick).step s).hid.buffer 97
        = if (task tick).SendsSecond s then 0 else s.hid.buffer 97 := by
      have htask : ((task tick).step s).hid
          = if SphereWare.Sends tick s then s.hid.afterHalf else s.hid := taskCall_hid _ s
      rw [htask]
      by_cases hsends : SphereWare.Sends tick s
      · rw [if_pos hsends, Hid.buffer_buttons_afterHalf]
        exact if_congr ⟨fun hflip => ⟨hsends, hflip⟩, fun hsecond => hsecond.2⟩ rfl rfl
      · rw [if_neg hsends, if_neg fun hsecond => hsends hsecond.1]
    exact ⟨congrArg Elite.buttons helite, hhid⟩
  | bus event => exact ⟨rfl, (if_neg fun hsecond => hsecond.1).symm⟩

/-! ## Histories -/

/-- The packet of a call, and which half it is. -/
theorem packet_eq_some {c : EliteCall} {s : Firmware} {pkt : Packet} :
    c.packet s = some pkt ↔ c.Sends s ∧ pkt = ⟨s.hid.flip, s.hid.half⟩ := by
  cases c with
  | read n pinD =>
    have hnone : (read n pinD).packet s = none := by
      have husb : ((read n pinD).step s).usb = s.usb := rfl
      rw [packet, husb, List.drop_length]
      rfl
    rw [hnone]
    exact ⟨fun h => by simp at h, fun h => h.1.elim⟩
  | task tick =>
    show (HidCall.task tick).packet s = some pkt ↔ _
    rw [HidCall.packet_eq]
    split
    · next h => exact ⟨fun hpkt => ⟨h, (Option.some.inj hpkt).symm⟩, fun hpkt => by rw [hpkt.2]⟩
    · next h => exact ⟨fun hpkt => absurd hpkt (by simp), fun hpkt => absurd hpkt.1 h⟩
  | bus event =>
    show (HidCall.bus event).packet s = some pkt ↔ _
    rw [HidCall.packet_eq, if_neg (show ¬(HidCall.bus event).Sends s from id)]
    exact ⟨fun h => by simp at h, fun h => h.1.elim⟩

end EliteCall

variable (s : Firmware) (calls : Nat → EliteCall)

/-- The state before the call with index `n`. -/
def eliteStateAt : Nat → Firmware
  | 0 => s
  | n + 1 => (calls n).step (eliteStateAt n)

/-- Two consecutive reads of a button, both of which find it pressed. -/
structure HeldBetween (k : EliteButton) (a b : Nat) : Prop where
  lt : a < b
  first : (calls a).FindsPressed k
  last : (calls b).FindsPressed k
  between : ∀ n, a < n → n < b → ¬(calls n).Reads k

/-- Every second half sent between the calls `a` and `b` reports the button pressed. -/
def ReportedBetween (k : EliteButton) (a b : Nat) : Prop :=
  ∀ n pkt, a < n → n < b → (calls n).packet (eliteStateAt s calls n) = some pkt →
    pkt.second = true → decodeButton (pkt.data.getD (97 - 64) 0) k = 1

/-- No button is read after the call `m` and before the call `n`. -/
def Unread (m n : Nat) : Prop := ∀ r, m < r → r < n → ∀ k, ¬(calls r).Reads k

variable {s calls} {k : EliteButton} {a b : Nat}

/-- A second half takes the buttons away until one of them is read. -/
theorem buttons_cleared {m n : Nat} (hmn : m < n)
    (hsends : (calls m).SendsSecond (eliteStateAt s calls m)) (hunread : Unread calls m n) :
    (eliteStateAt s calls n).hid.buffer 97 = 0 := by
  induction n, hmn using Nat.le_induction with
  | base =>
    have hreads (k : EliteButton) : ¬(calls m).Reads k := by
      intro hread
      cases hc : calls m with
      | read n pinD => exact (hc ▸ hsends.1).elim
      | task tick => exact (hc ▸ hread).elim
      | bus event => exact (hc ▸ hread).elim
    rw [eliteStateAt, (EliteCall.step_of_not_reads hreads _).2, if_pos hsends]
  | succ n hn ih =>
    rw [eliteStateAt, (EliteCall.step_of_not_reads (hunread n hn (Nat.lt_succ_self n)) _).2,
      ih fun r hr hrn => hunread r hr (Nat.lt_succ_of_lt hrn), ite_self]

/-- What is known of a button that is held: `buttons` has it; byte 97 has it or lost it. -/
structure Holds (s : Firmware) (calls : Nat → EliteCall) (k : EliteButton) (a n : Nat) : Prop where
  static : decodeButton (eliteStateAt s calls n).elite.buttons k = 1
  byte : decodeButton ((eliteStateAt s calls n).hid.buffer 97) k = 1 ∨
    ∃ m, a < m ∧ m < n ∧ (calls m).SendsSecond (eliteStateAt s calls m) ∧ Unread calls m n

theorem holds_first (h : (calls a).FindsPressed k) : Holds s calls k a (a + 1) := by
  obtain ⟨pinD, hpressed, hbuttons, hbyte⟩ :=
    EliteCall.step_of_reads h.reads (eliteStateAt s calls a)
  have hself (buttons : UInt8) : decodeButton (k.update buttons pinD) k = 1 := by
    rw [decodeButton_update_self, hpressed h]
  refine ⟨?_, Or.inl ?_⟩
  · rw [eliteStateAt, hbuttons, hself]
  · rw [eliteStateAt, hbyte, hself]

/-- A call that does not read the button keeps it held. -/
theorem Holds.step {n : Nat} (h : Holds s calls k a n) (han : a < n) (hk : ¬(calls n).Reads k) :
    Holds s calls k a (n + 1) := by
  by_cases hread : ∃ j, (calls n).Reads j
  · obtain ⟨j, hj⟩ := hread
    obtain ⟨pinD, -, hbuttons, hbyte⟩ := EliteCall.step_of_reads hj (eliteStateAt s calls n)
    have hne : j ≠ k := fun heq => hk (heq ▸ hj)
    refine ⟨?_, Or.inl ?_⟩
    · rw [eliteStateAt, hbuttons, decodeButton_update_of_ne hne, h.static]
    · rw [eliteStateAt, hbyte, decodeButton_update_of_ne hne, h.static]
  · have hunread (j : EliteButton) : ¬(calls n).Reads j := fun hj => hread ⟨j, hj⟩
    obtain ⟨hbuttons, hbyte⟩ := EliteCall.step_of_not_reads hunread (eliteStateAt s calls n)
    refine ⟨by rw [eliteStateAt, hbuttons, h.static], ?_⟩
    by_cases hsends : (calls n).SendsSecond (eliteStateAt s calls n)
    · exact Or.inr ⟨n, han, Nat.lt_succ_self n, hsends, fun r hr hrn => absurd hr (by omega)⟩
    · rw [eliteStateAt, hbyte, if_neg hsends]
      rcases h.byte with hset | ⟨m, ham, hmn, hsecond, hm⟩
      · exact Or.inl hset
      · refine Or.inr ⟨m, ham, Nat.lt_succ_of_lt hmn, hsecond, fun r hr hrn => ?_⟩
        rcases Nat.lt_succ_iff_lt_or_eq.mp hrn with hlt | rfl
        · exact hm r hr hlt
        · exact hunread

theorem HeldBetween.holds (h : HeldBetween calls k a b) {n : Nat} (han : a < n) (hnb : n ≤ b) :
    Holds s calls k a n := by
  induction n, han using Nat.le_induction with
  | base => exact holds_first h.first
  | succ n hn ih => exact (ih (by omega)).step hn (h.between n hn hnb)

/-- The button byte of a second half. -/
theorem getD_half {h : Hid} (hflip : h.flip = true) : h.half.getD (97 - 64) 0 = h.buffer 97 := by
  rw [List.getD_eq_getElem?_getD, Hid.getElem?_half _ (by decide), hflip]
  rfl

/--
**When a held button is reported held.** Exactly if one of the buttons is read between any two
second halves that are sent between its two reads.
-/
theorem reportedBetween_iff (s : Firmware) (calls : Nat → EliteCall) (k : EliteButton) (a b : Nat)
    (h : HeldBetween calls k a b) :
    ReportedBetween s calls k a b ↔
      ∀ m n, a < m → m < n → n < b → (calls m).SendsSecond (eliteStateAt s calls m) →
        (calls n).SendsSecond (eliteStateAt s calls n) → ¬Unread calls m n := by
  constructor
  · intro hreported m n ham hmn hnb hm hn hunread
    have hpacket := EliteCall.packet_eq_some.mpr ⟨hn.1, rfl⟩
    have hset := hreported n _ (ham.trans hmn) hnb hpacket hn.2
    rw [getD_half hn.2, buttons_cleared hmn hm hunread] at hset
    cases k <;> exact absurd hset (by decide)
  · intro hread n pkt han hnb hpacket hsecond
    obtain ⟨hsends, rfl⟩ := EliteCall.packet_eq_some.mp hpacket
    rw [getD_half hsecond]
    rcases (h.holds han hnb.le).byte with hset | ⟨m, ham, hmn, hm, hunread⟩
    · exact hset
    · exact absurd hunread (hread m n ham hmn hnb hm ⟨hsends, hsecond⟩)

/-! ## Two reports between two reads -/

/-- The host configures the device; a button is pressed, and read again after four packets. -/
def holding : Nat → EliteCall
  | 0 => .bus .connect
  | 1 => .bus .reset
  | 2 => .bus .setAddress
  | 3 => .bus .setConfiguration
  | 5 | 6 | 7 | 8 => .task .ready
  | _ => .read 3 0

theorem heldBetween_holding : HeldBetween holding .button1 4 9 where
  lt := by decide
  first := ⟨rfl, rfl⟩
  last := ⟨rfl, rfl⟩
  between n h₄ h₉ := by
    have hn : n = 5 ∨ n = 6 ∨ n = 7 ∨ n = 8 := by omega
    rcases hn with rfl | rfl | rfl | rfl <;> exact id

/-- Between the reads 4 and 9 two second halves are sent, and no button is read between these. -/
theorem reportedBetween_iff_holding : ¬ReportedBetween powerOn holding .button1 4 9 := by
  rw [reportedBetween_iff powerOn holding .button1 4 9 heldBetween_holding]
  intro hread
  refine hread 6 8 (by decide) (by decide) (by decide) (by decide +kernel) (by decide +kernel) ?_
  intro r h₆ h₈ k
  obtain rfl : r = 7 := by omega
  exact id

/-- A button that is held down is reported released by the second of the two. -/
theorem not_reportedBetween : ¬∀ (calls : Nat → EliteCall) (k : EliteButton) (a b : Nat),
    HeldBetween calls k a b → ReportedBetween powerOn calls k a b := by
  intro h
  have hreleased : ((holding 8).packet (eliteStateAt powerOn holding 8)).map
      (fun pkt => (pkt.second, decodeButton (pkt.data.getD (97 - 64) 0) .button1))
        = some (true, 0) := by decide +kernel
  obtain ⟨pkt, hpacket, hpkt⟩ := Option.map_eq_some_iff.mp hreleased
  rw [Prod.mk.injEq] at hpkt
  have hpressed := h holding .button1 4 9 heldBetween_holding 8 pkt (by decide) (by decide)
    hpacket hpkt.1
  rw [hpkt.2] at hpressed
  exact absurd hpressed (by decide)

end SphereWare
