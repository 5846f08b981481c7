import SphereWare.Quadrature.Detent
import SphereWare.Firmware.Scan

/-!
# The encoders

`Encoder_Read` recognises two sequences of three pin states: from the detent half a step on, and
half a step back. It is the counter of a wheel with detents. The way back to a detent is not
recognised, so a half step that is taken back stays counted.
-/

namespace SphereWare

open Quadrature

/-! ## Pins -/

/-- The pin states of encoder `number`. -/
def encoderPins (number : Fin 2) (pinD : UInt8) : UInt8 :=
  (pinBit pinD 6 <<< (1 : UInt8)) ||| pinBit pinD number

/-- The pin states a quarter step before and a quarter step after. -/
def stepOn (pins : UInt8) : UInt8 :=
  if pins = 0b11 then 0b10 else if pins = 0b10 then 0b00 else if pins = 0b00 then 0b01 else 0b11

/-- The quarter steps between two pin states, forward meaning 11, 10, 00, 01, 11. -/
def quarterStep (a b : UInt8) : Int :=
  if stepOn a = b then 1 else if stepOn b = a then -1 else 0

/-- The two pin states differ in at most one bit. -/
def NoMissedEdge (a b : UInt8) : Prop := a ^^^ b ≠ 0b11

instance (a b : UInt8) : Decidable (NoMissedEdge a b) := inferInstanceAs (Decidable (_ ≠ _))

/-- The net quarter steps of a path that begins in the pin state `a`. -/
def quarterSteps (a : UInt8) : List UInt8 → Int
  | [] => 0
  | b :: path => quarterStep a b + quarterSteps b path

/-- The wheel after the path. -/
def wheelAfter (w : Wheel) (a : UInt8) : List UInt8 → Wheel
  | [] => w
  | b :: path => wheelAfter (w.move (quarterStep a b)) b path

/-! ## Adjustments -/

/-- By how much a call of `Encoder_Read` adjusts the dial. -/
def adjustment (v : EliteView) (number : Fin 2) (slot : Option Nat) (pinD : UInt8) : Int :=
  decodeDial ((encoderRead v number slot pinD).hid.buffer (98 + number)
    - v.hid.buffer (98 + number))

/-- The sum of the adjustments of the calls that see the port values in turn. -/
def reported (v : EliteView) (number : Fin 2) (slot : Option Nat) : List UInt8 → Int
  | [] => 0
  | pinD :: samples =>
    adjustment v number slot pinD + reported (encoderRead v number slot pinD) number slot samples

/-- The amount `Encoder_Read` passes to `GenericHID_Adjust_Dial`, if it calls it. -/
def encoderStep (state pins : UInt8) : UInt8 × Int :=
  if pins ≠ state &&& 0b11 then
    let state := (state <<< (2 : UInt8)) ||| pins
    (state, if state &&& 0b111111 = 0b110100 then -1 else if state &&& 0b111111 = 0b111000 then 1
      else 0)
  else (state, 0)

theorem encoderRead_eq (v : EliteView) (number : Fin 2) (slot : Option Nat) (pinD : UInt8) :
    (encoderRead v number slot pinD).elite.dialState number
        = (encoderStep (v.elite.dialState number) (encoderPins number pinD)).1 ∧
      adjustment v number slot pinD
        = (encoderStep (v.elite.dialState number) (encoderPins number pinD)).2 := by
  have hadd (a b : UInt8) : a + b - a = b := by rw [UInt8.add_comm]; exact UInt8.add_sub_cancel b a
  unfold adjustment encoderRead encoderStep encoderPins
  dsimp only
  split
  · split
    · refine ⟨by simp, ?_⟩
      simp [Hid.adjustDial, hadd]
      rfl
    · split
      · refine ⟨by simp, ?_⟩
        simp [Hid.adjustDial, hadd]
        rfl
      · refine ⟨by simp, by simp; rfl⟩
  · refine ⟨by simp, by simp; rfl⟩

/-! ## The last three states -/

/-- The pin state at a position of the wheel. -/
def pinsAt (p : Int) : UInt8 :=
  if p % 4 = 0 then 0b11 else if p % 4 = 1 then 0b10 else if p % 4 = 2 then 0b00 else 0b01

theorem pinsAt_eq_iff (p : Int) : (pinsAt p = 0b11 ↔ p % 4 = 0) ∧ (pinsAt p = 0b10 ↔ p % 4 = 1) ∧
    (pinsAt p = 0b00 ↔ p % 4 = 2) ∧ (pinsAt p = 0b01 ↔ p % 4 = 3) := by
  have hmod : p % 4 = 0 ∨ p % 4 = 1 ∨ p % 4 = 2 ∨ p % 4 = 3 := by omega
  unfold pinsAt
  rcases hmod with h | h | h | h <;> rw [h] <;> decide

theorem pinsAt_inj {p q : Int} : pinsAt p = pinsAt q ↔ p % 4 = q % 4 := by
  constructor
  · intro h
    obtain ⟨h₀, h₁, h₂, h₃⟩ := pinsAt_eq_iff p
    obtain ⟨k₀, k₁, k₂, k₃⟩ := pinsAt_eq_iff q
    rw [h] at h₀ h₁ h₂ h₃
    have e₀ := h₀.symm.trans k₀
    have e₁ := h₁.symm.trans k₁
    have e₂ := h₂.symm.trans k₂
    omega
  · intro h
    unfold pinsAt
    rw [h]

/-- Two bits. -/
def PinState (b : UInt8) : Prop := b = 0b11 ∨ b = 0b10 ∨ b = 0b00 ∨ b = 0b01

instance : DecidablePred PinState := fun _ => inferInstanceAs (Decidable (_ ∨ _))

theorem pinsAt_cases (p : Int) : PinState (pinsAt p) := by
  obtain ⟨h₀, h₁, h₂, h₃⟩ := pinsAt_eq_iff p
  rw [PinState, h₀, h₁, h₂, h₃]
  omega

/-- Pin states are two bits. -/
theorem encoderPins_cases (number : Fin 2) (pinD : UInt8) : PinState (encoderPins number pinD) := by
  unfold encoderPins
  revert pinD
  refine forall_byte ?_
  match number with
  | 0 => decide +kernel
  | 1 => decide +kernel

theorem stepOn_pinsAt (p : Int) : stepOn (pinsAt p) = pinsAt (p + 1) := by
  have hmod : p % 4 = 0 ∨ p % 4 = 1 ∨ p % 4 = 2 ∨ p % 4 = 3 := by omega
  obtain ⟨h₀, h₁, h₂, h₃⟩ := pinsAt_eq_iff p
  obtain ⟨k₀, k₁, k₂, k₃⟩ := pinsAt_eq_iff (p + 1)
  rcases hmod with h | h | h | h
  · rw [h₀.mpr h, k₁.mpr (by omega)]
    rfl
  · rw [h₁.mpr h, k₂.mpr (by omega)]
    rfl
  · rw [h₂.mpr h, k₃.mpr (by omega)]
    rfl
  · rw [h₃.mpr h, k₀.mpr (by omega)]
    rfl

theorem stepOn_injective {a b : UInt8} (ha : PinState a) (hb : PinState b)
    (h : stepOn a = stepOn b) : a = b := by
  rcases ha with rfl | rfl | rfl | rfl <;> rcases hb with rfl | rfl | rfl | rfl <;> revert h <;>
    decide

/-- Two neighbouring pin states are the same or a quarter step apart. -/
theorem eq_of_noMissedEdge {a b : UInt8} (ha : PinState a) (hb : PinState b)
    (hedge : NoMissedEdge a b) (hon : stepOn a ≠ b) (hback : stepOn b ≠ a) : a = b := by
  rcases ha with rfl | rfl | rfl | rfl <;> rcases hb with rfl | rfl | rfl | rfl <;>
    revert hedge hon hback <;> decide

/-- Without a missed edge the next pin state is that of a neighbouring position. -/
theorem pinsAt_quarterStep {p : Int} {b : UInt8} (hb : PinState b)
    (hedge : NoMissedEdge (pinsAt p) b) :
    pinsAt (p + quarterStep (pinsAt p) b) = b ∧
      (quarterStep (pinsAt p) b = 0 ∨ quarterStep (pinsAt p) b = 1 ∨
        quarterStep (pinsAt p) b = -1) := by
  unfold quarterStep
  split
  · next hon => exact ⟨by rw [← stepOn_pinsAt, hon], Or.inr (Or.inl rfl)⟩
  · next hon =>
    split
    · next hback =>
      refine ⟨stepOn_injective (pinsAt_cases _) hb ?_, Or.inr (Or.inr rfl)⟩
      rw [stepOn_pinsAt, hback, neg_add_cancel_right]
    · next hback =>
      refine ⟨?_, Or.inl rfl⟩
      rw [add_zero]
      exact eq_of_noMissedEdge (pinsAt_cases p) hb hedge hon hback

/-! ## The counter -/

/-- The last two states after a call, and what it counts, by the last two states before it. -/
theorem encoderStep_spec (state : UInt8) {b : UInt8} (hb : PinState b) :
    (encoderStep state b).1 &&& 0b11 = b ∧
      ((encoderStep state b).1 >>> (2 : UInt8)) &&& 0b11
        = (if b = state &&& 0b11 then (state >>> (2 : UInt8)) &&& 0b11 else state &&& 0b11) ∧
      (encoderStep state b).2 =
        if (state >>> (2 : UInt8)) &&& 0b11 = 0b11 ∧ b = 0b00 then
          if state &&& 0b11 = 0b10 then 1 else if state &&& 0b11 = 0b01 then -1 else 0
        else 0 := by
  revert state
  refine forall_byte ?_
  rcases hb with rfl | rfl | rfl | rfl <;> decide +kernel

/-- The encoder's history and the wheel agree on the last pin states. -/
structure Follows (state : UInt8) (w : Wheel) : Prop where
  sound : w.Sound
  last : state &&& 0b11 = pinsAt w.pos
  /-- Between two even positions, the state before is that of the even one left last. -/
  before : w.pos % 2 ≠ 0 → (state >>> (2 : UInt8)) &&& 0b11 = pinsAt w.even

/-- **A call of `Encoder_Read` counts the click of the wheel.** -/
theorem Follows.step {state b : UInt8} {w : Wheel} (h : Follows state w) (hb : PinState b)
    (hedge : NoMissedEdge (pinsAt w.pos) b) :
    Follows (encoderStep state b).1 (w.move (quarterStep (pinsAt w.pos) b)) ∧
      (w.move (quarterStep (pinsAt w.pos) b)).clicks = w.clicks + (encoderStep state b).2 := by
  obtain ⟨hnext, hd⟩ := pinsAt_quarterStep hb hedge
  obtain ⟨hlast, hbefore, hcount⟩ := encoderStep_spec state hb
  obtain ⟨hdetent, heven, hnear, -⟩ := h.sound
  generalize quarterStep (pinsAt w.pos) b = d at hnext hd ⊢
  have hmoved : b = state &&& 0b11 ↔ d = 0 := by
    rw [h.last, ← hnext, pinsAt_inj]
    omega
  refine ⟨⟨h.sound.move hd, ?_, fun hodd => ?_⟩, ?_⟩
  · rw [hlast, w.pos_move, hnext]
  · rw [w.pos_move] at hodd
    rw [hbefore, w.even_move, if_neg hodd]
    split
    · next heq => exact h.before (by rw [hmoved] at heq; omega)
    · next hne =>
      have hpos : w.pos = w.even := by rw [hmoved] at hne; omega
      rw [h.last, hpos]
  · rw [h.sound.clicks_move hd, hcount]
    congr 1
    have hb₀ : b = 0b00 ↔ (w.pos + d) % 4 = 2 := by rw [← hnext, (pinsAt_eq_iff _).2.2.1]
    have h₁ : state &&& 0b11 = 0b10 ↔ w.pos % 4 = 1 := by rw [h.last, (pinsAt_eq_iff _).2.1]
    have h₃ : state &&& 0b11 = 0b01 ↔ w.pos % 4 = 3 := by rw [h.last, (pinsAt_eq_iff _).2.2.2]
    simp only [hb₀, h₁, h₃]
    by_cases hodd : w.pos % 2 ≠ 0
    · simp only [h.before hodd, (pinsAt_eq_iff _).1]
      split_ifs <;> omega
    -- from an even position no step counts
    · split_ifs <;> omega

/-! ## Paths -/

/-- The sum of what the calls on a path count is what the wheel counts. -/
theorem reported_eq (v : EliteView) (number : Fin 2) (slot : Option Nat) (samples : List UInt8)
    {w : Wheel} (h : Follows (v.elite.dialState number) w)
    (hpath : (pinsAt w.pos :: samples.map (encoderPins number)).IsChain NoMissedEdge) :
    (wheelAfter w (pinsAt w.pos) (samples.map (encoderPins number))).Sound ∧
      (wheelAfter w (pinsAt w.pos) (samples.map (encoderPins number))).pos
        = w.pos + quarterSteps (pinsAt w.pos) (samples.map (encoderPins number)) ∧
      (wheelAfter w (pinsAt w.pos) (samples.map (encoderPins number))).clicks
        = w.clicks + reported v number slot samples := by
  induction samples generalizing v w with
  | nil => exact ⟨h.sound, (add_zero _).symm, (add_zero _).symm⟩
  | cons pinD samples ih =>
    obtain ⟨hedge, hrest⟩ := List.isChain_cons_cons.mp hpath
    obtain ⟨hstate, hadjust⟩ := encoderRead_eq v number slot pinD
    obtain ⟨hfollows, hclicks⟩ := h.step (encoderPins_cases number pinD) hedge
    have hpins : pinsAt (w.move (quarterStep (pinsAt w.pos) (encoderPins number pinD))).pos
        = encoderPins number pinD := by
      rw [w.pos_move, (pinsAt_quarterStep (encoderPins_cases number pinD) hedge).1]
    rw [← hstate] at hfollows
    rw [← hadjust] at hclicks
    have hind := ih (encoderRead v number slot pinD) hfollows (by rw [hpins]; exact hrest)
    rw [hpins, hclicks, w.pos_move] at hind
    obtain ⟨hsound, hpos, hclicks⟩ := hind
    exact ⟨hsound, hpos.trans (add_assoc _ _ _), hclicks.trans (add_assoc _ _ _)⟩

/-- The half steps of a path from the detent that are taken back, forward minus backward. -/
def takenBack (path : List UInt8) : Int := (wheelAfter .rest 0b11 path).takenBack

/--
**The reported motion tracks the rotation up to the half steps taken back.** These are reported
as full steps; beyond them, what is reported is off by less than one.
-/
theorem reported_near (v : EliteView) (number : Fin 2) (slot : Option Nat) (first : UInt8)
    (samples : List UInt8) (hrest : encoderPins number first = 0b11)
    (hpath : ((first :: samples).map (encoderPins number)).IsChain NoMissedEdge) :
    |4 * (reported v number slot (first :: samples)
          - takenBack (samples.map (encoderPins number)))
        - quarterSteps 0b11 (samples.map (encoderPins number))| ≤ 3 ∧
      (quarterSteps 0b11 (samples.map (encoderPins number)) = 0 →
        reported v number slot (first :: samples)
          = takenBack (samples.map (encoderPins number))) := by
  obtain ⟨hstate, hadjust⟩ := encoderRead_eq v number slot first
  obtain ⟨hlast, -, hcount⟩ := encoderStep_spec (v.elite.dialState number)
    (encoderPins_cases number first)
  rw [hrest] at hstate hadjust hlast hcount
  rw [← hstate] at hlast
  rw [← hadjust, if_neg fun hclick => absurd hclick.2 (by decide)] at hcount
  -- the history before the first sample plays no part: a click begins at the detent
  have hfollows : Follows ((encoderRead v number slot first).elite.dialState number) Wheel.rest :=
    ⟨Wheel.sound_rest, hlast, fun hodd => absurd rfl hodd⟩
  rw [List.map_cons, hrest] at hpath
  obtain ⟨hsound, hpos, hclicks⟩ := reported_eq _ number slot samples hfollows hpath
  have hreported : reported v number slot (first :: samples)
      = (wheelAfter .rest 0b11 (samples.map (encoderPins number))).clicks := by
    rw [reported, hcount]
    exact hclicks.symm
  have hnet : (wheelAfter .rest 0b11 (samples.map (encoderPins number))).pos
      = quarterSteps 0b11 (samples.map (encoderPins number)) := hpos.trans (zero_add _)
  rw [hreported, ← hnet]
  exact ⟨hsound.clicks_near, hsound.clicks_of_pos_eq⟩

/-! ## Dithering -/

/-- What the first call of `Encoder_Read` finds. -/
def firstView : EliteView := ⟨powerOn.elite, powerOn.hid, powerOn.pads.beingPlayed⟩

/-- The first encoder goes half a step on and back again, twice. -/
def dithering : List UInt8 := [0x40, 0x00, 0x40, 0x41, 0x40, 0x00, 0x40, 0x41]

/-- The path ends where it began, and two steps are reported: the two that were taken back. -/
theorem reported_near_dithering :
    takenBack (dithering.map (encoderPins 0)) = 2 ∧
      quarterSteps 0b11 (dithering.map (encoderPins 0)) = 0 ∧
      reported firstView 0 none (0x41 :: dithering) = takenBack (dithering.map (encoderPins 0)) :=
  ⟨by decide +kernel, by decide +kernel,
    (reported_near firstView 0 none 0x41 dithering (by decide +kernel) (by decide +kernel)).2
      (by decide +kernel)⟩

/-- Dithering adds up: the bound of one step does not hold. -/
theorem not_reported_within_one : ¬∀ (number : Fin 2) (slot : Option Nat) (first : UInt8)
    (samples : List UInt8), encoderPins number first = 0b11 →
      ((first :: samples).map (encoderPins number)).IsChain NoMissedEdge →
      |4 * reported firstView number slot (first :: samples)
        - quarterSteps 0b11 (samples.map (encoderPins number))| ≤ 4 := by
  intro h
  have hbound := h 0 none 0x41 dithering (by decide +kernel) (by decide +kernel)
  have htwo : 4 * reported firstView 0 none (0x41 :: dithering)
      - quarterSteps 0b11 (dithering.map (encoderPins 0)) = 8 := by decide +kernel
  rw [htwo] at hbound
  exact absurd hbound (by decide)

end SphereWare
