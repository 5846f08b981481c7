import SphereWare.Calls.History
import SphereWare.Properties.Buttons
import SphereWare.Spec.EliteAccess

/-!
# The slots of the elite inputs

At start-up `ButtonsAndDials_Read` is called once with a null pointer, to find out whether there is
an elite unit at all. What it finds stays in bit 0 of `buttons`. If there is none, the function
ends with a store through the pointer, the null pointer included.
-/

namespace SphereWare

/-! ## Runs -/

/-- A read of one of the five elite inputs, with the pins it sees. -/
structure EliteRead where
  eliteMuxNum : Fin 5
  pinD : UInt8

namespace EliteRead

/-- The call main makes of it. -/
def step (v : EliteView) (r : EliteRead) : EliteView :=
  buttonsAndDialsRead v r.eliteMuxNum (some numPads) r.pinD

/-- The state after the reads. -/
def run (v : EliteView) (reads : List EliteRead) : EliteView := reads.foldl step v

/-- The level of the switch at the last read of it; a switch that is not read yet counts as open. -/
def latest (k : EliteButton) (reads : List EliteRead) : UInt8 :=
  ((reads.filter fun r => r.eliteMuxNum = k.mux).getLast?.map fun r => pressed r.pinD).getD 0

end EliteRead

open EliteRead

/-- The state main starts in, with any report. -/
def beforeProbe (hid : Hid) : EliteView := ⟨powerOn.elite, hid, powerOn.pads.beingPlayed⟩

/-- The state after the probe. -/
def probed (hid : Hid) (pinD : UInt8) : EliteView :=
  buttonsAndDialsRead (beforeProbe hid) 5 none pinD

/-- The elements of `being_played` a call stores to, with `none` for what is outside any array. -/
def storeTargets (v : EliteView) (pad : Nat) (base : Option Nat) (pinD : UInt8) :
    List (Option Nat) :=
  ((PlayedAccess.buttonsAndDialsRead v.elite v.hid pad pinD).indices
    fun j => v.beingPlayed (base.getD 0 + j)).map fun i => base.map (· + i)

/-- The elements of the five elite inputs. -/
def EliteSlot (n : Nat) : Prop := 48 ≤ n ∧ n ≤ 52

/-- Every store is to an element of an elite input. -/
def StaysInSlots (v : EliteView) (pad : Nat) (base : Option Nat) (pinD : UInt8) : Prop :=
  ∀ target ∈ storeTargets v pad base pinD, ∃ n ∈ target, EliteSlot n

/-- What is to hold of the state after the probe and some reads. -/
structure EliteHolds (pinD₀ : UInt8) (reads : List EliteRead) (v : EliteView) : Prop where
  detection : v.elite.buttons &&& 1 = pressed pinD₀
  switches : ∀ k : EliteButton, decodeButton v.elite.buttons k = latest k reads
  idle : pressed pinD₀ = 0 → ∀ n, EliteSlot n → v.beingPlayed n = false

/-- What is to hold of the run that begins with the probe and goes on with the reads. -/
structure EliteRight (hid : Hid) (pinD₀ : UInt8) (reads : List EliteRead) : Prop where
  probe : StaysInSlots (beforeProbe hid) 5 none pinD₀
  slots : ∀ l r, l ++ [r] <+: reads →
    StaysInSlots (run (probed hid pinD₀) l) r.eliteMuxNum (some numPads) r.pinD
  holds : ∀ l, l <+: reads → EliteHolds pinD₀ l (run (probed hid pinD₀) l)

/-! ## Stores -/

theorem staysInSlots_read (v : EliteView) (r : EliteRead) :
    StaysInSlots v r.eliteMuxNum (some numPads) r.pinD := by
  intro target htarget
  obtain ⟨i, hi, rfl⟩ := List.mem_map.mp htarget
  obtain rfl := PlayedAccess.indices_buttonsAndDialsRead _ _ _ _ _ i hi
  refine ⟨numPads + r.eliteMuxNum % 8, rfl, ?_⟩
  show 48 ≤ 48 + r.eliteMuxNum.val % 8 ∧ 48 + r.eliteMuxNum.val % 8 ≤ 52
  omega

/-- The probe stores through the null pointer if there is no elite unit. -/
theorem staysInSlots_probe_iff (v : EliteView) (pinD : UInt8) :
    StaysInSlots v 5 none pinD ↔ pressed pinD = 1 := by
  unfold StaysInSlots storeTargets
  rw [PlayedAccess.indices_probe]
  rcases pressed_eq pinD with h | h
  · simp [h]
  · simp [h]

/-! ## Buttons -/

theorem EliteButton.update_detection (k : EliteButton) (buttons pinD : UInt8) :
    k.update buttons pinD &&& 1 = buttons &&& 1 := by
  unfold EliteButton.update
  revert buttons
  rcases pressed_eq pinD with hp | hp <;> rw [hp] <;> refine forall_byte ?_ <;> cases k <;>
    decide +kernel

/-- A read is one of a button, or it leaves `buttons`. -/
theorem step_buttons (v : EliteView) (r : EliteRead) :
    (∃ k : EliteButton, r.eliteMuxNum = k.mux ∧
      (step v r).elite.buttons = k.update v.elite.buttons r.pinD) ∨
    ((∀ k : EliteButton, r.eliteMuxNum ≠ k.mux) ∧
      (step v r).elite.buttons = v.elite.buttons) := by
  obtain ⟨n, pinD⟩ := r
  have helite := (buttonsAndDialsRead_elite v n (some numPads) pinD).1
  rw [Nat.mod_eq_of_lt (show (n : Nat) < 8 by omega)] at helite
  by_cases hbutton : ∃ k : EliteButton, n = k.mux
  · obtain ⟨k, rfl⟩ := hbutton
    rw [eliteInput_mux] at helite
    exact Or.inl ⟨k, rfl, congrArg Elite.buttons helite⟩
  · have hne (k : EliteButton) : n ≠ k.mux := fun h => hbutton ⟨k, h⟩
    have hencoder : ∀ n : Fin 5, n ≠ 0 → n ≠ 1 → n ≠ 3 → n = 2 ∨ n = 4 := by decide
    refine Or.inr ⟨hne, (congrArg Elite.buttons helite).trans ?_⟩
    rcases hencoder n (hne .button2) (hne .button3) (hne .button1) with rfl | rfl
    · exact (encoderRead_buttons v 0 _ pinD (by decide)).1
    · exact (encoderRead_buttons v 1 _ pinD (by decide)).1

theorem EliteButton.mux_injective {j k : EliteButton} (h : j.mux = k.mux) : j = k := by
  cases j <;> cases k <;> first | rfl | exact absurd h (by decide)

theorem latest_concat (k : EliteButton) (reads : List EliteRead) (r : EliteRead) :
    latest k (reads ++ [r]) = if r.eliteMuxNum = k.mux then pressed r.pinD else latest k reads := by
  unfold latest
  rw [List.filter_append]
  by_cases h : r.eliteMuxNum = k.mux
  · simp [h]
  · simp [h]

/-! ## Elements -/

section

variable (v : EliteView) {slot : Option Nat} {n : Nat}

theorem storePlayed_of_ne (a : Nat → Bool) (hn : slot ≠ some n) (b : Bool) :
    storePlayed a slot b n = a n := by
  cases slot with
  | none => rfl
  | some m => exact Function.update_of_ne (fun h => hn (congrArg some h.symm)) b a

theorem encoderRead_beingPlayed (hn : slot ≠ some n) (number : Nat) (pinD : UInt8) :
    (encoderRead v number slot pinD).beingPlayed n = v.beingPlayed n := by
  unfold encoderRead
  dsimp only
  split
  · split
    · exact storePlayed_of_ne _ hn true
    · split
      · exact storePlayed_of_ne _ hn true
      · exact storePlayed_of_ne _ hn false
  · rfl

/-- An input stores to its own element only. -/
theorem eliteInput_beingPlayed (hn : slot ≠ some n) (pinD : UInt8) :
    ∀ eliteMuxNum, (eliteInput v eliteMuxNum slot pinD).beingPlayed n = v.beingPlayed n
  | 0 => storePlayed_of_ne _ hn _
  | 1 => storePlayed_of_ne _ hn _
  | 2 => encoderRead_beingPlayed v hn 0 pinD
  | 3 => storePlayed_of_ne _ hn _
  | 4 => encoderRead_beingPlayed v hn 1 pinD
  | 5 => rfl
  | _ + 6 => rfl

end

/-- Where there is no elite unit, a read leaves its element false. -/
theorem step_idle {v : EliteView} {r : EliteRead} (hdetection : (step v r).elite.buttons &&& 1 = 0)
    (hidle : ∀ n, EliteSlot n → v.beingPlayed n = false) :
    ∀ n, EliteSlot n → (step v r).beingPlayed n = false := by
  intro n hn
  have helite := (buttonsAndDialsRead_elite v r.eliteMuxNum (some numPads) r.pinD).1
  unfold step at hdetection ⊢
  rw [helite] at hdetection
  unfold buttonsAndDialsRead
  dsimp only
  rw [if_pos hdetection]
  by_cases hslot : numPads + r.eliteMuxNum.val % 8 = n
  · rw [← hslot]
    exact Function.update_self _ _ _
  · have hne : (some numPads).map (· + r.eliteMuxNum.val % 8) ≠ some n :=
      fun h => hslot (Option.some.inj h)
    exact (storePlayed_of_ne _ hne false).trans
      ((eliteInput_beingPlayed v hne r.pinD _).trans (hidle n hn))

/-! ## The run -/

theorem probed_holds (hid : Hid) (pinD₀ : UInt8) : EliteHolds pinD₀ [] (probed hid pinD₀) := by
  have helite := (buttonsAndDialsRead_elite (beforeProbe hid) 5 none pinD₀).1
  have hbuttons : (probed hid pinD₀).elite.buttons = (0 &&& 0b00001110) ||| pressed pinD₀ :=
    congrArg Elite.buttons helite
  have hplayed : (probed hid pinD₀).beingPlayed = fun _ => false := by
    unfold probed buttonsAndDialsRead
    dsimp only
    split
    · rfl
    · rfl
  refine ⟨?_, fun k => ?_, fun _ n _ => congrFun hplayed n⟩
  · rw [hbuttons]
    exact probe_detection 0 pinD₀
  · rw [hbuttons]
    rcases pressed_eq pinD₀ with h | h <;> rw [h] <;> cases k <;> rfl

/-- One read. -/
theorem EliteHolds.step {pinD₀ : UInt8} {reads : List EliteRead} {v : EliteView}
    (h : EliteHolds pinD₀ reads v) (r : EliteRead) :
    EliteHolds pinD₀ (reads ++ [r]) (r.step v) := by
  have hdetection : (EliteRead.step v r).elite.buttons &&& 1 = pressed pinD₀ := by
    rcases step_buttons v r with ⟨k, -, hbuttons⟩ | ⟨-, hbuttons⟩
    · rw [hbuttons, k.update_detection, h.detection]
    · rw [hbuttons, h.detection]
  refine ⟨hdetection, fun k => ?_, fun hnone => ?_⟩
  · rw [latest_concat]
    rcases step_buttons v r with ⟨j, hj, hbuttons⟩ | ⟨hne, hbuttons⟩
    · rw [hbuttons]
      by_cases hjk : j = k
      · rw [hjk, decodeButton_update_self, if_pos (hj.trans (congrArg _ hjk))]
      · rw [decodeButton_update_of_ne hjk, h.switches k,
          if_neg fun hk => hjk (EliteButton.mux_injective (hj.symm.trans hk))]
    · rw [hbuttons, h.switches k, if_neg (hne k)]
  · exact step_idle (hdetection.trans hnone) (h.idle hnone)

/-- All reads. -/
theorem run_holds (hid : Hid) (pinD₀ : UInt8) (reads : List EliteRead) :
    EliteHolds pinD₀ reads (run (probed hid pinD₀) reads) := by
  refine Calls.history (probed_holds hid pinD₀) ?_ reads
  intro l v r h
  exact h.step r

/--
**When elite detection is stable and elite reads stay in their slots.** In every run: exactly if the
probe finds an elite unit, that is the pin is low.
-/
theorem eliteRight_iff (hid : Hid) (pinD₀ : UInt8) (reads : List EliteRead) :
    EliteRight hid pinD₀ reads ↔ pinBit pinD₀ 6 = 0 := by
  have hpressed : pressed pinD₀ = 1 ↔ pinBit pinD₀ 6 = 0 := by
    unfold pressed
    split
    · next h => exact ⟨fun _ => h, fun _ => rfl⟩
    · next h => exact ⟨fun hone => absurd hone (by decide), fun hzero => absurd hzero h⟩
  rw [← hpressed, ← staysInSlots_probe_iff (beforeProbe hid)]
  constructor
  · intro h
    exact h.probe
  · intro h
    exact ⟨h, fun l r _ => staysInSlots_read _ r, fun l _ => run_holds hid pinD₀ l⟩

/-- On a unit that is no elite one, the probe stores through the null pointer. -/
theorem not_eliteRight : ¬∀ (hid : Hid) (pinD₀ : UInt8) (reads : List EliteRead),
    EliteRight hid pinD₀ reads := by
  intro h
  have hprobe := (h powerOn.hid 0x40 []).probe
  exact absurd ((staysInSlots_probe_iff _ _).mp hprobe) (by decide)

end SphereWare
