import SphereWare.Firmware.Scan
import SphereWare.Memory.Access

/-!
# The elite inputs, access by access

`ButtonsAndDials_Read` once more, as a program over the array its argument points to: each store
through the pointer is a step. Where the pointer is into `being_played`, the stores are those of the
function on `EliteView` (`run_buttonsAndDialsAccess`).
-/

namespace SphereWare

open Memory

/-- A program over the array `being_played` of `ButtonsAndDials_Read`. -/
abbrev PlayedAccess (α : Type) : Type := Access Bool α

namespace PlayedAccess

open Access

/-- `Encoder_Read`, with `being_turned` the element `turned`. -/
def encoderRead (elite : Elite) (hid : Hid) (number turned : Nat) (pinD : UInt8) :
    PlayedAccess (Elite × Hid) :=
  let pins := (pinBit pinD 6 <<< (1 : UInt8)) ||| pinBit pinD number
  let state := elite.dialState number
  if pins ≠ state &&& 0b11 then
    let state := (state <<< (2 : UInt8)) ||| pins
    let elite := { elite with dialState := Function.update elite.dialState number state }
    if state &&& 0b111111 = 0b110100 then do
      set turned true
      pure (elite, hid.adjustDial number (-1))
    else if state &&& 0b111111 = 0b111000 then do
      set turned true
      pure (elite, hid.adjustDial number 1)
    else do
      set turned false
      pure (elite, hid)
  else pure (elite, hid)

/-- The three button cases. -/
def buttonRead (elite : Elite) (hid : Hid) (kept bit : UInt8) (played : Nat) (pinD : UInt8) :
    PlayedAccess (Elite × Hid) := do
  let buttons := (elite.buttons &&& kept) ||| (pressed pinD <<< bit)
  set played ((buttons >>> bit) &&& 1 = 1)
  pure ({ elite with buttons := buttons }, hid.writeButtonData buttons)

/-- The `switch` of `ButtonsAndDials_Read`. -/
def eliteInput (elite : Elite) (hid : Hid) (eliteMuxNum : Nat) (pinD : UInt8) :
    PlayedAccess (Elite × Hid) :=
  match eliteMuxNum with
  | 1 => buttonRead elite hid 0b00000111 3 1 pinD
  | 0 => buttonRead elite hid 0b00001011 2 0 pinD
  | 3 => buttonRead elite hid 0b00001101 1 3 pinD
  | 5 => pure ({ elite with buttons := (elite.buttons &&& 0b00001110) ||| pressed pinD },
      hid.writeButtonData 0xFF)
  | 2 => encoderRead elite hid 0 2 pinD
  | 4 => encoderRead elite hid 1 4 pinD
  | _ => pure (elite, hid)

/-- `ButtonsAndDials_Read`. -/
def buttonsAndDialsRead (elite : Elite) (hid : Hid) (pad : Nat) (pinD : UInt8) :
    PlayedAccess (Elite × Hid) := do
  let eliteMuxNum := pad % 8
  let (elite, hid) ← eliteInput elite hid eliteMuxNum pinD
  if elite.buttons &&& 0b1 = 0 then set eliteMuxNum false
  pure (elite, hid)

end PlayedAccess

/-! ## The same function -/

/-- Where the pointer is into `being_played`, the memory at the pointer is what the array holds. -/
def PointsTo (base : Option Nat) (played m : Nat → Bool) : Prop :=
  ∀ n ∈ base, ∀ j, played (n + j) = m j

variable {base : Option Nat} {v : EliteView} {m : Nat → Bool}

theorem PointsTo.store {played : Nat → Bool} (h : PointsTo base played m) (t : Nat) (b : Bool) :
    PointsTo base (storePlayed played (base.map (· + t)) b) (Function.update m t b) := by
  intro n hn j
  obtain rfl := Option.mem_def.mp hn
  show Function.update played (n + t) b (n + j) = Function.update m t b j
  by_cases hj : j = t
  · rw [hj, Function.update_self, Function.update_self]
  · rw [Function.update_of_ne (by omega), Function.update_of_ne hj, h n hn j]

/-- The program returns what the function makes of the statics, and stores what it stores. -/
structure Stores (base : Option Nat) (v : EliteView) (m : Nat → Bool)
    (p : PlayedAccess (Elite × Hid)) : Prop where
  result : (p.run m).1 = (v.elite, v.hid)
  points : PointsTo base v.beingPlayed (p.run m).2

theorem encoderRead_stores (h : PointsTo base v.beingPlayed m) (number turned : Nat)
    (pinD : UInt8) : Stores base (encoderRead v number (base.map (· + turned)) pinD) m
      (PlayedAccess.encoderRead v.elite v.hid number turned pinD) := by
  unfold encoderRead PlayedAccess.encoderRead
  dsimp only
  split
  · split
    · exact ⟨rfl, h.store turned true⟩
    · split
      · exact ⟨rfl, h.store turned true⟩
      · exact ⟨rfl, h.store turned false⟩
  · exact ⟨rfl, h⟩

theorem buttonRead_stores (h : PointsTo base v.beingPlayed m) (kept bit : UInt8) (played : Nat)
    (pinD : UInt8) : Stores base (buttonRead v kept bit (base.map (· + played)) pinD) m
      (PlayedAccess.buttonRead v.elite v.hid kept bit played pinD) :=
  ⟨rfl, h.store played _⟩

theorem eliteInput_stores (h : PointsTo base v.beingPlayed m) (pinD : UInt8) :
    ∀ eliteMuxNum, Stores base (eliteInput v eliteMuxNum (base.map (· + eliteMuxNum)) pinD) m
      (PlayedAccess.eliteInput v.elite v.hid eliteMuxNum pinD)
  | 0 => buttonRead_stores h _ _ 0 pinD
  | 1 => buttonRead_stores h _ _ 1 pinD
  | 2 => encoderRead_stores h 0 2 pinD
  | 3 => buttonRead_stores h _ _ 3 pinD
  | 4 => encoderRead_stores h 1 4 pinD
  | 5 => ⟨rfl, h⟩
  | _ + 6 => ⟨rfl, h⟩

/-- **`ButtonsAndDials_Read` stores what the program stores.** -/
theorem buttonsAndDialsRead_stores (h : PointsTo base v.beingPlayed m) (pad : Nat) (pinD : UInt8) :
    Stores base (buttonsAndDialsRead v pad base pinD) m
      (PlayedAccess.buttonsAndDialsRead v.elite v.hid pad pinD) := by
  have hinput := eliteInput_stores h pinD (pad % 8)
  unfold buttonsAndDialsRead PlayedAccess.buttonsAndDialsRead
  simp only [Access.bind_eq]
  constructor
  · rw [Access.run_bind, hinput.result]
    dsimp only
    split
    · rfl
    · rfl
  · rw [Access.run_bind, hinput.result]
    dsimp only
    split
    · exact hinput.points.store (pad % 8) false
    · exact hinput.points

/-! ## The elements stored to -/

/-- The probe leaves what it has found in bit 0. -/
theorem probe_detection (buttons pinD : UInt8) :
    ((buttons &&& 0b00001110) ||| pressed pinD) &&& 0b1 = pressed pinD := by
  revert buttons
  rcases pressed_eq pinD with hp | hp <;> rw [hp] <;> refine forall_byte ?_ <;> decide +kernel

namespace PlayedAccess

variable (elite : Elite) (hid : Hid) (m : Nat → Bool) (pinD : UInt8)

theorem indices_encoderRead (number turned : Nat) :
    ∀ i ∈ (encoderRead elite hid number turned pinD).indices m, i = turned := by
  unfold encoderRead
  dsimp only
  split
  · split
    · exact fun i hi => List.mem_singleton.mp hi
    · split
      · exact fun i hi => List.mem_singleton.mp hi
      · exact fun i hi => List.mem_singleton.mp hi
  · exact fun i hi => nomatch hi

/-- An input stores to its own element. -/
theorem indices_eliteInput :
    ∀ eliteMuxNum, ∀ i ∈ (eliteInput elite hid eliteMuxNum pinD).indices m, i = eliteMuxNum
  | 0 => fun _ hi => List.mem_singleton.mp hi
  | 1 => fun _ hi => List.mem_singleton.mp hi
  | 2 => indices_encoderRead elite hid m pinD 0 2
  | 3 => fun _ hi => List.mem_singleton.mp hi
  | 4 => indices_encoderRead elite hid m pinD 1 4
  | 5 => fun _ hi => nomatch hi
  | _ + 6 => fun _ hi => nomatch hi

theorem indices_buttonsAndDialsRead (pad : Nat) :
    ∀ i ∈ (buttonsAndDialsRead elite hid pad pinD).indices m, i = pad % 8 := by
  intro i hi
  unfold buttonsAndDialsRead at hi
  rw [Access.bind_eq, Access.indices_bind, List.mem_append] at hi
  rcases hi with hinput | hlast
  · exact indices_eliteInput elite hid m pinD (pad % 8) i hinput
  · revert hlast
    dsimp only
    split
    · exact fun hlast => List.mem_singleton.mp hlast
    · exact fun hlast => nomatch hlast

/-- The probe stores exactly if it finds no elite unit. -/
theorem indices_probe : (buttonsAndDialsRead elite hid 5 pinD).indices m
    = if pressed pinD = 0 then [5] else [] := by
  rw [← probe_detection elite.buttons pinD]
  show Access.indices (if ((elite.buttons &&& 0b00001110) ||| pressed pinD) &&& 0b1 = 0
    then Access.store 5 false (Access.ret _) else Access.ret _) m = _
  split
  · rfl
  · rfl

end PlayedAccess

end SphereWare
