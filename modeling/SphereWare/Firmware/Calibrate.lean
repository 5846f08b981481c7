import SphereWare.Firmware.Task
import SphereWare.Firmware.Ports

/-!
# Calibration (SphereWare.c)

`Calibrate` finds for each velocity pad the bias code that balances its bridge, takes the threshold
there, and orders the scan by bias code so that the bias changes as little as possible.
-/

namespace SphereWare

open Interrupt Prog

def padsAct (f : Pads → Pads) : Code Unit := act fun s => { s with pads := f s.pads }

/-- `init_val[pad] = v`. -/
def Standby.setInitVal (b : Standby) (pad : Nat) (v : BitVec 16) : Standby :=
  { b with initVal := Function.update b.initVal pad v }

def standbyAct (f : Standby → Standby) : Code Unit :=
  act fun s => { s with standby := f s.standby }

/-- `Delay`. How long it waits depends on the flag it reads and is not modelled. -/
def delay (_pad : Nat) : Code Unit := do
  cli
  let _tr ← read fun s => s.standby.thresholdsRaised
  sei

/-! ## Sorting -/

/-- The two parallel arrays. -/
structure ScanOrder where
  r2rVal : Nat → Nat
  padOrder : Nat → Nat

namespace ScanOrder

/-- Exchanges the elements `j` and `j + 1` if they are out of order. -/
def compareSwap (a : ScanOrder) (j : Nat) : ScanOrder :=
  if a.r2rVal (j + 1) < a.r2rVal j then
    { r2rVal := Function.update (Function.update a.r2rVal j (a.r2rVal (j + 1)))
        (j + 1) (a.r2rVal j)
      padOrder := Function.update (Function.update a.padOrder j (a.padOrder (j + 1)))
        (j + 1) (a.padOrder j) }
  else a

/-- The inner loop: `n` comparisons from the front. -/
def bubble (a : ScanOrder) : Nat → ScanOrder
  | 0 => a
  | n + 1 => (a.bubble n).compareSwap n

/-- The outer loop, from `i = n` down to 1. -/
def sortFrom (a : ScanOrder) : Nat → ScanOrder
  | 0 => a
  | n + 1 => (a.bubble (n + 1)).sortFrom n

/-- `BubbleSort`. -/
def bubbleSort (a : ScanOrder) (arraySize : Nat) : ScanOrder := a.sortFrom (arraySize - 1)

end ScanOrder

def Pads.bubbleSort (p : Pads) (arraySize : Nat) : Pads :=
  let a := (ScanOrder.mk p.r2rVal p.padOrder).bubbleSort arraySize
  { p with r2rVal := a.r2rVal, padOrder := a.padOrder }

theorem Pads.scanOrder_bubbleSort (p : Pads) (arraySize : Nat) :
    ScanOrder.mk (p.bubbleSort arraySize).r2rVal (p.bubbleSort arraySize).padOrder
      = (ScanOrder.mk p.r2rVal p.padOrder).bubbleSort arraySize := rfl

theorem Pads.initValSe_bubbleSort (p : Pads) (arraySize : Nat) :
    (p.bubbleSort arraySize).initValSe = p.initValSe := rfl

theorem Pads.stickyCount_bubbleSort (p : Pads) (arraySize : Nat) :
    (p.bubbleSort arraySize).stickyCount = p.stickyCount := rfl

/-! ## Calibrate -/

/-- `THRESHOLD_UNDER_8` and `THRESHOLD`. -/
def threshold (pad : Nat) : Int := if pad < 8 then 120 else 105

/-- The loop over the bias codes, left at the first one that balances the bridge. -/
def findBias (pad : Nat) : List Nat → Code Unit
  | [] => pure ()
  | i :: rest => do
    r2rWrite i
    delay pad
    let a ← adcRead .diff1X10 .adc4
    let val := i16 (-a)
    if -400 < val then do
      padsAct fun p => { p with r2rVal := Function.update p.r2rVal pad i }
      standbyAct fun b => b.setInitVal pad (BitVec.ofInt 16 (val + threshold pad))
    else findBias pad rest

/-- The first loop of `Calibrate`, for the velocity pads. -/
def calibrateVelocityPad (pad : Nat) : Code Unit := do
  padsAct fun p => { p with r2rVal := Function.update p.r2rVal pad 0 }
  muxSelect pad
  delay pad
  padsAct fun p => { p with filteredVal := Function.update p.filteredVal pad 0 }
  -- the code stays 0 and the threshold what it was if no code balances the bridge
  findBias pad (List.range 64)
  padsAct fun p => { p with padOrder := Function.update p.padOrder pad pad }

/-- The second loop of `Calibrate`, for the single-ended pads. -/
def calibratePressurePad (pad : Nat) : Code Unit := do
  muxSelect pad
  delay pad
  let a ← adcRead .singleEnded .adc4
  padsAct fun p => { p with initValSe := Function.update p.initValSe pad (i16 (a - 40)) }
  padsAct fun p => { p with padOrder := Function.update p.padOrder pad pad }

/-- `memset` on one of the arrays. -/
def zeroed {α : Type} (a : Nat → α) (len : Nat) (z : α) : Nat → α :=
  fun i => if i < len then z else a i

/-- `GenericHID_Clear`. Interrupts may be on, and then a tick may find some of the bytes cleared. -/
def genericHIDClear : Code Unit :=
  forEach (List.range' 1 95) fun j => act fun s => { s with hid := s.hid.fill j 1 0 }

/--
The end of `Calibrate`: nothing is played any more. The handler looks at none of the other arrays
but `being_played`, and of that only whether a pad is played at all. So each of them is zeroed in
one step.
-/
def calibrateReset : Code Unit := do
  genericHIDClear
  padsAct fun p => { p with beingPlayed := zeroed p.beingPlayed numPlayed false }
  padsAct fun p => { p with antiStickyApplied := zeroed p.antiStickyApplied numPads false }
  padsAct fun p => { p with hysterisisApplied := zeroed p.hysterisisApplied numPads false }
  padsAct fun p => { p with velocitySent := zeroed p.velocitySent numPads false }
  padsAct fun p => { p with filteredVal := zeroed p.filteredVal numPads 0 }

/-- `Calibrate`. Returns, for the reader's benefit, the codes found before they are sorted. -/
def calibrate : Code (Nat → Nat) := do
  forEach (List.range 40) calibrateVelocityPad
  forEach (List.range' 40 8) calibratePressurePad
  let codes ← read fun s => s.pads.r2rVal
  -- the handler uses neither array, so the sort is one step
  padsAct fun p => p.bubbleSort 40
  calibrateReset
  pure codes

end SphereWare
