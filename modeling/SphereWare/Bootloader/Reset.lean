import SphereWare.Bootloader.BootloaderHID

/-!
# Resets (BootloaderHID.c, SphereWare.c, makefile)

Every reset starts the bootloader: the fuses of the makefile (`hfuse` 0xD8) put the reset vector and
4 KB into the boot section. The application is started by a reset of the watchdog, for which the
bootloader leaves a key in the RAM.
-/

namespace SphereWare.Bootloader

/-- `MAGIC_BOOT_KEY`. -/
def magicBootKey : BitVec 16 := 0xDC42

/-- What has reset the processor, and what a power-on finds in the RAM at `MagicBootKey`. -/
inductive ResetSource
  | powerOn (ram : BitVec 16)
  | external
  | watchdog
  deriving DecidableEq

inductive Phase
  /-- The loop of `main`, with this many tasks done in the present turn. -/
  | loop (tasks : Nat)
  /-- The last line of `main`, `for (;;);`. -/
  | stopped
  | application
  deriving DecidableEq

structure Chip where
  boot : Boot
  magicBootKey : BitVec 16
  /-- `WDRF` of `MCUSR`. -/
  wdrf : Bool
  /-- The watchdog is enabled. -/
  watchdog : Bool
  phase : Phase

/-- `USB_USBTask`, with the request that has come, if one has. -/
def usbTask (r : Option ControlRequest) (b : Boot) : Boot :=
  match r with
  | none => b
  | some r => eventControlRequest r b

namespace Chip

/-- What follows the loop of `main`. -/
def stop (c : Chip) : Chip :=
  { c with magicBootKey := Bootloader.magicBootKey, watchdog := true, phase := .stopped }

/-- The two loops of 500 tasks in a turn. -/
def tasksPerTurn : Nat := 500 + 500

/-- `main` up to its loop, with the button (PE2) held down or not. -/
def main (c : Chip) (pressed : Bool) : Chip :=
  let c := { c with wdrf := false, watchdog := false }
  if pressed then { c with phase := .loop 0 } else c.stop

/-- `Application_Jump_Check`, and `main` where it does not jump. -/
def applicationJumpCheck (c : Chip) (pressed : Bool) : Chip :=
  if c.wdrf ∧ c.magicBootKey = Bootloader.magicBootKey then
    { c with magicBootKey := 0, phase := .application }
  else c.main pressed

/-- What a reset leaves. A power-on clears `WDRF` and loses the RAM; the watchdog is on after a
reset if `WDRF` is set. -/
def atReset (c : Chip) (source : ResetSource) : Option Chip :=
  let c := { c with boot := Bootloader.reset c.boot.memory.bytes }
  match source with
  | .powerOn ram => some { c with magicBootKey := ram, wdrf := false, watchdog := false }
  | .external => some { c with watchdog := c.wdrf }
  | .watchdog => if c.watchdog then some { c with wdrf := true } else none

def reset (c : Chip) (source : ResetSource) (pressed : Bool) : Chip :=
  match c.atReset source with
  | none => c
  | some c => c.applicationJumpCheck pressed

/-- One task of the loop, and the test of `RunBootloader` at the end of a turn. -/
def task (c : Chip) (r : Option ControlRequest) : Chip :=
  match c.phase with
  | .loop tasks =>
    -- the task in which it waits does not return
    if c.boot.waiting then c
    else
      let c := { c with boot := usbTask r c.boot }
      if c.boot.waiting then c
      else if tasks + 1 < tasksPerTurn then { c with phase := .loop (tasks + 1) }
      else if c.boot.runBootloader then { c with phase := .loop 0 }
      else c.stop
  | .stopped => c
  | .application => c

/-- `SetupHardware` of the firmware. -/
def setupHardware (c : Chip) : Chip :=
  match c.phase with
  | .application => { c with wdrf := false, watchdog := false }
  | .loop _ => c
  | .stopped => c

/-- The firmware has the RAM for itself. -/
def overwrite (c : Chip) (ram : BitVec 16) : Chip :=
  match c.phase with
  | .application => { c with magicBootKey := ram }
  | .loop _ => c
  | .stopped => c

end Chip

inductive Event
  | reset (source : ResetSource) (pressed : Bool)
  | task (r : Option ControlRequest)
  | setupHardware
  | overwrite (ram : BitVec 16)

namespace Chip

def step (c : Chip) : Event → Chip
  | .reset source pressed => c.reset source pressed
  | .task r => c.task r
  | .setupHardware => c.setupHardware
  | .overwrite ram => c.overwrite ram

def run (c : Chip) (es : List Event) : Chip := es.foldl step c

/-- The device when it is switched on, with `bytes` in its flash. -/
def switchedOn (bytes : Nat → UInt8) (ram : BitVec 16) (pressed : Bool) : Chip :=
  { boot := Bootloader.reset bytes
    magicBootKey := ram
    wdrf := false
    watchdog := false
    phase := .stopped : Chip }.applicationJumpCheck pressed

end Chip

end SphereWare.Bootloader
