import SphereWare.Flash.Pages

/-!
# The bootloader (BootloaderHID.c, makefile)

The host programs the flash with HID SetReport requests. The first two bytes of a report are the
address of a page, the others its 64 words. The data come in packets of the control endpoint, which
are read word by word.
-/

namespace SphereWare.Bootloader

open Flash

/-! ## Memory layout -/

/-- `FLASH_SIZE_KB` and `BOOT_SECTION_SIZE_KB`. -/
def flashSizeKb : Nat := 32

def bootSectionSizeKb : Nat := 4

/-- `BOOT_START_OFFSET`. -/
def bootStartOffset : Nat := (flashSizeKb - bootSectionSizeKb) * 1024

/-- `SPM_PAGESIZE`. -/
def spmPagesize : Nat := 128

/-- The flash of the processor. -/
def flash : Geometry where
  pageSize := spmPagesize
  numPages := flashSizeKb * 1024 / spmPagesize
  pageSize_pos := by decide
  numPages_pos := by decide

/-! ## The control endpoint -/

/-- A control request with the packets of its data stage. -/
structure ControlRequest where
  bmRequestType : UInt8
  bRequest : UInt8
  packets : List (List UInt8)
  /-- What a read of an empty bank gives. -/
  emptyBank : UInt8

/-- The packet in the bank, and those that are still to come. -/
structure DataStage where
  bank : List UInt8
  later : List (List UInt8)

/-- Waits for the next packet. -/
def DataStage.next (d : DataStage) : Option DataStage :=
  match d.later with
  | [] => none
  | packet :: later => some ⟨packet, later⟩

/-- `Endpoint_Read_16_LE`. -/
def DataStage.read16 (d : DataStage) (emptyBank : UInt8) : BitVec 16 × DataStage :=
  let low := d.bank.getD 0 emptyBank
  let high := d.bank.getD 1 emptyBank
  (BitVec.ofNat 16 (low.toNat + 256 * high.toNat), { d with bank := d.bank.drop 2 })

/-! ## The bootloader -/

/-- `COMMAND_STARTAPPLICATION`. -/
def commandStartApplication : BitVec 16 := 0xFFFF

structure Boot where
  runBootloader : Bool
  memory : Memory
  /-- It waits for a packet that does not come. -/
  waiting : Bool

/-- The loop that fills the page buffer, with the words in `pageWords` still to come. -/
def fillPage (pageAddress : BitVec 16) (emptyBank : UInt8) :
    List Nat → DataStage → Memory → Memory × Option DataStage
  | [], d, m => (m, some d)
  | pageWord :: pageWords, d, m =>
    match if d.bank = [] then d.next else some d with
    | none => (m, none)
    | some d =>
      let r := d.read16 emptyBank
      -- the address is a `uint16_t`
      fillPage pageAddress emptyBank pageWords r.2
        (m.fill flash (pageAddress + BitVec.ofNat 16 (2 * pageWord)).toNat r.1)

/--
The page address of a report on a device whose last flash address is `flashEnd`, as either branch of
`#if (FLASHEND > 0xFFFF)` reads it. `setReport` is for the device of the makefile.
-/
def pageAddress (flashEnd : Nat) (report : List UInt8) : Nat :=
  let read := ((DataStage.mk report []).read16 0).1.toNat
  if 0xFFFF < flashEnd then read <<< 8 else read

/-- A SetReport request. -/
def setReport (r : ControlRequest) (b : Boot) : Boot :=
  match (DataStage.mk [] r.packets).next with
  | none => { b with waiting := true }
  | some d =>
    let (pageAddress, d) := d.read16 r.emptyBank
    if pageAddress = commandStartApplication then { b with runBootloader := false }
    else
      let m := b.memory.erase flash pageAddress.toNat
      match fillPage pageAddress r.emptyBank (List.range (spmPagesize / 2)) d m with
      | (m, none) => { b with memory := m, waiting := true }
      | (m, some _) => { b with memory := m.write flash pageAddress.toNat }

/-- `CONTROL_REQTYPE_TYPE | CONTROL_REQTYPE_RECIPIENT` and `REQTYPE_CLASS | REQREC_INTERFACE`. -/
def requestTypeMask : UInt8 := 0x60 ||| 0x1F

def classInterface : UInt8 := 0x20 ||| 0x01

/-- The request is `HID_REQ_SetReport`, directed to the HID interface. -/
def ControlRequest.isSetReport (r : ControlRequest) : Bool :=
  r.bmRequestType &&& requestTypeMask = classInterface ∧ r.bRequest = 0x09

/-- `EVENT_USB_Device_ControlRequest`. -/
def eventControlRequest (r : ControlRequest) (b : Boot) : Boot :=
  if r.isSetReport then setReport r b else b

/-- The bootloader after a sequence of requests. While it waits it handles none. -/
def handleAll (b : Boot) : List ControlRequest → Boot
  | [] => b
  | r :: rs => if b.waiting then b else handleAll (eventControlRequest r b) rs

/-- The bootloader after a reset. -/
def reset (bytes : Nat → UInt8) : Boot :=
  { runBootloader := true, memory := ⟨bytes, fun _ => 0xFF, []⟩, waiting := false }

end SphereWare.Bootloader
