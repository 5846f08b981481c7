import SphereWare.Loader.Program

/-!
# The loader as a whole (hid_bootloader_cli.c)

`main` reads the options and the file, opens the device, reads the file again if it had to wait, and
programs the device. The calls to libusb, as the makefile has them for Linux, ask what the bus looks
like at that time: `Host` holds the answers.
-/

namespace SphereWare.Loader

/-! ## The bus -/

/-- A device on the bus, by what the calls about it give. -/
structure UsbDevice where
  idVendor : Nat
  idProduct : Nat
  /-- `usb_open` returns a handle. -/
  opens : Bool
  /-- The driver of the kernel is detached and `usb_claim_interface` succeeds. -/
  claims : Bool
  deriving DecidableEq, Repr

/-- `open_usb_device`. -/
def openUsbDevice (vid pid : Nat) (bus : List UsbDevice) : Option UsbDevice :=
  bus.find? fun dev => dev.idVendor = vid ∧ dev.idProduct = pid ∧ dev.opens ∧ dev.claims

/-- What the system answers. -/
structure Host where
  /-- The file at each reading. -/
  file : Nat → Option (List Char)
  /-- What lies where `parse_hex_line` has its locals, at each reading and line. -/
  stack : Nat → Nat → Locals
  /-- The bus at each turn of the loop that opens the device, at each of the four searches. -/
  bus : Nat → Nat → List UsbDevice
  /-- `usb_control_msg` to the rebootor, at each turn. -/
  rebootSent : Nat → Bool
  /-- `teensy_write`, by the page. -/
  teensyWrite : Nat → List UInt8 → Bool

/-- `teensy_open`. -/
def Host.teensyOpen (h : Host) (turn : Nat) : Option UsbDevice :=
  (openUsbDevice 0x16C0 0x0478 (h.bus turn 0)).or (openUsbDevice 0x03eb 0x2067 (h.bus turn 1))

/-- `hard_reboot`. -/
def Host.hardReboot (h : Host) (turn : Nat) : Bool :=
  ((openUsbDevice 0x16C0 0x0477 (h.bus turn 2)).or
    (openUsbDevice 0x03eb 0x2067 (h.bus turn 3))).isSome && h.rebootSent turn

/-! ## Opening the device -/

/-- How the loop ends: `die`, still at it, or with a device and the flag `waited`. -/
inductive Opening where
  | died
  | waiting
  | opened (dev : UsbDevice) (waited : Bool)

/-- The loop that opens the device, with `turns` turns observed. -/
def openLoop (h : Host) : Nat → Nat → (hardRebootDevice waitForDevice waited : Bool) → Opening
  | 0, _, _, _, _ => .waiting
  | turns + 1, turn, hardRebootDevice, waitForDevice, waited =>
    match h.teensyOpen turn with
    | some dev => .opened dev waited
    | none =>
      if hardRebootDevice then
        -- only one hard reboot
        if h.hardReboot turn then openLoop h turns (turn + 1) false true true else .died
      else if waitForDevice then openLoop h turns (turn + 1) false true true
      else .died

/-! ## The program -/

/-- The `block_size + 2` bytes that start the application. -/
def rebootReport (o : Options) : List UInt8 := 0xFF :: 0xFF :: List.replicate o.blockSize 0

/-- `main` ends with `exit(1)`, waits for the device, or returns 0 having written the reports. -/
inductive Exit where
  | died
  | waiting
  | finished (dev : UsbDevice) (reports : List (List UInt8))

/-- `main` with the device open. The result of the last write is not looked at. -/
def programDevice (h : Host) (o : Options) (s : Statics) (dev : UsbDevice) : Exit :=
  match program s o h.teensyWrite with
  | none => .died
  | some reports =>
    .finished dev (reports ++ if o.rebootAfterProgramming then [rebootReport o] else [])

/-- `main` with the file read for the first time. -/
def openDevice (h : Host) (turns : Nat) (o : Options) (s : Statics) : Exit :=
  match openLoop h turns 0 o.hardRebootDevice o.waitForDeviceToAppear false with
  | .died => .died
  | .waiting => .waiting
  | .opened dev waited =>
    if waited then
      let r := readIntelHex (h.stack 1) (h.file 1) s
      if r.1 < 0 then .died else programDevice h o r.2 dev
    else programDevice h o s dev

/-- `main`, with the static variables `s₀` at its start. -/
def main (h : Host) (turns : Nat) (args : List (List Char)) (s₀ : Statics) : Exit :=
  match parseOptions args .start with
  | none => .died
  | some o =>
    if o.filename = none then .died
    else if o.codeSize = 0 then .died
    else
      let r := readIntelHex (h.stack 0) (h.file 0) s₀
      if r.1 < 0 then .died else openDevice h turns o r.2

end SphereWare.Loader
