import SphereWare.Firmware.State

/-!
# USB endpoints

The part of the USB library the firmware calls. `Endpoint_SelectEndpoint` sets the one current
endpoint and every other `Endpoint_*` function acts on it; the stream functions leave the selection
as they found it.

An OUT endpoint has one bank. The host puts a packet into it when it is free, and
`Endpoint_ClearOUT` frees it again. When that happens is up to the host (`TickInput`).
-/

namespace SphereWare

open Interrupt Prog

/-! ## Single operations -/

namespace Usb

def select (u : Usb) (ep : Endpoint) : Usb := { u with selected := ep }

/-- The host may have put a packet into the current bank if it was free. -/
def receive (u : Usb) (arrival : Option (List UInt8)) : Usb :=
  if (u.bank u.selected).isSome then u
  else { u with bank := Function.update u.bank u.selected arrival }

def write (u : Usb) (data : List UInt8) : Usb := { u with ops := u.ops ++ [.write u.selected data] }

def clearIN (u : Usb) : Usb := { u with ops := u.ops ++ [.clearIN u.selected] }

def clearOUT (u : Usb) : Usb :=
  { u with bank := Function.update u.bank u.selected none, ops := u.ops ++ [.clearOUT u.selected] }

/-- How often the MIDI IN endpoint was released so far. -/
def midiReleases (u : Usb) : Nat := u.ops.count (.clearIN .midiIn)

/-- Bytes are left in the current bank. -/
def readWriteAllowed (u : Usb) : Bool :=
  match u.bank u.selected with
  | some (_ :: _) => true
  | _ => false

/-- The number of bytes left in the current bank. -/
def bytesInEndpoint (u : Usb) : Nat := ((u.bank u.selected).getD []).length

/--
The device state after a bus event. `EVENT_USB_Device_ConfigurationChanged` configures the four
endpoints anew, which empties their banks.
-/
def event (u : Usb) : UsbEvent → Usb
  | .connect => { u with deviceState := .powered }
  | .reset => { u with deviceState := .default, configuration := false, addressSet := false }
  | .setAddress => { u with deviceState := .addressed, addressSet := true }
  | .setConfiguration =>
    { u with deviceState := .configured, configuration := true, bank := fun _ => none }
  | .suspend => { u with deviceState := .suspended }
  | .wakeUp =>
    { u with deviceState := if u.configuration || u.addressSet then .configured else .powered }
  | .disconnect => { u with deviceState := .unattached }

end Usb

/-- A change of the USB controller. -/
def usbAct (f : Usb → Usb) : Code Unit := act fun s => { s with usb := f s.usb }

def endpointSelectEndpoint (ep : Endpoint) : Code Unit := usbAct fun u => u.select ep

def endpointClearIN : Code Unit := usbAct Usb.clearIN

def endpointClearOUT : Code Unit := usbAct Usb.clearOUT

def endpointWriteStream (data : List UInt8) : Code Unit := usbAct fun u => u.write data

def endpointIsINReady : Code Bool := input fun i => i.tick.inReady

def endpointIsOUTReceived (arrival : TickInput → Option (List UInt8)) : Code Bool :=
  atomic fun i s =>
    let u := s.usb.receive (arrival i.tick)
    ((u.bank u.selected).isSome, { s with usb := u })

def endpointIsReadWriteAllowed : Code Bool := read fun s => s.usb.readWriteAllowed

def endpointBytesInEndpoint : Code Nat := read fun s => s.usb.bytesInEndpoint

/-- `USB_USBTask`, or the USB interrupt before the next tick: the device state may change. -/
def usbUSBTask : Code Unit :=
  atomic fun i s =>
    ((), match i.tick.usbEvent with
      | none => s
      | some e => { s with usb := s.usb.event e })

/-! ## Stream reads -/

/-- What a stream read did: the bytes it filled, and how it left the bank. -/
structure StreamRead where
  data : List UInt8
  bank : Option (List UInt8)
  /-- How often the bank ran empty and was cleared. -/
  cleared : Nat
  /-- `ENDPOINT_RWSTREAM_NoError`. -/
  complete : Bool

/--
The loop of `Endpoint_Read_Stream_LE` with `n` bytes still to come.

Where the bank runs empty it is cleared and the next packet awaited. When the wait fails the
function returns an error and the rest of the buffer is not filled. `USB_USBTask`, which is called
before the wait, is taken to find no control request there.
-/
def readBytes (n : Nat) (bank : List UInt8) : List (List UInt8) → StreamRead
  | [] =>
    if n ≤ bank.length then ⟨bank.take n, some (bank.drop n), 0, true⟩
    -- the bank is cleared, but no packet comes
    else ⟨bank, none, 1, false⟩
  | packet :: later =>
    if n ≤ bank.length then ⟨bank.take n, some (bank.drop n), 0, true⟩
    else
      let r := readBytes (n - bank.length) packet later
      { r with data := bank ++ r.data, cleared := r.cleared + 1 }

theorem readBytes_length_le (n : Nat) (bank : List UInt8) (later : List (List UInt8)) :
    (readBytes n bank later).data.length ≤ n := by
  induction later generalizing n bank with
  | nil =>
    rw [readBytes]
    split
    · simp only [List.length_take]; omega
    · simp only; omega
  | cons packet later ih =>
    rw [readBytes]
    split
    · simp only [List.length_take]; omega
    · have := ih (n - bank.length) packet
      simp only [List.length_append]
      omega

/-- A receive buffer: the bytes the host sent, and what lay in memory before and behind them. -/
structure RxBuffer where
  received : List UInt8
  stack : Nat → UInt8

namespace RxBuffer

def get (b : RxBuffer) (i : Nat) : UInt8 := b.received.getD i (b.stack i)

/-- A copy that starts at the byte with index `n`. -/
def drop (b : RxBuffer) (n : Nat) : RxBuffer := ⟨b.received.drop n, fun i => b.stack (i + n)⟩

/-- A message that is complete. -/
def ofList (l : List UInt8) : RxBuffer := ⟨l, fun _ => 0⟩

end RxBuffer

/-- `Endpoint_Read_Stream_LE` into a buffer of `n` bytes. -/
def endpointReadStream (n : Nat) (later : TickInput → List (List UInt8))
    (stack : TickInput → Nat → UInt8) : Code RxBuffer :=
  atomic fun i s =>
    let r := readBytes n ((s.usb.bank s.usb.selected).getD []) (later i.tick)
    (⟨r.data, stack i.tick⟩,
      { s with usb := { s.usb with
          bank := Function.update s.usb.bank s.usb.selected r.bank,
          ops := s.usb.ops ++ List.replicate r.cleared (.clearOUT s.usb.selected) } })

/-- Reads a byte of a receive buffer. -/
def readData (b : RxBuffer) (i : Nat) : Code UInt8 :=
  atomic fun _ s =>
    (b.get i, { s with usb := { s.usb with
      reads := s.usb.reads ++ [⟨i, decide (i < b.received.length)⟩] } })

end SphereWare
