import SphereWare.Firmware.Endpoint

/-!
# Streams (Template_Endpoint_RW.c, Endpoint_AVR8.c)

`Endpoint_Read_Stream_LE` and `Endpoint_Write_Stream_LE` are one template, filled in for the two
directions. The function polls the flags of the endpoint, byte by byte, while the host goes on with
the other side of the bank. After each packet it calls `USB_USBTask`, which answers a control
request, and some requests reset the endpoint: SET_CONFIGURATION, and CLEAR_FEATURE of its halt. A
reset of the bus, at which the controller itself disables the endpoint, is left out. The firmware
never asks for the number of bytes processed.
-/

namespace SphereWare.EndpointStream

/-- `USB_STREAM_TIMEOUT_MS`. -/
def timeoutMS : Nat := 100

/-- `ENDPOINT_RWSTREAM_*`, which begin with `ENDPOINT_READYWAIT_*`. -/
inductive ErrorCode
  | noError
  | endpointStalled
  | deviceDisconnected
  | busSuspended
  | timeout
  deriving DecidableEq

/-- What the function looks at besides the bank. -/
structure Bus where
  deviceState : DeviceState
  /-- `Endpoint_IsStalled()`. -/
  stalled : Bool
  /-- `USB_Device_GetFrameNumber()`. -/
  frameNumber : BitVec 11

/-- The template's parameters, for endpoints `ε`. -/
structure Template (ε : Type) where
  /-- `Endpoint_IsINReady` or `Endpoint_IsOUTReceived`, by the direction of the endpoint. -/
  ready : ε → Bool
  /-- `Endpoint_IsReadWriteAllowed`. -/
  readWriteAllowed : ε → Bool
  /-- `TEMPLATE_TRANSFER_BYTE` and `TEMPLATE_BUFFER_MOVE`. -/
  transferByte : ε → ε
  /-- `TEMPLATE_CLEAR_ENDPOINT`. -/
  clearEndpoint : ε → ε
  /-- `Endpoint_ConfigureEndpoint_Prv` and `Endpoint_ResetEndpoint`, which empty the bank. -/
  reset : ε → ε

/-- Where the function is; `length` bytes are left. -/
inductive Progress
  /-- Before `Endpoint_WaitUntilReady`. -/
  | entering (length : Nat)
  /-- In the loop of `Endpoint_WaitUntilReady`. -/
  | waiting (length timeoutMSRem : Nat) (previousFrameNumber : BitVec 11)
  /-- In the loop of the function. -/
  | looping (length : Nat)
  /-- In `USB_USBTask`, with the bank just cleared. -/
  | serving (length : Nat)
  | returned (code : ErrorCode)
  deriving DecidableEq

variable {ε : Type}

/-- One turn of the loop the function is in, or the return of `USB_USBTask`. -/
def turn (T : Template ε) (bus : Bus) (e : ε) : Progress → Progress × ε
  | .entering length => (.waiting length timeoutMS bus.frameNumber, e)
  | .waiting length timeoutMSRem previousFrameNumber =>
    if T.ready e then (.looping length, e)
    else if bus.deviceState = .unattached then (.returned .deviceDisconnected, e)
    else if bus.deviceState = .suspended then (.returned .busSuspended, e)
    else if bus.stalled then (.returned .endpointStalled, e)
    else if bus.frameNumber = previousFrameNumber then
      (.waiting length timeoutMSRem previousFrameNumber, e)
    else if timeoutMSRem = 0 then (.returned .timeout, e)
    else (.waiting length (timeoutMSRem - 1) bus.frameNumber, e)
  | .looping 0 => (.returned .noError, e)
  | .looping (length + 1) =>
    if T.readWriteAllowed e then (.looping length, T.transferByte e)
    else (.serving (length + 1), T.clearEndpoint e)
  | .serving length => (.entering length, e)
  | .returned code => (.returned code, e)

/-! ## The two directions -/

/-- An OUT endpoint, and the buffer that is read into. -/
structure OutEndpoint where
  /-- What is left of the packet in the bank, if there is one. -/
  bank : Option (List UInt8)
  /-- The bytes stored in the buffer. -/
  data : List UInt8
  /-- How often the bank was cleared. -/
  cleared : Nat
  /-- The packets that have come since the call, without those that a reset has thrown away. -/
  arrived : List (List UInt8)
  deriving DecidableEq

namespace OutEndpoint

/-- The endpoint when the function is called. -/
def ofBank (bank : List UInt8) : OutEndpoint := ⟨some bank, [], 0, []⟩

def readWriteAllowed (e : OutEndpoint) : Bool :=
  match e.bank with
  | some (_ :: _) => true
  | _ => false

/-- `Endpoint_Read_8` into the buffer. -/
def read8 (e : OutEndpoint) : OutEndpoint :=
  match e.bank with
  | some (b :: bs) => { e with bank := some bs, data := e.data ++ [b] }
  | _ => e

def clearOUT (e : OutEndpoint) : OutEndpoint := { e with bank := none, cleared := e.cleared + 1 }

/-- A packet in the bank, which the function has not looked at, is thrown away. -/
def reset (e : OutEndpoint) : OutEndpoint :=
  if e.bank.isSome then { e with bank := none, arrived := e.arrived.dropLast } else e

/-- The host sends a packet, which the endpoint takes if the bank is free. -/
def send (e : OutEndpoint) (packet : List UInt8) : OutEndpoint :=
  if e.bank.isSome then e
  else { e with bank := some packet, arrived := e.arrived ++ [packet] }

end OutEndpoint

/-- `Endpoint_Read_Stream_LE`. -/
def readStream : Template OutEndpoint where
  ready e := e.bank.isSome
  readWriteAllowed := OutEndpoint.readWriteAllowed
  transferByte := OutEndpoint.read8
  clearEndpoint := OutEndpoint.clearOUT
  reset := OutEndpoint.reset

/-- `GENERIC_EPSIZE` and `MIDI_STREAM_EPSIZE`. -/
def endpointSize : Nat := 64

/-- An IN endpoint, and the data that are written. -/
structure InEndpoint where
  /-- The bank is free for the function; otherwise it holds a packet for the host. -/
  free : Bool
  /-- What is in the bank. -/
  bank : List UInt8
  /-- What is left of the data. -/
  left : List UInt8
  /-- The packets the host has fetched since the call. -/
  fetched : List (List UInt8)
  deriving DecidableEq

namespace InEndpoint

def readWriteAllowed (e : InEndpoint) : Bool := e.free && decide (e.bank.length < endpointSize)

/-- `Endpoint_Write_8` of the next byte. -/
def write8 (e : InEndpoint) : InEndpoint :=
  { e with bank := e.bank ++ e.left.take 1, left := e.left.drop 1 }

def clearIN (e : InEndpoint) : InEndpoint := { e with free := false }

/-- The bank is free again, and what was in it is lost. -/
def reset (e : InEndpoint) : InEndpoint := { e with free := true, bank := [] }

/-- The host asks for a packet. -/
def fetch (e : InEndpoint) : InEndpoint :=
  if e.free then e else { e with free := true, bank := [], fetched := e.fetched ++ [e.bank] }

end InEndpoint

/-- `Endpoint_Write_Stream_LE`. -/
def writeStream : Template InEndpoint where
  ready e := e.free
  readWriteAllowed := InEndpoint.readWriteAllowed
  transferByte := InEndpoint.write8
  clearEndpoint := InEndpoint.clearIN
  reset := InEndpoint.reset

end SphereWare.EndpointStream
