import SphereWare.Firmware.State

/-!
# Control reads (Template_Endpoint_Control_W.c)

`Endpoint_Write_Control_Stream_LE` and `Endpoint_Write_Control_PStream_LE` send the data of a
control read, such as a descriptor, in packets of the control endpoint. The two differ in the
memory the data are in. The host fetches the packets and ends the transfer with its status packet,
while the function polls the flags of the endpoint.
-/

namespace SphereWare.ControlStream

/-- `USB_Device_ControlEndpointSize`: `FIXED_CONTROL_ENDPOINT_SIZE`. -/
def controlEndpointSize : Nat := 8

/-- The control endpoint, as the library sees it. -/
structure ControlEndpoint where
  /-- The packet in the IN bank that the host has not fetched. -/
  inBank : Option (List UInt8)
  outReceived : Bool
  setupReceived : Bool
  deviceState : DeviceState

/-- `ENDPOINT_RWCSTREAM_*`. -/
inductive ErrorCode
  | noError
  | hostAborted
  | deviceDisconnected
  | busSuspended
  deriving DecidableEq

/-- Where the function is. -/
inductive Progress
  /-- The first loop, with the bytes `left` to be sent. -/
  | sending (left : List UInt8) (lastPacketFull : Bool)
  /-- The second loop. -/
  | waiting
  | returned (code : ErrorCode)
  deriving DecidableEq

/-- Up to the first loop. -/
def begin (data : List UInt8) (wLength : Nat) (e : ControlEndpoint) : Progress × ControlEndpoint :=
  if wLength < data.length then (.sending (data.take wLength) false, e)
  else if data.length = 0 then (.sending data false, { e with inBank := some [] })
  else (.sending data false, e)

/-- One turn of the loop the function is in, or the step from the first loop to the second. -/
def turn (e : ControlEndpoint) : Progress → Progress × ControlEndpoint
  | .sending left lastPacketFull =>
    if left.length = 0 ∧ lastPacketFull = false then (.waiting, e)
    else if e.deviceState = .unattached then (.returned .deviceDisconnected, e)
    else if e.deviceState = .suspended then (.returned .busSuspended, e)
    else if e.setupReceived then (.returned .hostAborted, e)
    else if e.outReceived then (.waiting, e)
    else if e.inBank.isSome then (.sending left lastPacketFull, e)
    else
      let packet := left.take controlEndpointSize
      (.sending (left.drop controlEndpointSize) (packet.length = controlEndpointSize),
        { e with inBank := some packet })
  | .waiting =>
    if e.outReceived then (.returned .noError, e)
    else if e.deviceState = .unattached then (.returned .deviceDisconnected, e)
    else if e.deviceState = .suspended then (.returned .busSuspended, e)
    else (.waiting, e)
  | .returned code => (.returned code, e)

end SphereWare.ControlStream
