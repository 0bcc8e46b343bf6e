import Predistortion.Bytes.Basic
import Predistortion.Channel
import Predistortion.Pin

/-!
# Requests

Everything below the session is asked for by a `Request`: mailbox commands, object and memory
accesses, single registers, streams and pins. `Request.Reply` is the type of what comes back, and
`Request.Kind` forgets the arguments. A `Call` is a request together with what came back, or with
the error that refused it.
-/

namespace Predistortion

/-- A request to the chip. -/
inductive Request where
  /-- Write a mailbox command. -/
  | command (opcode : UInt8) (payload : Bytes)
  /-- Wait for the pending command and return its status byte. -/
  | statusWait (opcode : UInt8) (timeoutUs intervalUs : UInt64)
  /-- Write into a firmware object. -/
  | objectWrite (object : UInt8) (offset : UInt16) (data : Bytes)
  /-- Read from a firmware object. -/
  | objectRead (object : UInt8) (offset : UInt16) (length : Nat)
  /-- Write the scratch memory of the mailbox. -/
  | memoryWrite (address : UInt32) (data : Bytes)
  /-- Read the scratch memory of the mailbox. -/
  | memoryRead (address : UInt32) (length : Nat)
  /-- Write in bulk. -/
  | bulkWrite (address : UInt32) (data : Bytes) (increment : Bool)
  /-- Read in bulk. -/
  | bulkRead (address : UInt32) (length : Nat) (increment : Bool)
  /-- Write one serial register. -/
  | registerWrite (address : UInt16) (value : UInt8)
  /-- Start a stream. -/
  | streamStart (stream : UInt8)
  /-- Read whether the actuator clock of a channel runs. -/
  | clockStatus (channel : Channel)
  /-- Read the source control of a group. -/
  | sourceGet (group : SourceGroup)
  /-- Write the source control of a group. -/
  | sourceSet (group : SourceGroup) (value : UInt8)
  /-- Set the direction of a pin. -/
  | directionSet (pin : Pin) (direction : Direction)
  /-- Read the owner of a pin. -/
  | featureGet (pin : Pin)
  /-- Claim a pin for a feature; refused with `false` when another feature owns it. -/
  | acquire (pin : Pin) (feature : Feature)
  /-- Give a pin back; refused with `false` when the feature does not own it. -/
  | release (pin : Pin) (feature : Feature)
  /-- Route a pin to an input of the stream processor. -/
  | streamPinSet (signal : UInt8) (pin : Pin)
  /-- Assign a pin to a model-select signal. -/
  | signalSet (signal : SelectSignal) (pin : SignalPin)
  /-- Read the pin of a model-select signal. -/
  | signalGet (signal : SelectSignal)
deriving DecidableEq

namespace Request

/-- What comes back when a request is served. -/
@[reducible] def Reply : Request → Type
  | .command .. => Unit
  | .statusWait .. => UInt8
  | .objectWrite .. => Unit
  | .objectRead .. => Bytes
  | .memoryWrite .. => Unit
  | .memoryRead .. => Bytes
  | .bulkWrite .. => Unit
  | .bulkRead .. => Bytes
  | .registerWrite .. => Unit
  | .streamStart .. => Unit
  | .clockStatus .. => Bool
  | .sourceGet .. => UInt8
  | .sourceSet .. => Unit
  | .directionSet .. => Unit
  | .featureGet .. => Feature
  | .acquire .. => Bool
  | .release .. => Bool
  | .streamPinSet .. => Unit
  | .signalSet .. => Unit
  | .signalGet .. => SignalPin

/-- A request without its arguments. -/
inductive Kind where
  | command | statusWait | objectWrite | objectRead | memoryWrite | memoryRead | bulkWrite
  | bulkRead | registerWrite | streamStart | clockStatus | sourceGet | sourceSet | directionSet
  | featureGet | acquire | release | streamPinSet | signalSet | signalGet
deriving DecidableEq, Inhabited

/-- All kinds. -/
def Kind.all : List Kind :=
  [command, statusWait, objectWrite, objectRead, memoryWrite, memoryRead, bulkWrite, bulkRead,
    registerWrite, streamStart, clockStatus, sourceGet, sourceSet, directionSet, featureGet,
    acquire, release, streamPinSet, signalSet, signalGet]

/-- The name of a kind in the messages of injected faults. -/
def Kind.name : Kind → String
  | .command => "cmd_write"
  | .statusWait => "cmd_status_wait"
  | .objectWrite => "config_write"
  | .objectRead => "config_read"
  | .memoryWrite => "mem_write"
  | .memoryRead => "mem_read"
  | .bulkWrite => "dma_write"
  | .bulkRead => "dma_read"
  | .registerWrite => "spi_write_byte"
  | .streamStart => "stream_trigger"
  | .clockStatus => "actuator_clock_enabled"
  | .sourceGet => "gpio_source_control_get"
  | .sourceSet => "gpio_source_control_set"
  | .directionSet => "gpio_direction_set"
  | .featureGet => "shared_resource_feature"
  | .acquire => "shared_resource_acquire"
  | .release => "shared_resource_release"
  | .streamPinSet => "stream_gpio_pin_set"
  | .signalSet => "arm_gpio_pin_set"
  | .signalGet => "arm_gpio_pin_get"

/-- The kind of a request. -/
def kind : Request → Kind
  | .command .. => .command
  | .statusWait .. => .statusWait
  | .objectWrite .. => .objectWrite
  | .objectRead .. => .objectRead
  | .memoryWrite .. => .memoryWrite
  | .memoryRead .. => .memoryRead
  | .bulkWrite .. => .bulkWrite
  | .bulkRead .. => .bulkRead
  | .registerWrite .. => .registerWrite
  | .streamStart .. => .streamStart
  | .clockStatus .. => .clockStatus
  | .sourceGet .. => .sourceGet
  | .sourceSet .. => .sourceSet
  | .directionSet .. => .directionSet
  | .featureGet .. => .featureGet
  | .acquire .. => .acquire
  | .release .. => .release
  | .streamPinSet .. => .streamPinSet
  | .signalSet .. => .signalSet
  | .signalGet .. => .signalGet

/-- The request is a transaction of the journal. Status waits and the reading of flags are not. -/
def isTransaction (r : Request) : Bool :=
  match r.kind with
  | .statusWait | .clockStatus | .sourceGet | .featureGet | .signalGet => false
  | _ => true

end Request

/-- A request and what came of it. -/
structure Call where
  /-- What was asked for. -/
  request : Request
  /-- What came back, or the error that refused the request. -/
  outcome : Except TransportError request.Reply

/-- The kind of the request of a call. -/
def Call.kind (c : Call) : Request.Kind := c.request.kind

end Predistortion
