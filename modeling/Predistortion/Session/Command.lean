import Predistortion.Actuator.Model
import Predistortion.Bytes.LittleEndian
import Predistortion.RegisterMap

/-!
# Mailbox commands

The commands that a session sends, with the rules for the status that comes back: the opcode on
which the wait is made, the status bits that flag an error, and how long the wait may last. A
tracking command names the calibration and carries a channel byte and a sub-command.
-/

namespace Predistortion

/-- How long a status wait may last. -/
inductive Budget where
  /-- As long as an ordinary command. -/
  | ordinary
  /-- As long as the clearing or promotion of tables. -/
  | tableUpdate
deriving DecidableEq

/-- A mailbox command. -/
structure Command where
  /-- The opcode that is written. -/
  opcode : UInt8
  /-- The opcode on which the status is waited for. -/
  waitOpcode : UInt8
  /-- The payload, the object first. -/
  payload : Bytes
  /-- The status bits that flag an error. -/
  errorMask : UInt8
  /-- How long the wait may last. -/
  budget : Budget
deriving DecidableEq

namespace Command

/-- The object that a command names. -/
def object (k : Command) : UInt8 := k.payload.byteAt 0

/-! ## Shapes -/

/-- Writes an object directly. -/
def set (payload : Bytes) : Command :=
  ⟨Opcode.set, Opcode.set, payload, directErrorMask, .ordinary⟩

/-- Reads an object directly. -/
def get (payload : Bytes) : Command :=
  ⟨Opcode.get, Opcode.get, payload, directErrorMask, .ordinary⟩

/-- A tracking command. -/
def tracking (channels sub : UInt8) : Command :=
  ⟨Opcode.set, Opcode.set, [Object.trackingControl, Object.predistortion, channels, sub],
    trackingErrorMask, .ordinary⟩

/-! ## Captures -/

/-- Starts a capture. -/
def triggerCapture : Command := set [Object.captureTrigger]

/-- Asks whether a capture is complete. -/
def captureDone : Command := get [Object.captureDone]

/-- Clears the flag that a capture is complete. The firmware answers it like a read. -/
def clearCaptureDone : Command :=
  { set [Object.captureDone, 0] with waitOpcode := Opcode.get }

/-- Hands the capture buffers back. -/
def captureReadDone : Command := tracking 0 Tracking.captureReadDone

/-- Asks for the capture status of a channel. -/
def captureStatus (c : Channel) : Command :=
  { get [Object.calibrationStatus, Object.predistortion, c.code] with
    errorMask := trackingErrorMask }

/-! ## Actuators -/

/-- The bit that tells enabling from disabling. -/
def enableFlag : UInt8 := 0x80

/-- Enables or disables the actuators of a mask. -/
def actuatorEnable (m : ChannelMask) (on : Bool) : Command :=
  set [Object.actuatorEnable, (if on then enableFlag else 0) ||| m.bits]

/-- Asks whether the actuator of a channel is enabled. -/
def actuatorEnabled (c : Channel) : Command := get [Object.actuatorEnable, c.bit]

/-- Selects the model of the channels of a mask. -/
def selectModel (m : ChannelMask) (slot : ModelSlot) : Command :=
  { set [Object.modelSelect, slot.raw <<< 4 ||| m.bits] with errorMask := trackingErrorMask }

/-- Asks for the model of a channel. -/
def selectedModel (c : Channel) : Command := get [Object.modelSelect, c.bit]

/-- Clears all tables. -/
def clearTables : Command := { tracking 1 Tracking.tableClear with budget := .tableUpdate }

/-- Promotes the staged tables of a channel. -/
def promote (c : Channel) : Command :=
  { tracking c.bit Tracking.promote with budget := .tableUpdate }

/-- Asks how the last promotion of a channel went. -/
def promotionStatus (c : Channel) : Command :=
  { tracking c.bit Tracking.promotionStatus with budget := .tableUpdate }

/-! ## Clipper -/

/-- Applies the staged clipper record to a channel. -/
def setClipper (c : Channel) : Command := tracking c.bit Tracking.clipperSet

/-- Asks for the clipper record of a channel. The firmware answers it like a read. -/
def getClipper (c : Channel) : Command :=
  { tracking c.bit Tracking.clipperGet with waitOpcode := Opcode.get }

/-- Zeroes the clip counter of a channel. -/
def resetClipCount (c : Channel) : Command := tracking c.bit Tracking.clipCountReset

/-- Asks for the clip counter of a channel. The firmware answers it like a read. -/
def getClipCount (c : Channel) : Command :=
  { tracking c.bit Tracking.clipCountGet with waitOpcode := Opcode.get }

end Command

end Predistortion
