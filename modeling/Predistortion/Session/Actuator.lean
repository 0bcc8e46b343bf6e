import Predistortion.Session.Tables

/-!
# Actuators of a session

The enable bits, the passthru bits and the model of each channel's actuator, the pins that select a
model from outside, and the models themselves, one or two for each channel.
-/

namespace Predistortion.Session

open SessionM

/-! ## Enable and passthru -/

/-- Refuses to enable channels that are not initialized. -/
def requireInitialized (initialized mask : ChannelMask) (on : Bool) : Except Error Unit :=
  if on && mask.bits &&& ~~~initialized.bits != 0 then
    .error (.invalid "txChannelMask" mask.label
      s!"channels outside the initialized mask {initialized.label}")
  else
    .ok ()

/-- Enables or disables the actuators of a mask. -/
def setActuatorEnable (mask : ChannelMask) (on : Bool) : SessionM Unit := do
  let initialized := (← get).settings.validation.initialized
  checked do
    mask.requireNonempty
    requireInitialized initialized mask on
  execute (Command.actuatorEnable mask on)

/-- The actuator of a channel is enabled in the firmware. -/
def actuatorEnable (c : Channel) : SessionM Bool := do
  execute (Command.actuatorEnabled c)
  let flag ← perform (.memoryRead mailboxGet 1)
  return flag.byteAt 0 != 0

/-- Sets the passthru bit of every channel of a mask and keeps its enable bit. -/
def setPassthru (mask : ChannelMask) (on : Bool) : SessionM Unit := do
  checked mask.requireNonempty
  mask.channels.forM fun c => do
    let (enabled, _) ← enablePassthru c
    setEnablePassthru c enabled on

/-- The signal passes the actuator of a channel by. -/
def passthru (c : Channel) : SessionM Bool := do
  let (_, on) ← enablePassthru c
  return on

/-! ## The selected model -/

/-- The bits of a byte that name a model. -/
def modelBits : UInt8 := 0x03

/-- Selects the model of every channel of a mask. -/
def selectModel (mask : ChannelMask) (slot : ModelSlot) : SessionM Unit := do
  checked mask.requireNonempty
  execute (Command.selectModel mask slot)

/-- The model that the firmware has selected for a channel. -/
def selectedModel (c : Channel) : SessionM ModelSlot := do
  execute (Command.selectedModel c)
  let value ← perform (.memoryRead mailboxGet 1)
  ofExcept (ModelSlot.ofRaw (value.byteAt 0 &&& modelBits))

/-- The model that the actuator of a channel runs. -/
def activeModel (c : Channel) : SessionM ModelSlot := do
  let status ← readRegister c.block.status
  ofExcept (ModelSlot.ofRaw ((status >>> 8).toUInt8 &&& modelBits))

/-- Assigns pins to the two model-select signals; they must not be the same pin. -/
def setSelectPins (pin0 pin1 : Pin) : SessionM Unit := do
  checked <|
    if pin0.isAssigned && pin0 == pin1 then
      .error (.pinConflict pin0.raw "both model-select signals assigned to the same pin")
    else
      .ok ()
  perform (.signalSet .bit0 (SignalPin.ofPin pin0))
  perform (.signalSet .bit1 (SignalPin.ofPin pin1))

/-- The pins of the two model-select signals. -/
def selectPins : SessionM (Pin × Pin) := do
  let lower ← perform (.signalGet .bit0)
  let upper ← perform (.signalGet .bit1)
  return (lower.pin, upper.pin)

/-! ## Model records -/

/-- Writes the model of a channel. -/
def setModel (c : Channel) (m : Model) : SessionM Unit := do
  checked m.check
  perform (.objectWrite Object.model (Model.offset c) (m.encode c))

/-- The model of a channel. -/
def model (c : Channel) : SessionM Model := do
  let record ← perform (.objectRead Object.model (Model.offset c) Model.recordLength)
  ofExcept (Model.decode record)

/-- Writes one of the two models of a channel; the model names its slot. -/
def setDualModel (c : Channel) (m : Model) : SessionM Unit := do
  ofExcept m.slot.requireDual
  checked m.check
  perform (.objectWrite Object.dualModel (Model.dualOffset c m.slot) (m.encode c))

/-- One of the two models of a channel. -/
def dualModel (c : Channel) (slot : ModelSlot) : SessionM Model := do
  ofExcept slot.requireDual
  let record ← perform
    (.objectRead Object.dualModel (Model.dualOffset c slot) Model.recordLength)
  ofExcept (Model.decode record)

end Predistortion.Session
