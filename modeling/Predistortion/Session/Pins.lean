import Predistortion.Capture.Limits
import Predistortion.Session.Basic
import Predistortion.Session.Undo

/-!
# Pins of a session

The pin that shows the completion of a capture is a shared resource: the table of pins tags it, it
is an output, and its source group is switched to the memory element. Assigning another pin first
takes the tag from the one that has it. A failure on the way is rolled back as far as possible and
reported as it is.
-/

namespace Predistortion.Session

open SessionM

/-! ## Source control -/

/-- Writes the source control of the group that routes a pin. -/
def setSourceControl (pin : Pin) (value : UInt8) : SessionM Unit := do
  if value > 0x0F then
    throw (.invalid "gpioSourceControl" (toString value.toNat) "must fit in one nibble")
  let group ← ofExcept (SourceGroup.ofPin pin)
  perform (.sourceSet group value)

/-- Reads the source control of the group that routes a pin. -/
def sourceControl (pin : Pin) : SessionM UInt8 := do
  let group ← ofExcept (SourceGroup.ofPin pin)
  let value ← perform (.sourceGet group)
  return value &&& 0x0F

/-! ## The completion pin -/

/-- The pins among which the completion tag is looked for, in order. -/
def donePinCandidates : List Pin :=
  ((List.finRange pinCount).filter (·.val ≤ Capture.maxCapturePin)).map .digital

/-- The first of some pins that has the completion tag. -/
def findTagged : List Pin → ChipM Pin
  | [] => return .unassigned
  | pin :: rest => do
    let feature ← Chip.perform (.featureGet pin)
    if feature = .captureDone then return pin else findTagged rest

/-- The pin that shows completion, if any. -/
def donePin : SessionM Pin := onChip (findTagged donePinCandidates)

/-- Switches the source group of a pin and notes the value it had. -/
def switchSource (pin : Pin) (value : UInt8) : RewireM Unit := do
  let group ← ofExcept (SourceGroup.ofPin pin)
  let prior ← RewireM.perform (.sourceGet group)
  RewireM.perform (.sourceSet group value)
  RewireM.note (.source group prior)

/-- Takes the completion tag from a pin. -/
def releaseDonePin (pin : Pin) : RewireM Unit := do
  if !(← RewireM.perform (.release pin .captureDone)) then
    throw (.pinConflict pin.raw "unable to release capture done pin")
  RewireM.note (.reacquire pin .captureDone)
  RewireM.perform (.directionSet pin .input)
  RewireM.note (.direction pin .output)

/-- Gives the completion tag to a pin. -/
def acquireDonePin (pin : Pin) : RewireM Unit := do
  if !(← RewireM.perform (.acquire pin .captureDone)) then
    throw (.pinConflict pin.raw "pin is owned by another feature")
  RewireM.note (.release pin .captureDone)
  RewireM.perform (.directionSet pin .output)
  RewireM.note (.direction pin .input)
  switchSource pin sourceMemoryElement

/-- Moves the completion tag to a pin, or takes it away when there is none. The source group of the
old pin is reset only when no new pin takes its place. -/
def moveDonePin (pin : Pin) : RewireM Unit := do
  let previous ← RewireM.onChip (findTagged donePinCandidates)
  if previous.isAssigned then releaseDonePin previous
  if pin.isAssigned then acquireDonePin pin
  else if previous.isAssigned then switchSource previous sourceDefault

/-- Runs a change of pins, and rolls it back when it fails. -/
def rewire {α : Type} (m : RewireM α) : SessionM α := fun s =>
  match m ⟨s.chip, []⟩ with
  | .ok a r => .ok a { s with chip := r.chip }
  | .error e r => .error e { s with chip := (r.log.rollback r.chip).2 }

/-- Refuses a pin whose source group serves another function. -/
def requireFreeSource (pin : Pin) : SessionM Unit := do
  if pin.isAssigned then
    let current ← sourceControl pin
    if current ≠ sourceDefault ∧ current ≠ sourceMemoryElement then
      throw (.pinConflict pin.raw
        s!"source control 0x{Numeral.hex 1 current.toNat} is in use by another function")

/-- Assigns the pin that shows completion, unless its source group serves another function. -/
def setDonePin (pin : Pin) : SessionM Unit := do
  requireFreeSource pin
  rewire (moveDonePin pin)

/-! ## The trigger pin -/

/-- Routes the pin that triggers captures; a pin is routed to the stream input of its own number,
and no pin to input 0. -/
def routeTriggerPin (pin : Pin) : SessionM Unit := do
  let signal : UInt8 :=
    match pin.number? with
    | some n => UInt8.ofNat n.val
    | none => 0
  perform (.streamPinSet signal pin)
  modify ({ · with triggerPin := pin })

end Predistortion.Session
