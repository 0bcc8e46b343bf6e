import Predistortion.Capture.Basic

/-!
# Limits of a capture

The range checks that the types of a configuration do not already enforce. The checks of a whole
configuration run in a fixed order (control, path delay, thresholds, pins) and report the first
field that is out of range.
-/

namespace Predistortion.Capture

/-- The largest value of a nibble: peak decay and interpolation index. -/
def maxNibble : UInt8 := 15

/-- The largest value of a 24-bit counter: peak window and capture delay. -/
def maxCounter : UInt32 := 0xFFFFFF

/-- The largest alignment delay. -/
def maxAlignDelay : UInt16 := 8191

/-- The longest extended window. -/
def maxExtendedWindowUs : UInt32 := 15000000

/-- The largest pulse width. -/
def maxPulseWidth : UInt16 := 4096

/-- The highest pin that can trigger a capture, and the highest at which the completion tag is
looked for. -/
def maxCapturePin : Nat := 15

/-- Reports `value` when it is out of range. -/
def requireRange (inRange : Bool) (field value requirement : String) : Except Error Unit :=
  if inRange then .ok () else .error (.invalid field value requirement)

/-- Checks the control part. The extended window matters to an extended peak search only. -/
def Control.check (c : Control) : Except Error Unit := do
  requireRange (c.peak.decay ≤ maxNibble) "peakDecay" (toString c.peak.decay.toNat) "must be 0..=15"
  requireRange (c.peak.windowCount ≤ maxCounter) "peakWindowCount"
    (toString c.peak.windowCount.toNat) "must be 0..=16777215"
  requireRange (c.alignDelay ≤ maxAlignDelay) "alignDelay" (toString c.alignDelay.toNat)
    "must be 0..=8191"
  requireRange (c.captureDelay ≤ maxCounter) "captureDelay" (toString c.captureDelay.toNat)
    "must be 0..=16777215"
  requireRange (c.trigger != .extendedPeak || c.peak.extendedWindowUs ≤ maxExtendedWindowUs)
    "extendedWindowUs" (toString c.peak.extendedWindowUs.toNat) "must be 0..=15000000"

/-- Checks the path delay. -/
def PathDelay.check (d : PathDelay) : Except Error Unit :=
  requireRange (d.interpolation ≤ maxNibble) "interpolationIndex" (toString d.interpolation.toNat)
    "must be 0..=15"

/-- Checks the thresholds of one boundary. -/
def Threshold.check (t : Threshold) : Except Error Unit := do
  requireRange (t.riseWidth ≤ maxPulseWidth) "lowToHighPulseWidth" (toString t.riseWidth.toNat)
    "must be 0..=4096"
  requireRange (t.fallWidth ≤ maxPulseWidth) "highToLowPulseWidth" (toString t.fallWidth.toNat)
    "must be 0..=4096"

/-- A pin that can trigger a capture. -/
def isTriggerPin : Pin → Bool
  | .digital n => n.val ≤ maxCapturePin
  | .unassigned => true

/-- Checks a whole configuration. The two pins, when there are two, must differ. That the completion
pin is GPIO18 at most or none is not asked here, because no `Pin` is anything else. -/
def Config.check (c : Config) : Except Error Unit := do
  c.control.check
  c.pathDelay.check
  c.thresholds.between01.check
  c.thresholds.between12.check
  c.thresholds.between23.check
  requireRange (isTriggerPin c.triggerPin) "triggerPin" c.triggerPin.label
    "must be GPIO00..GPIO15 or invalid"
  requireRange (!(c.triggerPin.isAssigned && c.triggerPin == c.donePin)) "triggerPin"
    c.triggerPin.label "capture trigger and capture done cannot share a GPIO"

end Predistortion.Capture
