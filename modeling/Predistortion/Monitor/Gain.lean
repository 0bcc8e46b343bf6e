import Predistortion.Actuator.Model

/-!
# Gain monitor

The gain monitor switches models when the gain leaves a range for long enough. Its record takes 12
bytes: how long (two bytes), the lower and the upper limit, the channel, three reserved bytes, the
enable byte, the models for a violation below and above, and the decay of the estimate.
-/

namespace Predistortion

/-- The gain monitor of the channels in a mask. -/
structure GainMonitor where
  /-- The channels. -/
  mask : ChannelMask
  /-- The monitor switches models. -/
  enable : Bool
  /-- The count of samples for which a violation has to last. -/
  qualify : UInt16
  /-- The lower limit. -/
  lower : UInt8
  /-- The upper limit. -/
  upper : UInt8
  /-- The model for a violation of the lower limit. -/
  lowerModel : ModelSlot
  /-- The model for a violation of the upper limit. -/
  upperModel : ModelSlot
  /-- The decay of the estimate, at most 15. -/
  decay : UInt8
deriving DecidableEq, Inhabited

namespace GainMonitor

/-- The largest decay. -/
def maxDecay : UInt8 := 15

/-- Checks an entry. The limits of an entry that is not enabled do not matter. -/
def check (g : GainMonitor) : Except Error Unit :=
  if g.mask.isEmpty then
    .error (.invalid "gainMonitor.txChannelMask" "0x00" "at least one channel required")
  else if !g.enable then
    .ok ()
  else if g.decay > maxDecay then
    .error (.invalid "gainMonitor.iirDecay" (toString g.decay.toNat)
      s!"must be <= {maxDecay.toNat}")
  else if g.lower > g.upper then
    .error (.invalid "gainMonitor.lowerThresh" (toString g.lower.toNat)
      s!"exceeds upper threshold {g.upper.toNat}")
  else
    .ok ()

/-- The length of a record. -/
def recordLength : Nat := 12

/-- The record of an entry for one channel. -/
def encode (g : GainMonitor) (c : Channel) : Bytes :=
  LittleEndian.ofUInt16 g.qualify ++
  [g.lower, g.upper, c.code, 0, 0, 0, if g.enable then 1 else 0, g.lowerModel.raw,
    g.upperModel.raw, g.decay]

/-- Reads the record of a channel. The lower model is looked at before the upper. -/
def decode (c : Channel) (b : Bytes) : Except Error GainMonitor := do
  if b.length < recordLength then
    throw (.invalid "gainMonitorRecord" (toString b.length) s!"expected {recordLength} bytes")
  let lowerModel ← ModelSlot.ofRaw (b.byteAt 9)
  let upperModel ← ModelSlot.ofRaw (b.byteAt 10)
  return {
    mask := ChannelMask.singleton c
    enable := b.byteAt 8 &&& 0x01 != 0
    qualify := LittleEndian.uint16At b 0
    lower := b.byteAt 2
    upper := b.byteAt 3
    lowerModel
    upperModel
    decay := b.byteAt 11 }

/-- Where the record of a channel starts. -/
def offset (c : Channel) : UInt16 := UInt16.ofNat (c.index * recordLength)

end GainMonitor

end Predistortion
