import Predistortion.Channel
import Predistortion.Bytes.LittleEndian
import Predistortion.Binary32

/-!
# Hard clipper

The clipper behind the actuator cuts everything above a threshold, a fraction of full scale between
0 and 1. Its record takes three bytes: the enable byte and the threshold in fixed point with fifteen
fractional bits.
-/

namespace Predistortion

/-- The clipper of the channels in a mask. -/
structure Clipper where
  /-- The channels. -/
  mask : ChannelMask
  /-- The clipper clips. -/
  enable : Bool
  /-- The threshold as a fraction of full scale. -/
  threshold : Binary32
deriving DecidableEq, Inhabited

namespace Clipper

/-- The most entries of one call. -/
def maxEntries : Nat := 4

/-- The width of the clip counter. -/
def counterMask : UInt32 := 0xFFFFFF

/-- Checks an entry. The threshold matters only when some channel is to clip at it. -/
def check (k : Clipper) : Except Error Unit :=
  if k.enable && !k.mask.isEmpty && !k.threshold.inUnitInterval then
    .error (.invalid "hardClipper.threshold" k.threshold.text "must be within 0.0..=1.0")
  else
    .ok ()

/-- Checks the entries of one call, their count first. -/
def checkAll (entries : List Clipper) : Except Error Unit := do
  if entries.length > maxEntries then
    throw (.invalid "numHardClipperConfigs" (toString entries.length)
      s!"must be 1..={maxEntries}")
  entries.forM check

/-- The length of a record. -/
def recordLength : Nat := 3

/-- The record of an entry. -/
def encode (k : Clipper) : Bytes :=
  (if k.enable then 1 else 0) :: LittleEndian.ofUInt16 k.threshold.toQ15

/-- The entry of one channel that a record holds. -/
def decode (c : Channel) (b : Bytes) : Clipper where
  mask := ChannelMask.singleton c
  enable := b.byteAt 0 != 0
  threshold := Binary32.ofQ15 (LittleEndian.uint16At b 1)

end Clipper

end Predistortion
