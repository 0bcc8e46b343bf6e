import Predistortion.Capture.Basic
import Predistortion.Bytes.LittleEndian

/-!
# The capture record

The configuration of a capture is one little-endian record of 58 bytes:

| bytes | field | bytes | field |
|---|---|---|---|
| 0 | queue delay | 36..40 | extended window |
| 1 | interpolation index | 40 | trigger is a peak search |
| 2..4 | envelope decay | 41 | peak decay |
| 4..12 | threshold 01 | 42 | peak input |
| 12..20 | threshold 12 | 43 | filter bits |
| 20..28 | threshold 23 | 44..48 | peak window |
| 28..30 | level timeout | 48 | channel |
| 30 | band direction | 49 | flags |
| 31 | band | 50 | size code |
| 32..36 | reserved | 52..56, 56..58 | capture delay, alignment delay |

The pins are kept elsewhere. The control, level and threshold parts are also written on their own,
so each has a form of its own and the whole record is put together from them. A decoder looks at the
length first and then at the coded fields in a fixed order, and reports the first one that is not a
code.
-/

namespace Predistortion.Capture

open LittleEndian

/-- Refuses a record that is shorter than its format. -/
def requireLength (field : String) (needed : Nat) (b : Bytes) : Except Error Unit :=
  if b.length < needed then
    .error (.invalid field (toString b.length) s!"record needs {needed} bytes")
  else
    .ok ()

/-! ## Packed bytes -/

/-- The flag byte. Bit 0 is set for a power-level trigger, bit 1 for observation before the
actuator, bit 2 for alternate observation before the crest-factor reduction, bit 3 for every trigger
except the time-division edge, bit 6 for an extended peak search. -/
def packFlags (trigger : Trigger) (tx : TxTap) (alt : AltTap) : UInt8 :=
  (trigger.raw &&& 0x01) |||
  (if tx = .preActuator then 0x02 else 0) |||
  (if alt = .preCfr then 0x04 else 0) |||
  (if trigger ≠ .tddTxOn then 0x08 else 0) |||
  (if trigger = .extendedPeak then 0x40 else 0)

/-- The transmit observation point of a flag byte. -/
def txTapOfFlags (flags : UInt8) : TxTap :=
  if flags &&& 0x02 ≠ 0 then .preActuator else .postActuator

/-- The alternate observation point of a flag byte. -/
def altTapOfFlags (flags : UInt8) : AltTap :=
  if flags &&& 0x04 ≠ 0 then .preCfr else .actuator

/-- The trigger that a peak byte and a flag byte carry. The extended-peak bit comes first, then the
peak byte, then the time-division bit, then bit 0. -/
def triggerOfFlags (peak flags : UInt8) : Trigger :=
  if flags &&& 0x40 ≠ 0 then .extendedPeak
  else if peak = 1 then .peak
  else if flags &&& 0x08 = 0 then .tddTxOn
  else if flags &&& 0x01 ≠ 0 then .powerLevel
  else .immediate

/-- The filter byte: bit 0 enables, bit 1 bypasses. -/
def packFilter (enable bypass : Bool) : UInt8 :=
  (if enable then 0x01 else 0) ||| (if bypass then 0x02 else 0)

/-- The enable and bypass bits of a filter byte. -/
def unpackFilter (b : UInt8) : Bool × Bool :=
  (b &&& 0x01 != 0, b &&& 0x02 != 0)

/-! ## Thresholds -/

/-- The length of a threshold part. -/
def Threshold.recordLength : Nat := 8

/-- Where the threshold part of a boundary starts. -/
def Boundary.offset : Boundary → UInt16
  | .between01 => 0x04
  | .between12 => 0x0C
  | .between23 => 0x14

/-- The form of a threshold part. -/
def Threshold.encode (t : Threshold) : Bytes :=
  [t.riseLimit, t.fallLimit, t.unit.raw, 0] ++ ofUInt16 t.riseWidth ++ ofUInt16 t.fallWidth

/-- Reads a threshold part. -/
def Threshold.decode (b : Bytes) : Except Error Threshold := do
  requireLength "pwrThresh" recordLength b
  let unit ← PulseUnit.ofRaw (b.byteAt 2)
  return {
    riseLimit := b.byteAt 0
    fallLimit := b.byteAt 1
    unit
    riseWidth := uint16At b 4
    fallWidth := uint16At b 6 }

/-! ## Level -/

/-- The length of the level part. -/
def Level.recordLength : Nat := 4

/-- Where the level part starts. -/
def Level.offset : UInt16 := 0x1C

/-- The form of the level part. -/
def Level.encode (l : Level) : Bytes :=
  ofUInt16 l.timeout ++ [l.direction.raw, l.band.raw]

/-- Reads the level part. -/
def Level.decode (b : Bytes) : Except Error Level := do
  requireLength "captureLevel" recordLength b
  let direction ← BandDirection.ofRaw (b.byteAt 2)
  let band ← PowerBand.ofRaw (b.byteAt 3)
  return { timeout := uint16At b 0, band, direction }

/-! ## Control -/

/-- The length of the control part. -/
def Control.recordLength : Nat := 22

/-- Where the control part starts. -/
def Control.offset : UInt16 := 0x24

/-- The form of the control part. -/
def Control.encode (c : Control) : Bytes :=
  ofUInt32 c.peak.extendedWindowUs ++
  [if c.trigger.isPeak then 1 else 0, c.peak.decay, c.peak.input.raw,
    packFilter c.peak.filterEnable c.peak.filterBypass] ++
  ofUInt32 c.peak.windowCount ++
  [c.channel.code, packFlags c.trigger c.txTap c.altTap, c.size.code, 0] ++
  ofUInt32 c.captureDelay ++
  ofUInt16 c.alignDelay

/-- The size with a code, or the refusal of the code. -/
def Size.ofCode (code : UInt8) : Except Error Size :=
  match ofCode? code with
  | some s => .ok s
  | none => .error (.invalid "captureSize" (toString code.toNat) "unknown size code")

/-- Reads the control part. The size code is looked at before the channel, and the channel before
the peak input. -/
def Control.decode (b : Bytes) : Except Error Control := do
  requireLength "captureCtrl" recordLength b
  let size ← Size.ofCode (b.byteAt 14)
  let channel ← Channel.ofIndex (b.byteAt 12)
  let input ← PeakInput.ofRaw (b.byteAt 6)
  let flags := b.byteAt 13
  let filter := unpackFilter (b.byteAt 7)
  return {
    channel
    trigger := triggerOfFlags (b.byteAt 4) flags
    txTap := txTapOfFlags flags
    altTap := altTapOfFlags flags
    size
    peak := {
      decay := b.byteAt 5
      windowCount := uint32At b 8
      input
      filterEnable := filter.1
      filterBypass := filter.2
      extendedWindowUs := uint32At b 0 }
    alignDelay := uint16At b 20
    captureDelay := uint32At b 16 }

/-! ## The whole record -/

/-- The length of the record. -/
def Config.recordLength : Nat := 58

/-- The form of the record; the pins are not part of it. -/
def Config.encode (c : Config) : Bytes :=
  [c.pathDelay.fifo, c.pathDelay.interpolation] ++ ofUInt16 c.envelopeDecay ++
  c.thresholds.between01.encode ++ c.thresholds.between12.encode ++
  c.thresholds.between23.encode ++
  c.level.encode ++ Bytes.zeros 4 ++ c.control.encode

/-- Reads a record and adds the pins. -/
def Config.decode (b : Bytes) (triggerPin donePin : Pin) : Except Error Config := do
  requireLength "captureConfig" recordLength b
  let threshold (boundary : Boundary) :=
    Threshold.decode (b.window boundary.offset.toNat Threshold.recordLength)
  let between01 ← threshold .between01
  let between12 ← threshold .between12
  let between23 ← threshold .between23
  let control ← Control.decode (b.window Control.offset.toNat Control.recordLength)
  let level ← Level.decode (b.window Level.offset.toNat Level.recordLength)
  return {
    triggerPin
    donePin
    pathDelay := { fifo := b.byteAt 0, interpolation := b.byteAt 1 }
    control
    level
    thresholds := { between01, between12, between23 }
    envelopeDecay := uint16At b 2 }

/-! ## Status and samples -/

/-- The length of the status record. -/
def Status.recordLength : Nat := 26

/-- Reads a status record. -/
def Status.decode (b : Bytes) : Except Error Status := do
  requireLength "detailedStatus" recordLength b
  return {
    error := DeviceCode.ofRaw (uint32At b 0)
    timeout := b.byteAt 20
    transitions := b.byteAt 21
    powerBand := b.byteAt 22
    completed := uint16At b 24 }

/-- The sample in four bytes: quadrature first, then in-phase, each little-endian. -/
def Sample.ofBytes (q0 q1 i0 i1 : UInt8) : Sample :=
  { i := (UInt16.ofNat (LittleEndian.decode [i0, i1])).toInt16
    q := (UInt16.ofNat (LittleEndian.decode [q0, q1])).toInt16 }

/-- The four bytes of a sample. -/
def Sample.toBytes (s : Sample) : Bytes :=
  ofUInt16 s.q.toUInt16 ++ ofUInt16 s.i.toUInt16

/-- The samples of a buffer; bytes that do not make up a whole sample at the end are dropped. -/
def Samples.ofBytes : Bytes → Samples
  | q0 :: q1 :: i0 :: i1 :: rest => Sample.ofBytes q0 q1 i0 i1 :: ofBytes rest
  | _ => []

/-- The bytes of a buffer that holds the samples. -/
def Samples.toBytes (s : Samples) : Bytes := s.flatMap Sample.toBytes

end Predistortion.Capture
