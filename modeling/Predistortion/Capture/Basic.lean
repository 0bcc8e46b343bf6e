import Predistortion.Channel
import Predistortion.Pin

/-!
# Captures

A capture records transmit and observation samples around a trigger. This module holds what a
capture is configured with (`Capture.Config` and its parts), the phases of its life cycle
(`Capture.Phase`), and what is read back from it (`Capture.Status`, `Capture.Samples`,
`Capture.Data`). Enumerations carry the firmware's number for each of their values.
-/

namespace Predistortion.Capture

/-! ## Choices -/

/-- What starts a capture. -/
inductive Trigger where
  /-- At once. -/
  | immediate
  /-- A transition between power bands. -/
  | powerLevel
  /-- The detected peak of the signal. -/
  | peak
  /-- The edge at which time-division transmission starts. -/
  | tddTxOn
  /-- A peak search over an extended window; the samples land in table memory. -/
  | extendedPeak
deriving DecidableEq, Inhabited

namespace Trigger

/-- The firmware's number. -/
def raw : Trigger → UInt8
  | .immediate => 0
  | .powerLevel => 1
  | .peak => 2
  | .tddTxOn => 4
  | .extendedPeak => 8

/-- The peak-search fields apply. -/
def isPeak : Trigger → Bool
  | .peak | .extendedPeak => true
  | _ => false

/-- The name shown to users. -/
def label : Trigger → String
  | .immediate => "immediate"
  | .powerLevel => "power-level"
  | .peak => "peak-detection"
  | .tddTxOn => "tdd-tx-on"
  | .extendedPeak => "extended-peak-search"

end Trigger

/-- Where the transmit signal is observed. -/
inductive TxTap where
  | postActuator | preActuator
deriving DecidableEq, Inhabited

/-- Where the alternate transmit signal is observed. -/
inductive AltTap where
  /-- At the output of the actuator. -/
  | actuator
  /-- Before the crest-factor reduction. -/
  | preCfr
deriving DecidableEq, Inhabited

/-- The count of samples in one capture. -/
inductive Size where
  | samples4096 | samples2048 | samples1024 | samples512
  | samples256 | samples128 | samples64 | samples32
deriving DecidableEq, Inhabited

namespace Size

/-- The sizes in the order of their codes. -/
def all : List Size :=
  [samples4096, samples2048, samples1024, samples512, samples256, samples128, samples64, samples32]

/-- The firmware's number. -/
def code : Size → UInt8
  | samples4096 => 0
  | samples2048 => 1
  | samples1024 => 2
  | samples512 => 3
  | samples256 => 4
  | samples128 => 5
  | samples64 => 6
  | samples32 => 7

/-- The size with a firmware number. -/
def ofCode? (code : UInt8) : Option Size := all[code.toNat]?

/-- The count of samples. -/
def samples : Size → Nat
  | samples4096 => 4096
  | samples2048 => 2048
  | samples1024 => 1024
  | samples512 => 512
  | samples256 => 256
  | samples128 => 128
  | samples64 => 64
  | samples32 => 32

/-- The pages of table memory, of 256 samples each, that the samples take. -/
def pages : Size → Nat
  | samples4096 => 16
  | samples2048 => 8
  | samples1024 => 4
  | samples512 => 2
  | samples256 | samples128 | samples64 | samples32 => 1

/-- The size with an exact count of samples. -/
def ofSamples (n : Nat) : Except Error Size :=
  match all.find? (·.samples == n) with
  | some s => .ok s
  | none => .error (.invalid "captureSize" (toString n) "must be a power of two in 32..=4096")

/-- Every size is found under its own firmware number. -/
@[simp] theorem ofCode?_code (s : Size) : ofCode? s.code = some s := by cases s <;> rfl

/-- The pages are just enough: the last one is not empty. -/
theorem samples_le_pages (s : Size) :
    s.samples ≤ 256 * s.pages ∧ 256 * (s.pages - 1) < s.samples := by
  cases s <;> decide

end Size

/-- The signal that the peak detector watches. -/
inductive PeakInput where
  /-- The input of the predistorter. -/
  | dpd
  /-- The output of the crest-factor reduction. -/
  | cfr
deriving DecidableEq, Inhabited

namespace PeakInput

/-- The firmware's number. -/
def raw : PeakInput → UInt8
  | .dpd => 0
  | .cfr => 1

/-- Decodes a firmware number. -/
def ofRaw (raw : UInt8) : Except Error PeakInput :=
  if raw = 0 then .ok .dpd
  else if raw = 1 then .ok .cfr
  else .error (.invalid "peakInputSel" (toString raw.toNat) "must be DPD (0) or CFR (1)")

end PeakInput

/-- The unit of pulse widths. -/
inductive PulseUnit where
  | x1 | x256 | x65536 | x16777216
deriving DecidableEq, Inhabited

namespace PulseUnit

/-- The firmware's number. -/
def raw : PulseUnit → UInt8
  | .x1 => 0
  | .x256 => 1
  | .x65536 => 2
  | .x16777216 => 3

/-- Decodes a firmware number. -/
def ofRaw (raw : UInt8) : Except Error PulseUnit :=
  if raw = 0 then .ok .x1
  else if raw = 1 then .ok .x256
  else if raw = 2 then .ok .x65536
  else if raw = 3 then .ok .x16777216
  else .error (.invalid "pulseWidthRes" (toString raw.toNat) "must be 0..=3")

end PulseUnit

/-- A power band. -/
inductive PowerBand where
  | band0 | band1 | band2 | band3
deriving DecidableEq, Inhabited

namespace PowerBand

/-- The firmware's number. -/
def raw : PowerBand → UInt8
  | .band0 => 0
  | .band1 => 1
  | .band2 => 2
  | .band3 => 3

/-- Decodes a firmware number. -/
def ofRaw (raw : UInt8) : Except Error PowerBand :=
  if raw = 0 then .ok .band0
  else if raw = 1 then .ok .band1
  else if raw = 2 then .ok .band2
  else if raw = 3 then .ok .band3
  else .error (.invalid "bandSel" (toString raw.toNat) "must be 0..=3")

end PowerBand

/-- The direction of a band transition that starts a capture. -/
inductive BandDirection where
  | any | ascending | descending
deriving DecidableEq, Inhabited

namespace BandDirection

/-- The firmware's number; 1 is not used. -/
def raw : BandDirection → UInt8
  | .any => 0
  | .ascending => 2
  | .descending => 3

/-- Decodes a firmware number. -/
def ofRaw (raw : UInt8) : Except Error BandDirection :=
  if raw = 0 then .ok .any
  else if raw = 2 then .ok .ascending
  else if raw = 3 then .ok .descending
  else .error (.invalid "bandDir" (toString raw.toNat) "must be 0, 2 or 3")

end BandDirection

/-- A boundary between two power bands. -/
inductive Boundary where
  | between01 | between12 | between23
deriving DecidableEq, Inhabited

/-- The boundaries in record order. -/
def Boundary.all : List Boundary := [between01, between12, between23]

/-! ## The configuration -/

/-- How a peak is searched for. -/
structure PeakSearch where
  /-- The decay of the detector, at most 15. -/
  decay : UInt8
  /-- The length of the window in samples, 24 bits. -/
  windowCount : UInt32
  /-- The signal that is watched. -/
  input : PeakInput
  /-- The filter is enabled. -/
  filterEnable : Bool
  /-- The filter is bypassed. -/
  filterBypass : Bool
  /-- The extended window in microseconds. -/
  extendedWindowUs : UInt32
deriving DecidableEq, Inhabited

/-- What is captured, and when. -/
structure Control where
  /-- The channel. -/
  channel : Channel
  /-- What starts the capture. -/
  trigger : Trigger
  /-- Where the transmit signal is observed. -/
  txTap : TxTap
  /-- Where the alternate signal is observed. -/
  altTap : AltTap
  /-- The count of samples. -/
  size : Size
  /-- How a peak is searched for. -/
  peak : PeakSearch
  /-- The delay that aligns the transmit and observation paths, at most 8191. -/
  alignDelay : UInt16
  /-- The delay from trigger to capture, 24 bits. -/
  captureDelay : UInt32
deriving DecidableEq, Inhabited

/-- The power-level trigger. -/
structure Level where
  /-- The timeout of the trigger. -/
  timeout : UInt16
  /-- The band to watch. -/
  band : PowerBand
  /-- The direction of the transition. -/
  direction : BandDirection
deriving DecidableEq, Inhabited

/-- The thresholds of one band boundary. -/
structure Threshold where
  /-- The limit of a transition from low to high. -/
  riseLimit : UInt8
  /-- The limit of a transition from high to low. -/
  fallLimit : UInt8
  /-- The unit of the pulse widths. -/
  unit : PulseUnit
  /-- The least pulse width from low to high, at most 4096. -/
  riseWidth : UInt16
  /-- The least pulse width from high to low, at most 4096. -/
  fallWidth : UInt16
deriving DecidableEq, Inhabited

/-- The thresholds of the three boundaries. -/
structure Thresholds where
  /-- Between bands 0 and 1. -/
  between01 : Threshold
  /-- Between bands 1 and 2. -/
  between12 : Threshold
  /-- Between bands 2 and 3. -/
  between23 : Threshold
deriving DecidableEq, Inhabited

namespace Thresholds

/-- The thresholds of a boundary. -/
def get (t : Thresholds) : Boundary → Threshold
  | .between01 => t.between01
  | .between12 => t.between12
  | .between23 => t.between23

/-- The thresholds with those of one boundary replaced. -/
def set (t : Thresholds) (b : Boundary) (x : Threshold) : Thresholds :=
  match b with
  | .between01 => { t with between01 := x }
  | .between12 => { t with between12 := x }
  | .between23 => { t with between23 := x }

/-- The thresholds in record order. -/
def toList (t : Thresholds) : List Threshold := Boundary.all.map t.get

/-- A threshold that is set shows at its own boundary, and the two others stay as they are. -/
theorem get_set (t : Thresholds) (b c : Boundary) (x : Threshold) :
    (t.set b x).get c = if c = b then x else t.get c := by
  cases b <;> cases c <;> rfl

end Thresholds

/-- The delay of the sample path. -/
structure PathDelay where
  /-- The delay of the queue. -/
  fifo : UInt8
  /-- The interpolation index, at most 15. -/
  interpolation : UInt8
deriving DecidableEq, Inhabited

/-- Everything that a capture is configured with. -/
structure Config where
  /-- The pin that triggers a capture, at most GPIO15, or none. -/
  triggerPin : Pin
  /-- The pin that shows completion, or none. -/
  donePin : Pin
  /-- The delay of the sample path. -/
  pathDelay : PathDelay
  /-- What is captured, and when. -/
  control : Control
  /-- The power-level trigger. -/
  level : Level
  /-- The thresholds between power bands. -/
  thresholds : Thresholds
  /-- The decay of the envelope power. -/
  envelopeDecay : UInt16
deriving DecidableEq, Inhabited

/-! ## The life cycle -/

/-- The session's view of a capture. -/
inductive Phase where
  /-- Nothing is configured, or the last capture has been consumed. -/
  | idle
  /-- The configuration is written. -/
  | configured
  /-- A capture has been asked for. -/
  | armed
  /-- The capture is complete and the flag that said so is cleared. -/
  | done
  /-- A mailbox command or the bus failed. -/
  | failed
deriving DecidableEq, Inhabited

/-- The name shown to users. -/
def Phase.label : Phase → String
  | .idle => "idle"
  | .configured => "configured"
  | .armed => "armed"
  | .done => "done"
  | .failed => "error"

/-! ## What is read back -/

/-- The status that the firmware keeps for the captures of one channel. -/
structure Status where
  /-- The firmware's error. -/
  error : DeviceCode
  /-- Not zero when the capture timed out. -/
  timeout : UInt8
  /-- The band transitions that were seen. -/
  transitions : UInt8
  /-- The present power band. -/
  powerBand : UInt8
  /-- The captures that completed. -/
  completed : UInt16
deriving DecidableEq, Inhabited

/-- One complex sample. -/
structure Sample where
  /-- The in-phase part. -/
  i : Int16
  /-- The quadrature part. -/
  q : Int16
deriving DecidableEq, Inhabited

/-- The samples of one buffer, in the order of time. -/
abbrev Samples := List Sample

/-- A capture buffer of the chip. -/
inductive Buffer where
  /-- Transmit observation. -/
  | tx
  /-- Alternate transmit observation. -/
  | txAlt
  /-- Observation receiver. -/
  | orx
deriving DecidableEq, Inhabited

/-- The samples of all buffers of one capture. -/
structure Data where
  /-- Transmit observation. -/
  tx : Samples
  /-- Alternate transmit observation; empty for an extended peak search. -/
  txAlt : Samples
  /-- Observation receiver. -/
  orx : Samples
deriving DecidableEq, Inhabited

end Predistortion.Capture
