import Predistortion.Capture.Record

/-!
# Reading the capture record back

Whatever is written into a capture record is read from it. The coded fields are read from their own
numbers (`Size.ofCode_code` and its like), the packed bytes give back what was packed into them, and
so each part is read back from its own form (`Part.decode_encode`).

In the record a part stands where it belongs, whatever the other parts are
(`Part.exists_encode_set`). So it can be read and replaced on its own (`Part.decode_window`,
`Part.overwrite_encode`), which is how the calls that write one part do it. Main statement:
`Config.decode_encode`, for the whole record.
-/

namespace Predistortion.Capture

open LittleEndian

/-- A 16-bit word is read where it was written. -/
theorem uint16At_of_window {b : Bytes} {offset : Nat} {w : UInt16}
    (h : b.window offset 2 = ofUInt16 w) : uint16At b offset = w := by
  rw [uint16At, h, decode_ofUInt16, UInt16.ofNat_toNat]

/-- A 32-bit word is read where it was written. -/
theorem uint32At_of_window {b : Bytes} {offset : Nat} {w : UInt32}
    (h : b.window offset 4 = ofUInt32 w) : uint32At b offset = w := by
  rw [uint32At, h, decode_ofUInt32, UInt32.ofNat_toNat]

/-- A record that is long enough is not refused for its length. What stands behind the record does
not matter. -/
theorem requireLength_of_le {field : String} {needed : Nat} {b : Bytes} (h : needed ≤ b.length) :
    requireLength field needed b = .ok () := if_neg (by omega)

/-! ## Coded fields -/

/-- A unit of pulses is read from its own number. -/
@[simp] theorem PulseUnit.ofRaw_raw (u : PulseUnit) : ofRaw u.raw = .ok u := by cases u <;> rfl

/-- A band of powers is read from its own number. -/
@[simp] theorem PowerBand.ofRaw_raw (b : PowerBand) : ofRaw b.raw = .ok b := by cases b <;> rfl

/-- A direction of a band is read from its own number. -/
@[simp] theorem BandDirection.ofRaw_raw (d : BandDirection) : ofRaw d.raw = .ok d := by
  cases d <;> rfl

/-- An input of the peak search is read from its own number. -/
@[simp] theorem PeakInput.ofRaw_raw (i : PeakInput) : ofRaw i.raw = .ok i := by cases i <;> rfl

/-- A size is read from its own code. -/
@[simp] theorem Size.ofCode_code (s : Size) : Size.ofCode s.code = .ok s := by cases s <;> rfl

/-! ## Packed bytes -/

variable (trigger : Trigger) (tx : TxTap) (alt : AltTap)

/-- The flag byte carries the tap of the transmit signal, whatever the trigger and the other tap
are. -/
theorem txTapOfFlags_packFlags : txTapOfFlags (packFlags trigger tx alt) = tx := by
  cases trigger <;> cases tx <;> cases alt <;> rfl

/-- The flag byte carries the tap of the alternate signal as well. -/
theorem altTapOfFlags_packFlags : altTapOfFlags (packFlags trigger tx alt) = alt := by
  cases trigger <;> cases tx <;> cases alt <;> rfl

/-- The peak byte and the flag byte together carry the trigger. -/
theorem triggerOfFlags_packFlags :
    triggerOfFlags (if trigger.isPeak then 1 else 0) (packFlags trigger tx alt) = trigger := by
  cases trigger <;> cases tx <;> cases alt <;> rfl

/-- The filter byte carries both of its flags. -/
theorem unpackFilter_packFilter (enable bypass : Bool) :
    unpackFilter (packFilter enable bypass) = (enable, bypass) := by
  cases enable <;> cases bypass <;> rfl

/-! ## Parts -/

/-- A threshold has the same length whatever its values are. -/
@[simp] theorem Threshold.length_encode (t : Threshold) : t.encode.length = recordLength := by
  simp [encode, recordLength]

/-- The level part has the same length whatever its values are. -/
@[simp] theorem Level.length_encode (l : Level) : l.encode.length = recordLength := by
  simp [encode, recordLength]

/-- The control part has the same length whatever its values are. -/
@[simp] theorem Control.length_encode (c : Control) : c.encode.length = recordLength := by
  simp [encode, recordLength]

/-- A threshold is read back as it was written. Its unit is the only field that could be refused,
and it is read from its own number. -/
theorem Threshold.decode_encode (t : Threshold) : Threshold.decode t.encode = .ok t := by
  have hlength : requireLength "pwrThresh" recordLength t.encode = .ok () :=
    requireLength_of_le (by simp)
  have hunit : t.encode.byteAt 2 = t.unit.raw := rfl
  have hrise : uint16At t.encode 4 = t.riseWidth := uint16At_of_window rfl
  have hfall : uint16At t.encode 6 = t.fallWidth := uint16At_of_window rfl
  unfold decode
  rw [hlength, hunit, PulseUnit.ofRaw_raw, hrise, hfall]
  rfl

/-- The level part is read back as it was written. -/
theorem Level.decode_encode (l : Level) : Level.decode l.encode = .ok l := by
  have hlength : requireLength "captureLevel" recordLength l.encode = .ok () :=
    requireLength_of_le (by simp)
  have hdirection : l.encode.byteAt 2 = l.direction.raw := rfl
  have hband : l.encode.byteAt 3 = l.band.raw := rfl
  have htimeout : uint16At l.encode 0 = l.timeout := uint16At_of_window rfl
  unfold decode
  rw [hlength, hdirection, hband, BandDirection.ofRaw_raw, PowerBand.ofRaw_raw, htimeout]
  rfl

/-- The control part is read back as it was written. Its trigger is coded in two bytes, which are
read together. -/
theorem Control.decode_encode (c : Control) : Control.decode c.encode = .ok c := by
  have hlength : requireLength "captureCtrl" recordLength c.encode = .ok () :=
    requireLength_of_le (by simp)
  have hsize : c.encode.byteAt 14 = c.size.code := rfl
  have hchannel : c.encode.byteAt 12 = c.channel.code := rfl
  have hinput : c.encode.byteAt 6 = c.peak.input.raw := rfl
  have hpeak : c.encode.byteAt 4 = if c.trigger.isPeak then 1 else 0 := rfl
  have hflags : c.encode.byteAt 13 = packFlags c.trigger c.txTap c.altTap := rfl
  have hfilter : c.encode.byteAt 7 = packFilter c.peak.filterEnable c.peak.filterBypass := rfl
  have hwindow : uint32At c.encode 8 = c.peak.windowCount := uint32At_of_window rfl
  have hextended : uint32At c.encode 0 = c.peak.extendedWindowUs := uint32At_of_window rfl
  have halign : uint16At c.encode 20 = c.alignDelay := uint16At_of_window rfl
  have hdelay : uint32At c.encode 16 = c.captureDelay := uint32At_of_window rfl
  unfold decode
  dsimp only
  rw [hlength, hsize, hchannel, hinput, hpeak, hflags, hfilter, hwindow, hextended, halign, hdelay,
    Size.ofCode_code, Channel.ofIndex_code, PeakInput.ofRaw_raw, txTapOfFlags_packFlags,
    altTapOfFlags_packFlags, triggerOfFlags_packFlags, unpackFilter_packFilter]
  rfl

/-! ## The whole record and its parts -/

/-- A part of the record that has a form of its own. -/
inductive Part where
  /-- The control part. -/
  | control
  /-- The level part. -/
  | level
  /-- The thresholds of a boundary. -/
  | threshold (boundary : Boundary)
deriving DecidableEq

namespace Part

/-- What the part holds. -/
@[reducible] def Value : Part → Type
  | .control => Control
  | .level => Level
  | .threshold _ => Threshold

/-- Where the part starts. -/
def offset : Part → UInt16
  | .control => Control.offset
  | .level => Level.offset
  | .threshold boundary => boundary.offset

/-- The length of the part. -/
def length : Part → Nat
  | .control => Control.recordLength
  | .level => Level.recordLength
  | .threshold _ => Threshold.recordLength

/-- The form of the part. -/
def encode : (p : Part) → p.Value → Bytes
  | .control, v => Control.encode v
  | .level, v => Level.encode v
  | .threshold _, v => Threshold.encode v

/-- Reads the part. -/
def decode : (p : Part) → Bytes → Except Error p.Value
  | .control, b => Control.decode b
  | .level, b => Level.decode b
  | .threshold _, b => Threshold.decode b

/-- The part of a configuration. -/
def get (c : Config) : (p : Part) → p.Value
  | .control => c.control
  | .level => c.level
  | .threshold boundary => c.thresholds.get boundary

/-- The configuration with the part replaced. -/
def set (c : Config) : (p : Part) → p.Value → Config
  | .control, v => { c with control := v }
  | .level, v => { c with level := v }
  | .threshold boundary, v => { c with thresholds := c.thresholds.set boundary v }

variable (c : Config) (p : Part)

/-- A part fills the bytes of the record that are set aside for it, whatever it holds. -/
@[simp] theorem length_encode (v : p.Value) : (p.encode v).length = p.length := by
  cases p with
  | control => exact Control.length_encode v
  | level => exact Level.length_encode v
  | threshold boundary => exact Threshold.length_encode v

/-- A part is read back as it was written, one case for each form that a part may have. What follows
in this namespace is about all parts at once. -/
theorem decode_encode (v : p.Value) : p.decode (p.encode v) = .ok v := by
  cases p with
  | control => exact Control.decode_encode v
  | level => exact Level.decode_encode v
  | threshold boundary => exact Threshold.decode_encode v

/-- Every part lies within the record, so that to write it does not make the record longer. -/
theorem fits : p.offset.toNat + p.length ≤ Config.recordLength := by
  cases p with
  | threshold boundary => cases boundary <;> decide
  | _ => decide

/-- To replace a part by itself changes nothing. -/
@[simp] theorem set_get : set c p (get c p) = c := by
  cases p with
  | threshold boundary => cases boundary <;> rfl
  | _ => rfl

/-- The form of a part is in the record where the part starts, and the rest of the record does not
depend on it. -/
theorem exists_encode_set : ∃ a b, a.length = p.offset.toNat ∧
    ∀ v, (set c p v).encode = a ++ (p.encode v ++ b) := by
  let delays := [c.pathDelay.fifo, c.pathDelay.interpolation] ++ ofUInt16 c.envelopeDecay
  let tail := c.level.encode ++ Bytes.zeros 4 ++ c.control.encode
  have hdelays : delays.length = 4 := by simp [delays]
  cases p with
  | control =>
    refine ⟨delays ++ c.thresholds.between01.encode ++ c.thresholds.between12.encode ++
      c.thresholds.between23.encode ++ c.level.encode ++ Bytes.zeros 4, [], ?_, fun v => ?_⟩
    · simp [hdelays, Threshold.recordLength, Level.recordLength, offset, Control.offset]
    · simp [Config.encode, set, encode, delays]
  | level =>
    refine ⟨delays ++ c.thresholds.between01.encode ++ c.thresholds.between12.encode ++
      c.thresholds.between23.encode, Bytes.zeros 4 ++ c.control.encode, ?_, fun v => ?_⟩
    · simp [hdelays, Threshold.recordLength, offset, Level.offset]
    · simp [Config.encode, set, encode, delays]
  | threshold boundary =>
    cases boundary with
    | between01 =>
      refine ⟨delays, c.thresholds.between12.encode ++ c.thresholds.between23.encode ++ tail,
        ?_, fun v => ?_⟩
      · simp [hdelays, offset, Boundary.offset]
      · simp [Config.encode, set, encode, delays, tail, Thresholds.set]
    | between12 =>
      refine ⟨delays ++ c.thresholds.between01.encode, c.thresholds.between23.encode ++ tail,
        ?_, fun v => ?_⟩
      · simp [hdelays, Threshold.recordLength, offset, Boundary.offset]
      · simp [Config.encode, set, encode, delays, tail, Thresholds.set]
    | between23 =>
      refine ⟨delays ++ c.thresholds.between01.encode ++ c.thresholds.between12.encode, tail,
        ?_, fun v => ?_⟩
      · simp [hdelays, Threshold.recordLength, offset, Boundary.offset]
      · simp [Config.encode, set, encode, delays, tail, Thresholds.set]

/-- The window of a part shows its form, whatever the other parts are. -/
theorem window_encode : c.encode.window p.offset.toNat p.length = p.encode (get c p) := by
  obtain ⟨a, b, ha, hset⟩ := exists_encode_set c p
  have hrecord := hset (get c p)
  rw [set_get] at hrecord
  rw [hrecord, ← ha, ← p.length_encode (get c p)]
  exact Bytes.window_append a _ b

/-- A part is read back from the record. -/
theorem decode_window :
    p.decode (c.encode.window p.offset.toNat p.length) = .ok (get c p) := by
  rw [window_encode, decode_encode]

/-- To write the form of a part replaces the part. The bytes of the others are not touched. -/
theorem overwrite_encode (v : p.Value) :
    c.encode.overwrite p.offset.toNat (p.encode v) = (set c p v).encode := by
  obtain ⟨a, b, ha, hset⟩ := exists_encode_set c p
  have hrecord := hset (get c p)
  rw [set_get] at hrecord
  rw [hrecord, hset v, ← ha]
  exact Bytes.overwrite_append a b (by simp)

end Part

/-- The record has the same length whatever the configuration is. -/
@[simp] theorem Config.length_encode (c : Config) : c.encode.length = recordLength := by
  simp [encode, recordLength, Threshold.recordLength, Level.recordLength, Control.recordLength]

/-- A record is read back as it was written, with the pins that are added to it. Each part is found
in its window of the record. -/
theorem Config.decode_encode (c : Config) :
    Config.decode c.encode c.triggerPin c.donePin = .ok c := by
  have hlength : requireLength "captureConfig" recordLength c.encode = .ok () :=
    requireLength_of_le (by simp)
  have hthreshold (boundary : Boundary) : Threshold.decode
      (c.encode.window boundary.offset.toNat Threshold.recordLength) =
        .ok (c.thresholds.get boundary) := Part.decode_window c (.threshold boundary)
  have hcontrol : Control.decode
      (c.encode.window Control.offset.toNat Control.recordLength) = .ok c.control :=
    Part.decode_window c .control
  have hlevel : Level.decode
      (c.encode.window Level.offset.toNat Level.recordLength) = .ok c.level :=
    Part.decode_window c .level
  have hdecay : uint16At c.encode 2 = c.envelopeDecay :=
    uint16At_of_window (by simp [encode, Bytes.window, Bytes.padTo, Bytes.zeros])
  unfold decode
  dsimp only
  rw [hlength, hthreshold, hthreshold, hthreshold, hcontrol, hlevel, hdecay]
  rfl

end Predistortion.Capture
