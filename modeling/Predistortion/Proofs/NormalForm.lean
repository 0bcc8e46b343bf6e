import Predistortion.Proofs.Acceptance

/-!
# The normal form of a capture record

A record that is accepted may carry what its decoder does not look at: reserved bytes, and bits of
the packed bytes that mean nothing. Writing the configuration again clears them, and codes the
trigger in the one way in which it is written. `Config.normalForm` says byte by byte what comes out.

Each part of the record is read from a window and written as the bytes of that window, up to what is
cleared (`Threshold.encode_of_decode`, `Level.encode_of_decode`, `Control.encode_of_decode`); the
record is put together from them. Main statement: `capture_record_codec`, with the round trip and
with the exact conditions under which a record is accepted.
-/

namespace Predistortion

open LittleEndian

variable {α β : Type}

/-! ## Words -/

section words

variable (b : Bytes) (i : Nat)

/-- A number is read from a window of as many bytes as it is written to, so it fits into them. -/
theorem decode_window_lt (n : Nat) : decode (b.window i n) < Nat.pow 256 n := by
  have hlt := decode_lt (b.window i n)
  rwa [Bytes.length_window] at hlt

/-- A number that was read is written as it was, byte by byte and for every width. The lemmas on
halfwords and words are two cases of this. -/
theorem encode_decode_window (n : Nat) :
    encode n (decode (b.window i n)) = (List.range n).map fun j => b.byteAt (i + j) := by
  have hread : encode n (decode (b.window i n)) = b.window i n := by
    simpa using encode_decode (b.window i n)
  rw [hread]
  refine Bytes.ext_byteAt (by simp) fun j hj => ?_
  rw [Bytes.length_window] at hj
  rw [Bytes.byteAt_window hj]
  simp [Bytes.byteAt, hj]

/-- A halfword that was read is written as the two bytes that it was read from. -/
theorem ofUInt16_uint16At : ofUInt16 (uint16At b i) = [b.byteAt i, b.byteAt (i + 1)] := by
  rw [ofUInt16, uint16At, UInt16.toNat_ofNat_of_lt' (decode_window_lt b i 2), encode_decode_window]
  rfl

/-- A word that was read is written as the four bytes that it was read from. -/
theorem ofUInt32_uint32At : ofUInt32 (uint32At b i) =
    [b.byteAt i, b.byteAt (i + 1), b.byteAt (i + 2), b.byteAt (i + 3)] := by
  rw [ofUInt32, uint32At, UInt32.toNat_ofNat_of_lt' (decode_window_lt b i 4), encode_decode_window]
  rfl

end words

/-! ## Coded fields -/

/-- A channel is written with the number from which it was read. -/
theorem Channel.code_of_ofIndex {r : UInt8} {c : Channel} (h : ofIndex r = .ok c) : c.code = r := by
  rw [ofIndex_eq_ofTable] at h
  exact code_of_ofTable (by decide) h

namespace Capture

/-- A unit of pulses is written with the number from which it was read. -/
theorem PulseUnit.raw_of_ofRaw {r : UInt8} {u : PulseUnit} (h : ofRaw r = .ok u) : u.raw = r := by
  unfold ofRaw at h
  grind [raw]

/-- A band of powers is written with the number from which it was read. -/
theorem PowerBand.raw_of_ofRaw {r : UInt8} {p : PowerBand} (h : ofRaw r = .ok p) : p.raw = r := by
  unfold ofRaw at h
  grind [raw]

/-- A direction of a band is written with the number from which it was read. -/
theorem BandDirection.raw_of_ofRaw {r : UInt8} {d : BandDirection} (h : ofRaw r = .ok d) :
    d.raw = r := by
  unfold ofRaw at h
  grind [raw]

/-- An input of the peak search is written with the number from which it was read. -/
theorem PeakInput.raw_of_ofRaw {r : UInt8} {p : PeakInput} (h : ofRaw r = .ok p) : p.raw = r := by
  unfold ofRaw at h
  grind [raw]

/-- A size is written with the code from which it was read. -/
theorem Size.code_of_ofCode {r : UInt8} {s : Size} (h : ofCode r = .ok s) : s.code = r := by
  rw [ofCode_eq_ofTable] at h
  exact code_of_ofTable (by decide) h

/-! ## Packed bytes -/

/-- The filter byte keeps its two bits. The other six mean nothing and are cleared. -/
theorem packFilter_unpackFilter (r : UInt8) :
    packFilter (unpackFilter r).1 (unpackFilter r).2 = r &&& 0x03 := by
  revert r
  exact forall_byte (by decide +kernel)

/-- The flag byte of a trigger that keeps the two bits of the observation points. -/
def normalFlags (trigger : Trigger) (flags : UInt8) : UInt8 :=
  (flags &&& 0x06) |||
  (if trigger = .powerLevel then 0x01 else 0) |||
  (if trigger ≠ .tddTxOn then 0x08 else 0) |||
  (if trigger = .extendedPeak then 0x40 else 0)

/-- The flag byte that is written keeps the two bits of the taps as they were read. All its other
bits come from the trigger. -/
theorem packFlags_taps (trigger : Trigger) (flags : UInt8) :
    packFlags trigger (txTapOfFlags flags) (altTapOfFlags flags) = normalFlags trigger flags := by
  revert flags
  apply forall_byte
  cases trigger <;> decide +kernel

/-! ## Parts -/

section parts

variable {b : Bytes} {i : Nat}

/-- A threshold is written as the bytes of the window from which it was read. Only its reserved byte
is cleared. -/
theorem Threshold.encode_of_decode {t : Threshold}
    (h : decode (b.window i recordLength) = .ok t) :
    t.encode = [b.byteAt i, b.byteAt (i + 1), b.byteAt (i + 2), 0, b.byteAt (i + 4),
      b.byteAt (i + 5), b.byteAt (i + 6), b.byteAt (i + 7)] := by
  obtain ⟨-, -, h⟩ := exists_of_bind_eq_ok h
  obtain ⟨unit, hunit, h⟩ := exists_of_bind_eq_ok h
  cases h
  unfold encode
  rw [PulseUnit.raw_of_ofRaw hunit, ofUInt16_uint16At, ofUInt16_uint16At]
  simp [Bytes.byteAt_window, recordLength]

/-- A level is written as the bytes of the window from which it was read, all of which mean
something. -/
theorem Level.encode_of_decode {l : Level} (h : decode (b.window i recordLength) = .ok l) :
    l.encode = [b.byteAt i, b.byteAt (i + 1), b.byteAt (i + 2), b.byteAt (i + 3)] := by
  obtain ⟨-, -, h⟩ := exists_of_bind_eq_ok h
  obtain ⟨direction, hdirection, h⟩ := exists_of_bind_eq_ok h
  obtain ⟨band, hband, h⟩ := exists_of_bind_eq_ok h
  cases h
  unfold encode
  rw [BandDirection.raw_of_ofRaw hdirection, PowerBand.raw_of_ofRaw hband, ofUInt16_uint16At]
  simp [Bytes.byteAt_window, recordLength]

/-- The control part is written as the bytes of its window, up to four: the trigger is coded in the
one way in which it is written, the filter and the flags lose the bits that mean nothing, and the
reserved byte is cleared. -/
theorem Control.encode_of_decode {c : Control} (h : decode (b.window i recordLength) = .ok c) :
    c.encode = [b.byteAt i, b.byteAt (i + 1), b.byteAt (i + 2), b.byteAt (i + 3),
      if c.trigger.isPeak then 1 else 0, b.byteAt (i + 5), b.byteAt (i + 6),
      b.byteAt (i + 7) &&& 0x03, b.byteAt (i + 8), b.byteAt (i + 9), b.byteAt (i + 10),
      b.byteAt (i + 11), b.byteAt (i + 12), normalFlags c.trigger (b.byteAt (i + 13)),
      b.byteAt (i + 14), 0, b.byteAt (i + 16), b.byteAt (i + 17), b.byteAt (i + 18),
      b.byteAt (i + 19), b.byteAt (i + 20), b.byteAt (i + 21)] := by
  obtain ⟨-, -, h⟩ := exists_of_bind_eq_ok h
  obtain ⟨size, hsize, h⟩ := exists_of_bind_eq_ok h
  obtain ⟨channel, hchannel, h⟩ := exists_of_bind_eq_ok h
  obtain ⟨input, hinput, h⟩ := exists_of_bind_eq_ok h
  cases h
  unfold encode
  rw [Size.code_of_ofCode hsize, Channel.code_of_ofIndex hchannel, PeakInput.raw_of_ofRaw hinput,
    packFilter_unpackFilter, packFlags_taps, ofUInt32_uint32At, ofUInt32_uint32At,
    ofUInt32_uint32At, ofUInt16_uint16At]
  simp [Bytes.byteAt_window, recordLength]

end parts

/-! ## The whole record -/

/-- The record that is written again: the bytes without what means nothing, for the trigger that was
read. -/
def Config.normalForm (b : Bytes) (trigger : Trigger) : Bytes :=
  (List.range 58).map fun i =>
    if i ∈ [7, 15, 23, 32, 33, 34, 35, 51] then 0
    else if i = 40 then if trigger.isPeak then 1 else 0
    else if i = 43 then b.byteAt 43 &&& 0x03
    else if i = 49 then normalFlags trigger (b.byteAt 49)
    else b.byteAt i

/-- A record that is accepted is written again as its normal form, whatever pins it is read with.
The parts are put together from what each of them is written as. -/
theorem Config.encode_of_decode {b : Bytes} {triggerPin donePin : Pin} {c : Config}
    (h : decode b triggerPin donePin = .ok c) : c.encode = normalForm b c.control.trigger := by
  obtain ⟨-, -, h⟩ := exists_of_bind_eq_ok h
  obtain ⟨between01, h01, h⟩ := exists_of_bind_eq_ok h
  obtain ⟨between12, h12, h⟩ := exists_of_bind_eq_ok h
  obtain ⟨between23, h23, h⟩ := exists_of_bind_eq_ok h
  obtain ⟨control, hcontrol, h⟩ := exists_of_bind_eq_ok h
  obtain ⟨level, hlevel, h⟩ := exists_of_bind_eq_ok h
  cases h
  unfold encode
  dsimp only
  rw [Threshold.encode_of_decode h01, Threshold.encode_of_decode h12,
    Threshold.encode_of_decode h23, Level.encode_of_decode hlevel,
    Control.encode_of_decode hcontrol, ofUInt16_uint16At]
  rfl

/-- What is asked of a capture record, in terms of its bytes. -/
theorem Config.forall_met_iff {b : Bytes} : (∀ d ∈ demands, d.met b = true) ↔
    58 ≤ b.length ∧ b.byteAt 6 ≤ 3 ∧ b.byteAt 14 ≤ 3 ∧ b.byteAt 22 ≤ 3 ∧ b.byteAt 50 ≤ 7 ∧
      b.byteAt 48 ≤ 3 ∧ b.byteAt 42 ≤ 1 ∧
      (b.byteAt 30 = 0 ∨ b.byteAt 30 = 2 ∨ b.byteAt 30 = 3) ∧ b.byteAt 31 ≤ 3 := by
  simp [demands, Demand.length, Demand.code, or_assoc]

/-- The record of a capture configuration, in both directions. Every configuration is read back from
its record. A byte string is accepted exactly if it is long enough and its coded bytes are codes; if
not, the first demand that it does not meet is reported. A record that was accepted is written again
in its normal form. -/
theorem capture_record_codec :
    (∀ c : Config, Config.decode c.encode c.triggerPin c.donePin = .ok c) ∧
    (∀ (b : Bytes) (triggerPin donePin : Pin),
      ((∃ c, Config.decode b triggerPin donePin = .ok c) ↔
        58 ≤ b.length ∧ b.byteAt 6 ≤ 3 ∧ b.byteAt 14 ≤ 3 ∧ b.byteAt 22 ≤ 3 ∧ b.byteAt 50 ≤ 7 ∧
          b.byteAt 48 ≤ 3 ∧ b.byteAt 42 ≤ 1 ∧
          (b.byteAt 30 = 0 ∨ b.byteAt 30 = 2 ∨ b.byteAt 30 = 3) ∧ b.byteAt 31 ≤ 3) ∧
      (∀ e, Config.decode b triggerPin donePin = .error e ↔
        firstReport Config.demands b = some e) ∧
      (∀ c, Config.decode b triggerPin donePin = .ok c →
        c.encode = Config.normalForm b c.control.trigger)) := by
  refine ⟨Config.decode_encode, fun b triggerPin donePin => ⟨?_, fun e => ?_, fun c hc => ?_⟩⟩
  · rw [← errorOf_eq_none, errorOf_decodeConfig, firstReport_eq_none, Config.forall_met_iff]
  · rw [← errorOf_eq_some, errorOf_decodeConfig]
  · exact Config.encode_of_decode hc

/-- A record with stray bits in all places: the reserved bytes, the peak byte and the flags are
cleaned. -/
theorem capture_record_codec_strayBits :
    ∃ c, Config.decode (List.replicate 42 3 ++ [1] ++ List.replicate 17 3)
      .unassigned .unassigned = .ok c ∧
      c.encode = List.replicate 7 3 ++ [0] ++ List.replicate 7 3 ++ [0] ++ List.replicate 7 3 ++
        [0] ++ List.replicate 8 3 ++ [0, 0, 0, 0] ++ List.replicate 4 3 ++ [0, 3, 1] ++
        List.replicate 6 3 ++ [2, 3, 0] ++ List.replicate 6 3 := by
  have haccepted := ((capture_record_codec.2 (List.replicate 42 3 ++ [1] ++ List.replicate 17 3)
    .unassigned .unassigned).1).2 (by decide)
  obtain ⟨c, hc⟩ := haccepted
  refine ⟨c, hc, ?_⟩
  rw [(capture_record_codec.2 _ _ _).2.2 c hc]
  cases hc
  rfl

end Capture

end Predistortion
