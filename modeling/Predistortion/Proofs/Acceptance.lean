import Predistortion.Proofs.RoundTrip

/-!
# Which records are accepted

A decoder asks for several things, one after the other, and reports the first one that it does not
get. A `Demand` is one such question together with its report, and `firstReport` is what a list of
them reports of a byte string. That a decoder makes certain demands is proved along its text: a
coded field makes one (`errorOf_code`), and what follows is asked only if the earlier demands are
met (`errorOf_bind`).

Main statement, for the capture record: it is accepted exactly if it meets the demands, and
otherwise the first one that it does not meet is reported (`errorOf_decodeConfig`).
-/

namespace Predistortion

variable {α β : Type}

/-! ## Demands -/

/-- The error of a result, if it is one. -/
def errorOf : Except Error α → Option Error
  | .ok _ => none
  | .error e => some e

/-- There is no error exactly where there is a value. Statements on what is accepted start here. -/
theorem errorOf_eq_none {x : Except Error α} : errorOf x = none ↔ ∃ a, x = .ok a := by
  cases x <;> simp [errorOf]

/-- The error of a result is the one that it failed with. -/
theorem errorOf_eq_some {x : Except Error α} {e : Error} : errorOf x = some e ↔ x = .error e := by
  cases x <;> simp [errorOf]

/-- What a decoder asks of a byte string, and what it reports if it does not get it. -/
structure Demand where
  /-- The byte string has what is asked for. -/
  met : Bytes → Bool
  /-- The report, if it has not. -/
  report : Bytes → Error

namespace Demand

/-- A demand for a length. -/
def length (field requirement : String) (needed : Nat) : Demand where
  met b := needed ≤ b.length
  report b := .invalid field (toString b.length) requirement

/-- A demand for a known code at a position. -/
def code (field requirement : String) (position : Nat) (known : UInt8 → Bool) : Demand where
  met b := known (b.byteAt position)
  report b := .invalid field (toString (b.byteAt position).toNat) requirement

end Demand

/-- The report on the first demand that is not met. -/
def firstReport (demands : List Demand) (b : Bytes) : Option Error :=
  (demands.find? fun d => !d.met b).map fun d => d.report b

/-- The first demand is looked at first. If it is met then the others decide, and if not then it
alone is reported. -/
theorem firstReport_cons (d : Demand) (demands : List Demand) (b : Bytes) :
    firstReport (d :: demands) b =
      if d.met b then firstReport demands b else some (d.report b) := by
  unfold firstReport
  cases h : d.met b <;> simp [h]

/-- Of two lists of demands the second one is reported only where the first one is silent. -/
theorem firstReport_append (demands demands' : List Demand) (b : Bytes) :
    firstReport (demands ++ demands') b = (firstReport demands b).or (firstReport demands' b) := by
  simp [firstReport, List.find?_append, Option.map_or]

/-- Nothing is reported exactly if every demand is met. -/
theorem firstReport_eq_none {demands : List Demand} {b : Bytes} :
    firstReport demands b = none ↔ ∀ d ∈ demands, d.met b = true := by
  simp [firstReport]

section decoders

variable {b : Bytes}

/-- What comes later is asked only if the earlier demands are met. So the demands of a decoder are
those of its steps, in their order. -/
theorem errorOf_bind {x : Except Error α} {k : α → Except Error β} {demands demands' : List Demand}
    (hx : errorOf x = firstReport demands b) (hk : ∀ a, errorOf (k a) = firstReport demands' b) :
    errorOf (x >>= k) = firstReport (demands ++ demands') b := by
  rw [firstReport_append, ← hx]
  cases x with
  | ok a => exact hk a
  | error e => rfl

/-- A decoder that makes no demand accepts everything. -/
theorem errorOf_pure (a : α) : errorOf (pure a : Except Error α) = firstReport [] b := rfl

/-- The decoder of a coded field makes one demand, on the byte at the position of the field. -/
theorem errorOf_code {x : Except Error α} {field requirement : String} {position : Nat}
    {known : UInt8 → Bool}
    (hx : errorOf x = if known (b.byteAt position) then none
      else some (.invalid field (toString (b.byteAt position).toNat) requirement)) :
    errorOf x = firstReport [.code field requirement position known] b := by
  rw [hx, firstReport_cons]
  rfl

/-- The usual case: the codes of a field are the numbers up to a limit. The field is then read by
one of `errorOf_two`, `errorOf_four` and `errorOf_ofTable`. -/
theorem errorOf_codeUpTo {x : Except Error α} {field requirement : String} {position : Nat}
    {limit : UInt8}
    (hx : errorOf x = if b.byteAt position ≤ limit then none
      else some (.invalid field (toString (b.byteAt position).toNat) requirement)) :
    errorOf x = firstReport [.code field requirement position (· ≤ limit)] b := by
  apply errorOf_code
  simpa only [decide_eq_true_eq] using hx

end decoders

/-! ## Coded fields -/

/-- The codes up to 3, one by one, as a decoder of four values compares them. -/
theorem UInt8.le_three_iff {r : UInt8} : r ≤ 3 ↔ r = 0 ∨ r = 1 ∨ r = 2 ∨ r = 3 := by
  simp only [UInt8.le_iff_toNat_le, ← UInt8.toNat_inj, UInt8.reduceToNat]
  omega

/-- The codes up to 1, one by one, as a decoder of two values compares them. -/
theorem UInt8.le_one_iff {r : UInt8} : r ≤ 1 ↔ r = 0 ∨ r = 1 := by
  simp only [UInt8.le_iff_toNat_le, ← UInt8.toNat_inj, UInt8.reduceToNat]
  omega

/-- A code for one of two values is refused exactly if it is above 1. It is the form of a decoder
that compares with the two codes in turn. -/
theorem errorOf_two {a₀ a₁ : α} {e : Error} (r : UInt8) :
    errorOf (if r = 0 then .ok a₀ else if r = 1 then .ok a₁ else .error e) =
      if r ≤ 1 then none else some e := by
  by_cases h : r ≤ 1
  · rw [if_pos h]
    rcases UInt8.le_one_iff.1 h with rfl | rfl <;> rfl
  · have hnone := mt UInt8.le_one_iff.2 h
    simp only [not_or] at hnone
    simp [h, hnone, errorOf]

/-- A code for one of four values is refused exactly if it is above 3. Units, bands and models are
decoded in this form. -/
theorem errorOf_four {a₀ a₁ a₂ a₃ : α} {e : Error} (r : UInt8) :
    errorOf (if r = 0 then .ok a₀ else if r = 1 then .ok a₁ else if r = 2 then .ok a₂
      else if r = 3 then .ok a₃ else .error e) = if r ≤ 3 then none else some e := by
  by_cases h : r ≤ 3
  · rw [if_pos h]
    rcases UInt8.le_three_iff.1 h with rfl | rfl | rfl | rfl <;> rfl
  · have hnone := mt UInt8.le_three_iff.2 h
    simp only [not_or] at hnone
    simp [h, hnone, errorOf]

/-! ### Codes that are positions -/

/-- The value that a code stands for, if it is a position in the table of all values. -/
def ofTable (table : List α) (e : Error) (r : UInt8) : Except Error α :=
  match table[r.toNat]? with
  | some a => .ok a
  | none => .error e

section ofTable

variable {table : List α} {e : Error} {r : UInt8}

/-- A code that is looked up in a table is refused exactly if it is above the last position. All
decoders that go through a list of values come down to this. -/
theorem errorOf_ofTable {limit : UInt8} (hlength : table.length = limit.toNat + 1) :
    errorOf (ofTable table e r) = if r ≤ limit then none else some e := by
  have hposition : r ≤ limit ↔ r.toNat < table.length := by
    rw [hlength, UInt8.le_iff_toNat_le]
    omega
  unfold ofTable
  by_cases h : r ≤ limit
  · rw [if_pos h, List.getElem?_eq_getElem (hposition.1 h)]
    rfl
  · rw [if_neg h, List.getElem?_eq_none (Nat.not_lt.1 (mt hposition.2 h))]
    rfl

/-- In a table where each value stands at the position that is its code, what is found has the code
that was looked up. -/
theorem code_of_ofTable {code : α → UInt8}
    (hcodes : ∀ (n : Nat) (hn : n < table.length), code table[n] = UInt8.ofNat n) {a : α}
    (h : ofTable table e r = .ok a) : code a = r := by
  unfold ofTable at h
  split at h
  · next a' hfound =>
    obtain ⟨hlt, hget⟩ := List.getElem?_eq_some_iff.1 hfound
    cases h
    rw [← hget, hcodes _ hlt, UInt8.ofNat_toNat]
  · cases h

end ofTable

/-- The channel at a position is looked up in the table of all channels. -/
theorem Channel.ofIndex_eq_ofTable (r : UInt8) : ofIndex r =
    ofTable all (.invalid "txChannelIndex" (toString r.toNat) "must be in 0..=3") r := by
  unfold ofIndex ofIndex? ofTable
  cases all[r.toNat]? <;> rfl

namespace Capture

/-- The size with a firmware number is looked up in the table of all sizes. -/
theorem Size.ofCode_eq_ofTable (r : UInt8) : ofCode r =
    ofTable all (.invalid "captureSize" (toString r.toNat) "unknown size code") r := by
  unfold ofCode ofCode? ofTable
  cases all[r.toNat]? <;> rfl

variable (b : Bytes) (i : Nat)

/-- The check of a length is a demand of its own. The report names the field and gives the length
that was found. -/
theorem errorOf_requireLength (field : String) (needed : Nat) :
    errorOf (requireLength field needed b) =
      firstReport [.length field s!"record needs {needed} bytes" needed] b := by
  rw [firstReport_cons]
  unfold requireLength
  by_cases h : needed ≤ b.length
  · simp [Demand.length, firstReport, errorOf, h, Nat.not_lt.2 h]
  · simp [Demand.length, errorOf, h, Nat.not_le.1 h]

/-- The unit of pulse widths has four codes, which are all numbers up to 3. -/
theorem errorOf_pulseUnit : errorOf (PulseUnit.ofRaw (b.byteAt i)) =
    firstReport [.code "pulseWidthRes" "must be 0..=3" i (· ≤ 3)] b :=
  errorOf_codeUpTo (errorOf_four _)

/-- A power band has four codes, which are all numbers up to 3. -/
theorem errorOf_powerBand : errorOf (PowerBand.ofRaw (b.byteAt i)) =
    firstReport [.code "bandSel" "must be 0..=3" i (· ≤ 3)] b :=
  errorOf_codeUpTo (errorOf_four _)

/-- The direction between bands has the codes 0, 2 and 3. The gap at 1 makes this the one field
whose codes are no range, so its cases are gone through here. -/
theorem errorOf_bandDirection : errorOf (BandDirection.ofRaw (b.byteAt i)) =
    firstReport [.code "bandDir" "must be 0, 2 or 3" i fun r => r == 0 || r == 2 || r == 3] b := by
  apply errorOf_code
  unfold BandDirection.ofRaw
  by_cases h0 : b.byteAt i = 0
  · simp [h0, errorOf]
  · by_cases h2 : b.byteAt i = 2
    · simp [h2, errorOf]
    · by_cases h3 : b.byteAt i = 3
      · simp [h3, errorOf]
      · simp [h0, h2, h3, errorOf]

/-- The input of the peak detector has two codes. -/
theorem errorOf_peakInput : errorOf (PeakInput.ofRaw (b.byteAt i)) =
    firstReport [.code "peakInputSel" "must be DPD (0) or CFR (1)" i (· ≤ 1)] b :=
  errorOf_codeUpTo (errorOf_two _)

/-- A size has eight codes, which are its positions in the table of all sizes. -/
theorem errorOf_ofCode : errorOf (Size.ofCode (b.byteAt i)) =
    firstReport [.code "captureSize" "unknown size code" i (· ≤ 7)] b := by
  rw [Size.ofCode_eq_ofTable]
  exact errorOf_codeUpTo (errorOf_ofTable rfl)

/-- A channel has four codes, which are its positions in the table of all channels. -/
theorem errorOf_channel : errorOf (Channel.ofIndex (b.byteAt i)) =
    firstReport [.code "txChannelIndex" "must be in 0..=3" i (· ≤ 3)] b := by
  rw [Channel.ofIndex_eq_ofTable]
  exact errorOf_codeUpTo (errorOf_ofTable rfl)

/-! ## Parts of the capture record -/

/-- A part is looked at in a window, which is always long enough. -/
theorem requireLength_window (field : String) (n : Nat) :
    requireLength field n (b.window i n) = .ok () := requireLength_of_le (by simp)

/-- A threshold asks for its unit only, in the third byte of its part of the record. A window has
the length that is asked for, so there is no demand on it. -/
theorem errorOf_decodeThreshold :
    errorOf (Threshold.decode (b.window i Threshold.recordLength)) =
      firstReport [.code "pulseWidthRes" "must be 0..=3" (i + 2) (· ≤ 3)] b := by
  unfold Threshold.decode
  rw [requireLength_window, Bytes.byteAt_window (by decide)]
  exact errorOf_bind (errorOf_pulseUnit b _) fun _ => errorOf_pure _

/-- A power level asks for its direction and then for its band, in the last two bytes of its part.
The gains before them may be any bytes. -/
theorem errorOf_decodeLevel :
    errorOf (Level.decode (b.window i Level.recordLength)) =
      firstReport [.code "bandDir" "must be 0, 2 or 3" (i + 2) fun r => r == 0 || r == 2 || r == 3,
        .code "bandSel" "must be 0..=3" (i + 3) (· ≤ 3)] b := by
  unfold Level.decode
  rw [requireLength_window, Bytes.byteAt_window (by decide), Bytes.byteAt_window (by decide)]
  refine errorOf_bind (errorOf_bandDirection b _) fun _ => ?_
  exact errorOf_bind (errorOf_powerBand b _) fun _ => errorOf_pure _

/-- The control part asks for the size, the channel and the peak input, in this order, which is not
the order of the bytes. -/
theorem errorOf_decodeControl :
    errorOf (Control.decode (b.window i Control.recordLength)) =
      firstReport [.code "captureSize" "unknown size code" (i + 14) (· ≤ 7),
        .code "txChannelIndex" "must be in 0..=3" (i + 12) (· ≤ 3),
        .code "peakInputSel" "must be DPD (0) or CFR (1)" (i + 6) (· ≤ 1)] b := by
  have hsize : (b.window i Control.recordLength).byteAt 14 = b.byteAt (i + 14) :=
    Bytes.byteAt_window (by decide) b i
  have hchannel : (b.window i Control.recordLength).byteAt 12 = b.byteAt (i + 12) :=
    Bytes.byteAt_window (by decide) b i
  have hinput : (b.window i Control.recordLength).byteAt 6 = b.byteAt (i + 6) :=
    Bytes.byteAt_window (by decide) b i
  unfold Control.decode
  rw [requireLength_window, hsize, hchannel, hinput]
  refine errorOf_bind (errorOf_ofCode b _) fun _ => ?_
  refine errorOf_bind (errorOf_channel b _) fun _ => ?_
  exact errorOf_bind (errorOf_peakInput b _) fun _ => errorOf_pure _

/-! ## The whole record -/

/-- What is asked of a capture record, in this order. -/
def Config.demands : List Demand := [
  .length "captureConfig" "record needs 58 bytes" 58,
  .code "pulseWidthRes" "must be 0..=3" 6 (· ≤ 3),
  .code "pulseWidthRes" "must be 0..=3" 14 (· ≤ 3),
  .code "pulseWidthRes" "must be 0..=3" 22 (· ≤ 3),
  .code "captureSize" "unknown size code" 50 (· ≤ 7),
  .code "txChannelIndex" "must be in 0..=3" 48 (· ≤ 3),
  .code "peakInputSel" "must be DPD (0) or CFR (1)" 42 (· ≤ 1),
  .code "bandDir" "must be 0, 2 or 3" 30 fun r => r == 0 || r == 2 || r == 3,
  .code "bandSel" "must be 0..=3" 31 (· ≤ 3)]

/-- A record that is not accepted is reported for the first demand that it does not meet. The
demands are those of the parts, in the order in which the parts are decoded. -/
theorem errorOf_decodeConfig (triggerPin donePin : Pin) :
    errorOf (Config.decode b triggerPin donePin) = firstReport Config.demands b := by
  unfold Config.decode
  refine errorOf_bind (errorOf_requireLength b _ _) fun _ => ?_
  refine errorOf_bind (errorOf_decodeThreshold b _) fun _ => ?_
  refine errorOf_bind (errorOf_decodeThreshold b _) fun _ => ?_
  refine errorOf_bind (errorOf_decodeThreshold b _) fun _ => ?_
  refine errorOf_bind (errorOf_decodeControl b _) fun _ => ?_
  exact errorOf_bind (errorOf_decodeLevel b _) fun _ => errorOf_pure _

end Capture

end Predistortion
