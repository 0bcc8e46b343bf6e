import Predistortion.Proofs.GainRecords
import Predistortion.Proofs.MaskCommand
import Predistortion.Proofs.ModelStore
import Predistortion.Proofs.NormalForm

/-!
# Records that carry their channel

The records of models and of gain monitors are written for a channel and carry its number, which is
not looked at when they are read. Every value is read back from its record, for whatever channel it
was written; a gain monitor is read back as one of that channel alone.

A byte string is accepted exactly if it meets the demands of its decoder (`Model.demands`,
`GainMonitor.demands`). Written again, an accepted record is cut to its length, and nothing of it is
changed but the number of the channel and, for a gain monitor, what the decoder does not look at:
the reserved bytes, and all of the enable byte but its lowest bit.

Main statement: both directions for both records (`channel_records_codec`).
-/

namespace Predistortion

open LittleEndian

variable {b : Bytes}

/-! ## Parts of records -/

/-- The first bytes of a string that has them, byte by byte. Records are compared in this form, in
which each byte stands for itself. -/
theorem Bytes.take_eq_map_byteAt {n : Nat} (h : n ≤ b.length) :
    b.take n = (List.range n).map b.byteAt := by
  have hlength : (b.take n).length = n := by
    rw [List.length_take]
    omega
  refine Bytes.ext_byteAt (by rw [hlength, List.length_map, List.length_range]) fun i hi => ?_
  rw [hlength] at hi
  rw [Bytes.byteAt_take hi]
  simp [Bytes.byteAt, hi]

/-- A decoder that looks at the length first makes one demand more than what comes after, and this
demand is reported before all others. -/
theorem errorOf_shorter {α : Type} {field requirement : String} {needed : Nat}
    {k : PUnit → Except Error α} {demands : List Demand}
    (hk : errorOf (k ⟨⟩) = firstReport demands b) :
    errorOf (if b.length < needed then
        throw (.invalid field (toString b.length) requirement) >>= k else k ⟨⟩) =
      firstReport (.length field requirement needed :: demands) b := by
  rw [firstReport_cons]
  have hmet : (Demand.length field requirement needed).met b = true ↔ needed ≤ b.length :=
    decide_eq_true_iff
  by_cases h : needed ≤ b.length
  · rw [if_neg (Nat.not_lt.2 h), hk, if_pos (hmet.2 h)]
  · rw [if_pos (Nat.not_le.1 h), if_neg (mt hmet.1 h)]
    rfl

/-- What such a decoder accepts has the length, and passes the rest. The early return of the program
text is a choice in front of what follows. -/
theorem length_and_ok_of_shorter {α : Type} {needed : Nat} {e : Error} {a : α}
    {k : PUnit → Except Error α}
    (h : (if b.length < needed then throw e >>= k else k ⟨⟩) = .ok a) :
    needed ≤ b.length ∧ k ⟨⟩ = .ok a := by
  split at h
  · cases h
  · next hlength => exact ⟨Nat.not_lt.1 hlength, h⟩

/-- The bank at a position is looked up in the table of all banks. -/
theorem Bank.ofIndex_eq_ofTable (r : UInt8) : ofIndex r.toNat =
    ofTable all (.invalid "lutBank" (toString r.toNat) "must be Bank0..Bank3") r := by
  unfold ofIndex ofTable
  cases all[r.toNat]? <;> rfl

section codes

variable (b) (i : Nat)

/-- The number of a model has four codes. Records of gain monitors carry two of them. -/
theorem errorOf_modelSlot : errorOf (ModelSlot.ofRaw (b.byteAt i)) =
    firstReport [.code "modelSel" "must be Model0..Model3" i (· ≤ 3)] b :=
  errorOf_codeUpTo (errorOf_four _)

/-- A bank has four codes, which are its positions in the table of all banks. -/
theorem errorOf_bank : errorOf (Bank.ofIndex (b.byteAt i).toNat) =
    firstReport [.code "lutBank" "must be Bank0..Bank3" i (· ≤ 3)] b := by
  rw [Bank.ofIndex_eq_ofTable]
  exact errorOf_codeUpTo (errorOf_ofTable rfl)

/-- The size of a compander has two codes. -/
theorem errorOf_compander : errorOf (Compander.ofRaw (b.byteAt i)) =
    firstReport [.code "companderSize" "must be 0 (8-bit) or 1 (9-bit)" i (· ≤ 1)] b :=
  errorOf_codeUpTo (errorOf_two _)

end codes

/-- A bank that was read is written as the byte that it was read from. -/
theorem Bank.raw_of_ofIndex {r : UInt8} {bank : Bank} (h : ofIndex r.toNat = .ok bank) :
    bank.raw = r := by
  rw [ofIndex_eq_ofTable] at h
  exact code_of_ofTable (by decide) h

/-- The size of a compander that was read is written as the byte that it was read from. -/
theorem Compander.raw_of_ofRaw {r : UInt8} {compander : Compander} (h : ofRaw r = .ok compander) :
    compander.raw = r := by
  unfold ofRaw at h
  grind [raw]

/-! ## Models -/

namespace Model

/-- What is asked of the record of a model, in this order. -/
def demands : List Demand := [
  .length "modelRecord" "need 48 bytes" 48,
  .code "modelSel" "must be Model0..Model3" 1 (· ≤ 3),
  .code "lutBank" "must be Bank0..Bank3" 2 (· ≤ 3),
  .code "companderSize" "must be 0 (8-bit) or 1 (9-bit)" 4 (· ≤ 1)]

/-- The record of a model is accepted exactly if it meets its demands, and the first one that it
does not meet is reported. -/
theorem errorOf_decode (b : Bytes) : errorOf (decode b) = firstReport demands b := by
  unfold decode
  refine errorOf_shorter ?_
  refine errorOf_bind (errorOf_modelSlot b 1) fun _ => ?_
  refine errorOf_bind (errorOf_bank b 2) fun _ => ?_
  exact errorOf_bind (errorOf_compander b 4) fun _ => errorOf_pure _

/-- A record that was accepted is written again as it was, but for the number of the channel, which
is that of the channel for which it is written. -/
theorem encode_of_decode {m : Model} (h : decode b = .ok m) (c : Channel) :
    m.encode c = (b.take 48).set 0 c.code := by
  unfold decode at h
  obtain ⟨hlength, h⟩ := length_and_ok_of_shorter h
  obtain ⟨slot, hslot, h⟩ := exists_of_bind_eq_ok h
  obtain ⟨bank, hbank, h⟩ := exists_of_bind_eq_ok h
  obtain ⟨compander, hcompander, h⟩ := exists_of_bind_eq_ok h
  cases h
  have hbytes : b.take 48 = (List.range 48).map b.byteAt := Bytes.take_eq_map_byteAt hlength
  unfold encode
  dsimp only
  rw [hbytes, ← ModelSlot.ofRaw_eq_ok_iff.1 hslot,
    Bank.raw_of_ofIndex hbank, Compander.raw_of_ofRaw hcompander, ofUInt16_uint16At,
    Vector.toList_ofFn, Vector.toList_ofFn]
  rfl

end Model

/-! ## Gain monitors -/

namespace GainMonitor

/-- What is asked of the record of a gain monitor, in this order. -/
def demands : List Demand := [
  .length "gainMonitorRecord" "expected 12 bytes" 12,
  .code "modelSel" "must be Model0..Model3" 9 (· ≤ 3),
  .code "modelSel" "must be Model0..Model3" 10 (· ≤ 3)]

/-- The record of a gain monitor is accepted exactly if it meets its demands, for whatever channel
it is read. -/
theorem errorOf_decode (c : Channel) (b : Bytes) :
    errorOf (decode c b) = firstReport demands b := by
  unfold decode
  refine errorOf_shorter ?_
  refine errorOf_bind (errorOf_modelSlot b 9) fun _ => ?_
  exact errorOf_bind (errorOf_modelSlot b 10) fun _ => errorOf_pure _

/-- The enable byte keeps its lowest bit. -/
theorem enableByte_of_flag (r : UInt8) :
    (if r &&& 0x01 != 0 then 1 else 0 : UInt8) = r &&& 0x01 := by
  revert r
  exact forall_byte (by decide +kernel)

/-- A record that was accepted is written again without what means nothing, for the channel that it
is written for. -/
theorem encode_of_decode {c : Channel} {g : GainMonitor} (h : decode c b = .ok g) (d : Channel) :
    g.encode d = (((((b.take 12).set 4 d.code).set 5 0).set 6 0).set 7 0).set 8
      (b.byteAt 8 &&& 0x01) := by
  unfold decode at h
  obtain ⟨hlength, h⟩ := length_and_ok_of_shorter h
  obtain ⟨lowerModel, hlower, h⟩ := exists_of_bind_eq_ok h
  obtain ⟨upperModel, hupper, h⟩ := exists_of_bind_eq_ok h
  cases h
  have hbytes : b.take 12 = (List.range 12).map b.byteAt := Bytes.take_eq_map_byteAt hlength
  unfold encode
  dsimp only
  rw [hbytes, ← ModelSlot.ofRaw_eq_ok_iff.1 hlower,
    ← ModelSlot.ofRaw_eq_ok_iff.1 hupper, enableByte_of_flag, ofUInt16_uint16At]
  rfl

end GainMonitor

/-! ## Both records -/

/-- The record of a model and that of a gain monitor, in both directions. Every value is read back
from its record. A byte string is accepted exactly if it is long enough and its coded bytes are
codes; if not, the first demand that it does not meet is reported. A record that was accepted is
written again with the number of the channel and without what means nothing. -/
theorem channel_records_codec :
    (∀ (m : Model) (c : Channel), Model.decode (m.encode c) = .ok m) ∧
    (∀ b : Bytes,
      ((∃ m, Model.decode b = .ok m) ↔
        48 ≤ b.length ∧ b.byteAt 1 ≤ 3 ∧ b.byteAt 2 ≤ 3 ∧ b.byteAt 4 ≤ 1) ∧
      (∀ e, Model.decode b = .error e ↔ firstReport Model.demands b = some e) ∧
      ∀ m, Model.decode b = .ok m → ∀ c : Channel, m.encode c = (b.take 48).set 0 c.code) ∧
    (∀ (g : GainMonitor) (c : Channel),
      GainMonitor.decode c (g.encode c) = .ok { g with mask := .singleton c }) ∧
    ∀ (b : Bytes) (c : Channel),
      ((∃ g, GainMonitor.decode c b = .ok g) ↔
        12 ≤ b.length ∧ b.byteAt 9 ≤ 3 ∧ b.byteAt 10 ≤ 3) ∧
      (∀ e, GainMonitor.decode c b = .error e ↔ firstReport GainMonitor.demands b = some e) ∧
      ∀ g, GainMonitor.decode c b = .ok g → ∀ d : Channel,
        g.encode d = (((((b.take 12).set 4 d.code).set 5 0).set 6 0).set 7 0).set 8
          (b.byteAt 8 &&& 0x01) := by
  refine ⟨Model.decode_encode, fun b => ⟨?_, fun e => ?_, fun m => Model.encode_of_decode⟩,
    GainMonitor.decode_encode, fun b c => ⟨?_, fun e => ?_, fun g => GainMonitor.encode_of_decode⟩⟩
  · rw [← errorOf_eq_none, Model.errorOf_decode, firstReport_eq_none]
    simp [Model.demands, Demand.length, Demand.code]
  · rw [← errorOf_eq_some, Model.errorOf_decode]
  · rw [← errorOf_eq_none, GainMonitor.errorOf_decode, firstReport_eq_none]
    simp [GainMonitor.demands, Demand.length, Demand.code]
  · rw [← errorOf_eq_some, GainMonitor.errorOf_decode]

/-- Records of threes, with a compander that is one and a byte too many: the model keeps all but its
channel, and the gain monitor is cleaned. -/
theorem channel_records_codec_threes :
    (∃ m, Model.decode ([3, 3, 3, 3, 1] ++ List.replicate 44 3) = .ok m ∧
      m.encode .tx2 = [1, 3, 3, 3, 1] ++ List.replicate 43 3) ∧
    ∃ g, GainMonitor.decode .tx1 (List.replicate 13 3) = .ok g ∧
      g.encode .tx3 = [3, 3, 3, 3, 2, 0, 0, 0, 1, 3, 3, 3] := by
  obtain ⟨-, hmodel, -, hgain⟩ := channel_records_codec
  obtain ⟨haccepts, -, hwritten⟩ := hmodel ([3, 3, 3, 3, 1] ++ List.replicate 44 3)
  obtain ⟨haccepts', -, hwritten'⟩ := hgain (List.replicate 13 3) .tx1
  obtain ⟨m, hm⟩ := haccepts.2 (by decide)
  obtain ⟨g, hg⟩ := haccepts'.2 (by decide)
  exact ⟨⟨m, hm, hwritten m hm .tx2⟩, g, hg, hwritten' g hg .tx3⟩

end Predistortion
