/-!
# Byte strings

Records, payloads and object contents are byte strings. A position past the end reads as zero, so a
window of a short string is padded with zeros, and a write past the end fills the gap with zeros.
The main statements say what a window and an overwrite do to a single position
(`byteAt_window`, `byteAt_overwrite`).
-/

namespace Predistortion

/-- What holds of the 256 numbers that a byte can have holds of every byte. Facts about packed bytes
are decided by going through them. -/
theorem forall_byte {P : UInt8 → Prop} (h : ∀ n < 256, P (UInt8.ofNat n)) (b : UInt8) : P b := by
  have hb := h b.toNat b.toNat_lt
  rwa [UInt8.ofNat_toNat] at hb

/-- A byte string. -/
abbrev Bytes := List UInt8

namespace Bytes

/-- The byte at a position; zero past the end. -/
def byteAt (b : Bytes) (i : Nat) : UInt8 := b.getD i 0

/-- `n` zero bytes. -/
def zeros (n : Nat) : Bytes := List.replicate n 0

/-- The first `n` bytes, padded with zeros when there are fewer. -/
def padTo (n : Nat) (b : Bytes) : Bytes := b.take n ++ zeros (n - b.length)

/-- The `n` bytes from `offset` on. -/
def window (b : Bytes) (offset n : Nat) : Bytes := padTo n (b.drop offset)

/-- The string with `data` written at `offset`. -/
def overwrite (b : Bytes) (offset : Nat) (data : Bytes) : Bytes :=
  padTo offset b ++ data ++ b.drop (offset + data.length)

/-- The length of a buffer as a machine word. Every buffer in memory has fewer than `2 ^ 63` bytes,
so a longer list, which is no buffer, saturates there. -/
def machineLength (b : Bytes) : UInt64 := UInt64.ofNat (min b.length 0x7FFFFFFFFFFFFFFF)

/-! ## Lengths -/

/-- A run of zeros has as many bytes as were asked for. -/
@[simp] theorem length_zeros (n : Nat) : (zeros n).length = n := by simp [zeros]

/-- A padded string has the length that it was padded to, also where it had to be cut. -/
@[simp] theorem length_padTo (n : Nat) (b : Bytes) : (padTo n b).length = n := by
  simp [padTo]; omega

/-- A window has its full length wherever it lies; what is beyond the end of the string is filled
with zeros. -/
@[simp] theorem length_window (b : Bytes) (offset n : Nat) : (b.window offset n).length = n := by
  simp [window]

/-- A string grows as far as the data reach and never shrinks, so the larger of the two ends
counts. -/
theorem length_overwrite (b : Bytes) (offset : Nat) (data : Bytes) :
    (b.overwrite offset data).length = max b.length (offset + data.length) := by
  simp [overwrite]; omega

/-! ## Single positions -/

/-- Beyond its end a string reads as zero, which is why positions need no proof of a bound. -/
theorem byteAt_of_length_le {b : Bytes} {i : Nat} (h : b.length ≤ i) : b.byteAt i = 0 := by
  simp [byteAt, h]

/-- A run of zeros reads as zero everywhere, inside and beyond it. -/
@[simp] theorem byteAt_zeros (n i : Nat) : (zeros n).byteAt i = 0 := by
  simp [byteAt, zeros, List.getElem?_replicate]
  split <;> rfl

/-- A position of two strings in a row lies in the first one or, counted from its end, in the
second. Beyond both it reads as zero, as the second string does there. -/
theorem byteAt_append (a b : Bytes) (i : Nat) :
    byteAt (a ++ b) i = if i < a.length then byteAt a i else byteAt b (i - a.length) := by
  unfold byteAt
  simp only [List.getD_eq_getElem?_getD]
  split
  · next h => rw [List.getElem?_append_left h]
  · next h => rw [List.getElem?_append_right (by omega)]

/-- To drop bytes from the front moves the positions of the others down by as many. -/
theorem byteAt_drop (b : Bytes) (k i : Nat) : byteAt (b.drop k) i = byteAt b (k + i) := by
  simp [byteAt]

/-- The bytes at the front are the same in a string that is cut behind them. -/
theorem byteAt_take {b : Bytes} {n i : Nat} (h : i < n) : byteAt (b.take n) i = byteAt b i := by
  simp [byteAt, h]

/-- Padding changes nothing inside the new length: what was beyond the end read as zero before. -/
theorem byteAt_padTo {n i : Nat} (h : i < n) (b : Bytes) : byteAt (padTo n b) i = byteAt b i := by
  rw [padTo, byteAt_append]
  split
  · exact byteAt_take h
  · next hi =>
    rw [byteAt_zeros]
    exact (byteAt_of_length_le (by simp at hi; omega)).symm

/-- A window shows the bytes from its offset on. -/
theorem byteAt_window {n i : Nat} (h : i < n) (b : Bytes) (offset : Nat) :
    (b.window offset n).byteAt i = b.byteAt (offset + i) := by
  rw [window, byteAt_padTo h, byteAt_drop]

/-- A write replaces the bytes it covers and keeps all others. Behind the end of the string both
sides read as zero. -/
theorem byteAt_overwrite (b : Bytes) (offset : Nat) (data : Bytes) (i : Nat) :
    (b.overwrite offset data).byteAt i =
      if offset ≤ i ∧ i < offset + data.length then data.byteAt (i - offset) else b.byteAt i := by
  rw [overwrite, List.append_assoc, byteAt_append, length_padTo]
  by_cases h : i < offset
  · rw [if_pos h, if_neg (by omega), byteAt_padTo h]
  · rw [if_neg h, byteAt_append]
    by_cases hd : i - offset < data.length
    · rw [if_pos hd, if_pos (by omega)]
    · rw [if_neg hd, if_neg (by omega), byteAt_drop]
      congr 1
      omega

/-- Two byte strings of one length that agree at every position are equal. This is how records and
tables are compared. -/
theorem ext_byteAt {a b : Bytes} (hlen : a.length = b.length)
    (h : ∀ i, i < a.length → a.byteAt i = b.byteAt i) : a = b := by
  apply List.ext_getElem hlen
  intro i ha hb
  have := h i ha
  simpa [byteAt, ha, hb] using this

/-- A write is read back whole, also where it made the string longer. This is the first half of what
a store has to do; the other one is `window_overwrite_of_disjoint`. -/
theorem window_overwrite_self (b : Bytes) (offset : Nat) (data : Bytes) :
    (b.overwrite offset data).window offset data.length = data := by
  apply ext_byteAt (by simp)
  intro i hi
  rw [length_window] at hi
  rw [byteAt_window hi, byteAt_overwrite, if_pos (by omega)]
  congr 1
  omega

/-- A write does not show in a window that it does not meet, whether it ends before the window or
starts behind it. -/
theorem window_overwrite_of_disjoint (b : Bytes) (offset : Nat) (data : Bytes) (k n : Nat)
    (h : k + n ≤ offset ∨ offset + data.length ≤ k) :
    (b.overwrite offset data).window k n = b.window k n := by
  apply ext_byteAt (by simp)
  intro i hi
  rw [length_window] at hi
  rw [byteAt_window hi, byteAt_window hi, byteAt_overwrite, if_neg (by omega)]

/-- A window of a window is one of the string itself, if it does not reach beyond the first. -/
theorem window_window (b : Bytes) {n k m : Nat} (h : k + m ≤ n) :
    (b.window 0 n).window k m = b.window k m := by
  apply ext_byteAt (by simp)
  intro i hi
  rw [length_window] at hi
  rw [byteAt_window hi, byteAt_window hi, byteAt_window (by omega), Nat.zero_add]

/-- A write that a window covers shows in it like a write to it, so a record may be cut to its
length before or after it is changed. -/
theorem window_overwrite_of_le (b : Bytes) {offset n : Nat} {data : Bytes}
    (h : offset + data.length ≤ n) :
    (b.overwrite offset data).window 0 n = (b.window 0 n).overwrite offset data := by
  apply ext_byteAt
  · rw [length_window, length_overwrite, length_window]
    omega
  · intro i hi
    rw [length_window] at hi
    rw [byteAt_window hi, Nat.zero_add, byteAt_overwrite, byteAt_overwrite, byteAt_window hi,
      Nat.zero_add]

/-! ## Parts -/

/-- The window of a part is the part. -/
theorem window_append (a d b : Bytes) : window (a ++ (d ++ b)) a.length d.length = d := by
  simp [window, padTo, zeros]

/-- To write a part replaces it and leaves what stands before and behind, because the new part is as
long as the old one. -/
theorem overwrite_append (a b : Bytes) {d d' : Bytes} (h : d'.length = d.length) :
    overwrite (a ++ (d ++ b)) a.length d' = a ++ (d' ++ b) := by
  have hdrop : (a ++ (d ++ b)).drop (a.length + d'.length) = b := by
    rw [h, ← List.append_assoc, ← List.length_append, List.drop_left]
  simp [overwrite, padTo, zeros, hdrop]

/-! ## Blocks of fixed length -/

/-- The bytes of a vector, read as a string, are its components. -/
theorem byteAt_toList {n i : Nat} (v : Vector UInt8 n) (h : i < n) : byteAt v.toList i = v[i] := by
  simp [byteAt, h]

/-- The first `n` bytes as a block. -/
def block (b : Bytes) (n : Nat) : Vector UInt8 n := Vector.ofFn fun i => b.byteAt i.val

/-- A string of the right length is the vector of its bytes, with nothing padded and nothing cut.
Records that are kept as vectors are compared with their bytes by this. -/
theorem toList_block {b : Bytes} {n : Nat} (h : b.length = n) : (b.block n).toList = b := by
  refine ext_byteAt (by rw [Vector.length_toList, h]) fun i hi => ?_
  rw [Vector.length_toList] at hi
  rw [byteAt_toList _ hi, block, Vector.getElem_ofFn]

end Bytes

end Predistortion
