import Predistortion.Bytes.Basic

/-!
# Little-endian fields

A number is carried as a fixed count of bytes, the lowest first. `encode` and `decode` work on
natural numbers and cover every width; the fixed-width readers and writers are instances of them.
Main statements: `decode_encode` and `encode_decode`, the two round trips.
-/

namespace Predistortion.LittleEndian

/-- The `width` lowest bytes of `n`, lowest first. -/
def encode : Nat → Nat → Bytes
  | 0, _ => []
  | width + 1, n => UInt8.ofNat n :: encode width (n / 256)

/-- The number that the bytes carry. -/
def decode : Bytes → Nat
  | [] => 0
  | b :: rest => b.toNat + 256 * decode rest

/-- A number takes up exactly the bytes that it was given, however large it is. -/
@[simp] theorem length_encode (width n : Nat) : (encode width n).length = width := by
  induction width generalizing n with
  | zero => rfl
  | succ width ih => simp [encode, ih]

/-- What is read from a string fits into as many bytes as the string has, so that a word of this
width takes it whole. -/
theorem decode_lt (b : Bytes) : decode b < Nat.pow 256 b.length := by
  induction b with
  | nil => simp [decode]
  | cons x rest ih =>
    have hx := x.toNat_lt
    have hpow : Nat.pow 256 (rest.length + 1) = Nat.pow 256 rest.length * 256 := rfl
    simp only [decode, List.length_cons, hpow]
    omega

/-- Reading back what was written gives the number without the bits that did not fit. By induction
on the width, since the first byte is what is left over when the number is divided by 256. -/
theorem decode_encode (width n : Nat) : decode (encode width n) = n % Nat.pow 256 width := by
  induction width generalizing n with
  | zero => simp [encode, decode, Nat.mod_one]
  | succ width ih =>
    have hpow : Nat.pow 256 (width + 1) = 256 * Nat.pow 256 width := Nat.mul_comm _ _
    have hmod : n % Nat.pow 256 (width + 1) = n % 256 + 256 * (n / 256 % Nat.pow 256 width) := by
      rw [hpow, Nat.mod_mul]
    rw [encode, decode, ih, hmod]
    simp

/-- Every byte string is what is written for the number it carries. With `decode_encode`, bytes and
numbers of one width are the same thing. -/
theorem encode_decode (b : Bytes) : encode b.length (decode b) = b := by
  induction b with
  | nil => rfl
  | cons x rest ih =>
    have hx := x.toNat_lt
    have hdiv : (x.toNat + 256 * decode rest) / 256 = decode rest := by omega
    have hbyte : UInt8.ofNat (x.toNat + 256 * decode rest) = x := by
      apply UInt8.toNat_inj.1
      simp
    simp only [List.length_cons, encode, decode, hdiv, ih, hbyte]

/-! ## Fixed widths -/

/-- The two bytes of a 16-bit word. -/
def ofUInt16 (w : UInt16) : Bytes := encode 2 w.toNat

/-- The four bytes of a 32-bit word. -/
def ofUInt32 (w : UInt32) : Bytes := encode 4 w.toNat

/-- The 16-bit word at an offset. -/
def uint16At (b : Bytes) (offset : Nat) : UInt16 := UInt16.ofNat (decode (b.window offset 2))

/-- The 32-bit word at an offset. -/
def uint32At (b : Bytes) (offset : Nat) : UInt32 := UInt32.ofNat (decode (b.window offset 4))

/-- A 16-bit word takes up two bytes. -/
@[simp] theorem length_ofUInt16 (w : UInt16) : (ofUInt16 w).length = 2 := length_encode 2 _

/-- A 32-bit word takes up four bytes. -/
@[simp] theorem length_ofUInt32 (w : UInt32) : (ofUInt32 w).length = 4 := length_encode 4 _

/-- A 16-bit word reads back as itself. -/
theorem decode_ofUInt16 (w : UInt16) : decode (ofUInt16 w) = w.toNat := by
  rw [ofUInt16, decode_encode]
  exact Nat.mod_eq_of_lt w.toNat_lt

/-- A 32-bit word reads back as itself. -/
theorem decode_ofUInt32 (w : UInt32) : decode (ofUInt32 w) = w.toNat := by
  rw [ofUInt32, decode_encode]
  exact Nat.mod_eq_of_lt w.toNat_lt

end Predistortion.LittleEndian
