import Predistortion.Text.Shortest

/-!
# Single-precision numbers

A `Binary32` is the bit pattern of an IEEE 754 single-precision number; every operation works on the
pattern in exact integer arithmetic. A finite number is `± significand * 2 ^ scale`. `toQ15` and
`ofQ15` convert to and from the 16-bit fixed-point form with fifteen fractional bits, and `text` is
the shortest decimal that reads back, written without an exponent.
-/

namespace Predistortion

/-- A single-precision number, by its bit pattern. -/
structure Binary32 where
  /-- The bit pattern. -/
  bits : UInt32
deriving DecidableEq, Inhabited

namespace Binary32

/-! ## Fields of the pattern -/

/-- Zero. -/
def zero : Binary32 := ⟨0⟩

/-- One. -/
def one : Binary32 := ⟨0x3F800000⟩

/-- The sign bit. -/
def isNegative (x : Binary32) : Bool := x.bits.toNat / 0x80000000 == 1

/-- The biased exponent. -/
def exponent (x : Binary32) : Nat := x.bits.toNat / 0x800000 % 0x100

/-- The fraction field. -/
def fraction (x : Binary32) : Nat := x.bits.toNat % 0x800000

/-- The pattern is not a number. -/
def isNaN (x : Binary32) : Bool := x.exponent == 255 && x.fraction != 0

/-- The pattern is an infinity. -/
def isInfinite (x : Binary32) : Bool := x.exponent == 255 && x.fraction == 0

/-- The integer significand of a finite number; subnormal numbers lack the leading bit. -/
def significand (x : Binary32) : Nat :=
  if x.exponent = 0 then x.fraction else x.fraction + 0x800000

/-- The power of two of the significand's last bit, plus 149, which makes it a natural number. -/
def shift (x : Binary32) : Nat := x.exponent - 1

/-! ## The unit interval -/

/-- The number lies in the closed interval from 0 to 1. Negative zero does; a pattern that is not a
number does not. -/
def inUnitInterval (x : Binary32) : Bool := x.bits ≤ one.bits || x.bits == 0x80000000

/-! ## Fixed point -/

/-- The number times `2 ^ 15`, cut to an integer and clamped to 16 bits; zero for a pattern that is
not a number and for everything negative. -/
def toQ15 (x : Binary32) : UInt16 :=
  if x.isNaN || x.isNegative then 0
  else if x.isInfinite then 0xFFFF
  else UInt16.ofNat (min 0xFFFF (x.significand * Nat.pow 2 x.shift / Nat.pow 2 134))

/-- The number `raw / 2 ^ 15`, which is always exact. -/
def ofQ15 (raw : UInt16) : Binary32 :=
  if raw = 0 then zero
  else
    let top := raw.toNat.log2
    ⟨UInt32.ofNat ((top + 112) * 0x800000 + (raw.toNat * Nat.pow 2 (23 - top) - 0x800000))⟩

/-! ## Text -/

/-- The interval of reals that round to a positive finite number, in quarters of its last place over
the denominator `2 ^ 151`. A power of two has a smaller neighbour below than above. -/
def rounding (x : Binary32) : Shortest.Interval :=
  let step := Nat.pow 2 x.shift
  let gap := if x.fraction = 0 ∧ 1 < x.exponent then 1 else 2
  { lower := (4 * x.significand - gap) * step
    value := 4 * x.significand * step
    upper := (4 * x.significand + 2) * step
    denominator := Nat.pow 2 151
    closed := x.significand % 2 == 0 }

/-- The magnitude in shortest decimal digits. The grids from `10 ^ 39` to `10 ^ -60` include one
that is finer than the spacing of any two numbers. -/
def magnitudeText (x : Binary32) : String :=
  if x.isInfinite then "inf"
  else if x.significand = 0 then "0"
  else
    match x.rounding.search 100 39 with
    | some d => d.positional
    | none => "0"

/-- The shortest decimal that reads back as the number, never with an exponent; a number without a
fractional part has no point. -/
def text (x : Binary32) : String :=
  if x.isNaN then "NaN"
  else if x.isNegative then "-" ++ x.magnitudeText
  else x.magnitudeText

end Binary32

end Predistortion
