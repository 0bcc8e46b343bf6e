import Predistortion.Monitor.Clipper
import Predistortion.Proofs.FloatArithmetic
import Mathlib.Algebra.Order.Floor.Semifield
import Mathlib.Data.Rat.Floor
import Mathlib.Order.WithBot
import Mathlib.Tactic.Linarith

/-!
# The code of a threshold

What the fixed-point code of a clipper threshold is for each of the `2 ^ 32` patterns of a
single-precision number, in terms of the rational that the pattern stands for (`Binary32.value`), or
of an infinity (`Binary32.extended`). The code is zero for what is not a number and for everything
that is not positive, the largest code for what is too large, and the number of whole steps of `2 ^
-15` else (`Binary32.coded`).

Main statements: this, that the code is monotone, that a threshold which passes the check of an
entry that clips is at most one in code and less than a step above what is decoded from it, and that
every code is the code of what is decoded from it (`threshold_code`). That all this is computed with
the arithmetic of single-precision numbers is part of it: a code is a product that is cut, and it is
decoded by a quotient.
-/

namespace Predistortion

namespace Binary32

/-! ## Values -/

/-- A rational or an infinity. -/
abbrev ExtendedRat := WithBot (WithTop ℚ)

/-- A rational among the extended ones. -/
def rat (q : ℚ) : ExtendedRat := ((q : WithTop ℚ) : ExtendedRat)

/-- Rationals are ordered among the extended ones as they are among themselves. -/
theorem rat_le_rat {p q : ℚ} : rat p ≤ rat q ↔ p ≤ q := by
  unfold rat
  rw [WithBot.coe_le_coe, WithTop.coe_le_coe]

/-- The same for the strict order. -/
theorem rat_lt_rat {p q : ℚ} : rat p < rat q ↔ p < q := by
  unfold rat
  rw [WithBot.coe_lt_coe, WithTop.coe_lt_coe]

/-- The rational that a finite number stands for. -/
def value (x : Binary32) : ℚ := (if x.isNegative then -1 else 1) * (x.units / 2 ^ 149)

/-- What a pattern stands for, if it is a number. -/
def extended (x : Binary32) : ExtendedRat :=
  if x.isInfinite then (if x.isNegative then ⊥ else ⊤) else rat x.value

section value

variable {x : Binary32}

/-- A finite number stands for its rational. -/
theorem extended_of_finite (h : x.isInfinite = false) : x.extended = rat x.value := by
  unfold extended
  rw [h, if_neg Bool.false_ne_true]

/-- What lies between two rationals is finite. So a bound on both sides brings a pattern down to its
rational. -/
theorem finite_of_mem {p q : ℚ} (hp : rat p ≤ x.extended) (hq : x.extended ≤ rat q) :
    x.isInfinite = false := by
  rw [Bool.eq_false_iff]
  intro h
  unfold extended at hp hq
  rw [if_pos h] at hp hq
  split at hp
  · exact WithBot.not_coe_le_bot _ hp
  · next hnegative =>
    rw [if_neg hnegative] at hq
    exact WithTop.not_top_le_coe q (WithBot.coe_le_coe.1 hq)

/-- With the sign set, the rational is the negative of the units, each of which is `2 ^ -149`. -/
theorem value_of_negative (h : x.isNegative = true) : x.value = -(x.units / 2 ^ 149) := by
  unfold value
  rw [if_pos h, neg_one_mul]

/-- Without the sign, the rational is the number of units. -/
theorem value_of_nonnegative (h : x.isNegative = false) : x.value = x.units / 2 ^ 149 := by
  unfold value
  rw [h, if_neg Bool.false_ne_true, one_mul]

/-- With the sign set, the rational is not positive. It may be zero, which has two patterns. -/
theorem value_nonpos (h : x.isNegative = true) : x.value ≤ 0 := by
  rw [value_of_negative h, neg_nonpos]
  positivity

/-- A code stands for as many steps of `2 ^ -15`. None is rounded when it is decoded. -/
theorem value_ofQ15 (raw : UInt16) : (ofQ15 raw).value = raw.toNat / 32768 := by
  obtain ⟨-, -, hnegative, hunits⟩ := ofQ15_fields raw
  rw [value_of_nonnegative hnegative, hunits]
  push_cast
  ring

end value

/-! ## Steps -/

/-- The number of whole steps of `2 ^ -15`, cut to the range of the codes. -/
def steps : ExtendedRat → ℤ :=
  WithBot.recBotCoe 0 (WithTop.recTopCoe 0xFFFF fun q => max 0 (min 0xFFFF ⌊q * 32768⌋))

/-- For a rational the steps are counted by rounding down and are cut at both ends. -/
theorem steps_rat (q : ℚ) : steps (rat q) = max 0 (min 0xFFFF ⌊q * 32768⌋) := rfl

/-- Zero has no steps. -/
theorem steps_zero : steps (rat 0) = 0 := by
  rw [steps_rat, zero_mul, Int.floor_zero]
  rfl

/-- The number of steps is in the range of the codes, for infinities as well. So it is the number of
some code, and nothing has to be cut off once more. -/
theorem steps_mem (a : ExtendedRat) : 0 ≤ steps a ∧ steps a ≤ 0xFFFF := by
  induction a using WithBot.recBotCoe with
  | bot => decide
  | coe a =>
    induction a using WithTop.recTopCoe with
    | top => decide
    | coe q =>
      show 0 ≤ steps (rat q) ∧ steps (rat q) ≤ 0xFFFF
      rw [steps_rat]
      omega

/-- What is larger has no fewer steps. The infinities are at the two ends of the order and have the
least and the largest number of steps. -/
theorem steps_le_steps {a b : ExtendedRat} (hab : a ≤ b) : steps a ≤ steps b := by
  induction a using WithBot.recBotCoe with
  | bot => exact (steps_mem b).1
  | coe a =>
    induction b using WithBot.recBotCoe with
    | bot => exact absurd hab (WithBot.not_coe_le_bot a)
    | coe b =>
      rw [WithBot.coe_le_coe] at hab
      induction b using WithTop.recTopCoe with
      | top => exact (steps_mem a).2
      | coe q =>
        induction a using WithTop.recTopCoe with
        | top => exact absurd hab (WithTop.not_top_le_coe q)
        | coe p =>
          have hfloor : ⌊p * 32768⌋ ≤ ⌊q * 32768⌋ := by
            apply Int.floor_mono
            have hle := WithTop.coe_le_coe.1 hab
            linarith
          show steps (rat p) ≤ steps (rat q)
          rw [steps_rat, steps_rat]
          omega

/-! ## Codes -/

/-- The code of a number is its number of steps. The integers that compute it are divided and
rounded down. -/
theorem toNat_toQ15 {x : Binary32} (hnan : x.isNaN = false) :
    (x.toQ15.toNat : ℤ) = steps x.extended := by
  unfold extended
  rw [toQ15_eq, hnan, Bool.false_or]
  cases hnegative : x.isNegative with
  | true =>
    have hzero : steps (rat x.value) = 0 := by
      have hle := steps_le_steps (rat_le_rat.2 (value_nonpos hnegative))
      rw [steps_zero] at hle
      exact le_antisymm hle (steps_mem _).1
    cases x.isInfinite with
    | true => rfl
    | false => exact hzero.symm
  | false =>
    cases x.isInfinite with
    | true => rfl
    | false =>
      have hsteps : x.value * 32768 = (x.units : ℚ) / (2 ^ 134 : ℕ) := by
        rw [value_of_nonnegative hnegative]
        push_cast
        ring
      have hfloor : ⌊x.value * 32768⌋ = (x.units / 2 ^ 134 : ℕ) := by
        rw [hsteps, Rat.floor_natCast_div_natCast]
        rfl
      have hlt : min 0xFFFF (x.units / 2 ^ 134) < 2 ^ 16 := by omega
      rw [if_neg Bool.false_ne_true, if_neg Bool.false_ne_true, if_neg Bool.false_ne_true,
        UInt16.toNat_ofNat_of_lt' hlt, steps_rat, hfloor]
      omega

/-- What the code of a pattern is. -/
structure Coded (x : Binary32) : Prop where
  /-- The code is the product with `2 ^ 15`, cut to an integer. -/
  computed : x.toQ15 = (x.mul q15Scale).toUInt16
  /-- A pattern that is not a number has the code zero. -/
  nan (h : x.isNaN = true) : x.toQ15 = 0
  /-- So has every number that is not positive. -/
  nonpositive (h : x.isNaN = false) (hle : x.extended ≤ rat 0) : x.toQ15 = 0
  /-- A number that reaches the largest code has it. -/
  saturated (h : x.isNaN = false) (hle : rat (65535 / 32768) ≤ x.extended) : x.toQ15 = 0xFFFF
  /-- All other numbers are finite, and have the number of their whole steps. -/
  steps (h : x.isNaN = false) (hpos : rat 0 < x.extended)
    (hlt : x.extended < rat (65535 / 32768)) :
    x.isInfinite = false ∧ (x.toQ15.toNat : ℤ) = ⌊x.value * 32768⌋

/-- Every pattern has the code that the five cases say. They all come from the number of steps but
for the first, which is about how the code is computed. -/
theorem coded (x : Binary32) : x.Coded := by
  have hlargest : ⌊(65535 / 32768 : ℚ) * 32768⌋ = 65535 := by norm_num
  constructor
  case computed => exact x.toQ15_eq_toUInt16
  case nan =>
    intro h
    unfold toQ15
    rw [h]
    rfl
  case nonpositive =>
    intro h hle
    have hcode := toNat_toQ15 h
    have hsteps := steps_le_steps hle
    rw [steps_zero] at hsteps
    have hzero : x.toQ15.toNat = 0 := by omega
    exact UInt16.toNat_inj.1 hzero
  case saturated =>
    intro h hle
    have hcode := toNat_toQ15 h
    have hsteps := steps_le_steps hle
    have hmem := steps_mem x.extended
    rw [steps_rat, hlargest] at hsteps
    have hfull : x.toQ15.toNat = 0xFFFF := by omega
    exact UInt16.toNat_inj.1 hfull
  case steps =>
    intro h hpos hlt
    have hfinite := finite_of_mem hpos.le hlt.le
    rw [extended_of_finite hfinite, rat_lt_rat] at hpos hlt
    have hfloor : 0 ≤ ⌊x.value * 32768⌋ ∧ ⌊x.value * 32768⌋ < 65535 := by
      constructor
      · exact Int.floor_nonneg.2 (by linarith)
      · rw [Int.floor_lt]
        push_cast
        linarith
    refine ⟨hfinite, ?_⟩
    rw [toNat_toQ15 h, extended_of_finite hfinite, steps_rat]
    omega

/-- Larger numbers have no smaller code, because they have no fewer steps. -/
theorem toQ15_le_toQ15 {x y : Binary32} (hx : x.isNaN = false) (hy : y.isNaN = false)
    (h : x.extended ≤ y.extended) : x.toQ15 ≤ y.toQ15 := by
  have hsteps := steps_le_steps h
  rw [← toNat_toQ15 hx, ← toNat_toQ15 hy] at hsteps
  exact UInt16.le_iff_toNat_le.2 (by omega)

/-- Every code is the code of what is decoded from it. So a record that is read and written again is
not changed. -/
theorem toQ15_ofQ15 (raw : UInt16) : (ofQ15 raw).toQ15 = raw := by
  obtain ⟨hnan, hfinite, -⟩ := ofQ15_fields raw
  have hlt := raw.toNat_lt
  have hcode := toNat_toQ15 hnan
  rw [extended_of_finite hfinite, value_ofQ15, steps_rat, div_mul_cancel₀ _ (by norm_num),
    Int.floor_natCast] at hcode
  have hnat : (ofQ15 raw).toQ15.toNat = raw.toNat := by omega
  exact UInt16.toNat_inj.1 hnat

/-! ## The unit interval -/

/-- One is the largest pattern without a sign that stands for at most one, as patterns are ordered
like numbers there. -/
theorem value_le_one_iff {x : Binary32} (h : x.isNegative = false) :
    x.value ≤ 1 ↔ x.bits ≤ one.bits := by
  have hone : IsCanonical 0x800000 126 := ⟨by decide, .inr le_rfl⟩
  have hbits : x.bits.toNat = x.shift * 0x800000 + x.significand := by
    rw [x.toNat_bits, h, if_neg Bool.false_ne_true, Nat.zero_add]
  have hunits : x.units ≤ 0x800000 * 2 ^ 126 ↔ x.bits.toNat ≤ one.bits.toNat := by
    rw [hbits]
    exact x.isCanonical.le_iff hone
  rw [UInt32.le_iff_toNat_le, ← hunits, value_of_nonnegative h, div_le_one (by positivity),
    ← Nat.cast_le (α := ℚ)]
  norm_num

/-- Minus zero is the only pattern with a sign that does not stand for less than zero. It is the one
pattern that the check of a threshold names. -/
theorem value_nonneg_iff {x : Binary32} (h : x.isNegative = true) :
    0 ≤ x.value ↔ x.bits = 0x80000000 := by
  have hbits : x.bits.toNat = 0x80000000 + (x.shift * 0x800000 + x.significand) := by
    rw [x.toNat_bits, if_pos h]
  have hunits : 0 ≤ x.value ↔ x.units = 0 := by
    rw [value_of_negative h, neg_nonneg, div_le_iff₀ (by positivity), zero_mul, Nat.cast_nonpos]
  have hzero : x.units = 0 ↔ x.significand = 0 := by
    unfold units
    rw [Nat.mul_eq_zero, or_iff_left (Nat.two_pow_pos x.shift).ne']
  have hleading := x.isCanonical.leading
  have hminus : x.bits = 0x80000000 ↔ x.bits.toNat = 0x80000000 := by
    rw [← UInt32.toNat_inj]
    rfl
  rw [hunits, hzero, hminus]
  omega

/-- The patterns that stand for a rational from zero to one are those up to the pattern of one, and
the one of minus zero. -/
theorem value_mem_iff (x : Binary32) :
    0 ≤ x.value ∧ x.value ≤ 1 ↔ x.bits ≤ one.bits ∨ x.bits = 0x80000000 := by
  cases hnegative : x.isNegative with
  | true =>
    have hbits : ¬x.bits ≤ one.bits := by
      intro hle
      have hle' : x.bits.toNat ≤ 0x3F800000 := UInt32.le_iff_toNat_le.1 hle
      rw [x.toNat_bits, if_pos hnegative] at hle'
      omega
    have hvalue : x.value ≤ 1 := (value_nonpos hnegative).trans zero_le_one
    rw [value_nonneg_iff hnegative, or_iff_right hbits, and_iff_left hvalue]
  | false =>
    have hbits : x.bits ≠ 0x80000000 := by
      intro hminus
      rw [isNegative, hminus] at hnegative
      exact absurd hnegative (by decide)
    have hvalue : 0 ≤ x.value := by
      rw [value_of_nonnegative hnegative]
      positivity
    rw [value_le_one_iff hnegative, or_iff_left hbits, and_iff_right hvalue]

/-- The check of a threshold compares it as a number, although it looks at the pattern. Patterns
that are not numbers, and both infinities, are refused by it. -/
theorem inUnitInterval_iff (x : Binary32) :
    x.inUnitInterval = true ↔ x.isNaN = false ∧ rat 0 ≤ x.extended ∧ x.extended ≤ rat 1 := by
  have hbounds : x.inUnitInterval = true ↔ x.bits ≤ one.bits ∨ x.bits = 0x80000000 := by
    unfold inUnitInterval
    rw [Bool.or_eq_true, decide_eq_true_iff, beq_iff_eq]
  rw [hbounds, ← value_mem_iff]
  constructor
  · intro hvalue
    have hexponent : (x.exponent == 255) = false := by
      rw [beq_eq_false_iff_ne]
      unfold exponent
      rcases x.value_mem_iff.1 hvalue with hle | hminus
      · have hle' : x.bits.toNat ≤ 0x3F800000 := UInt32.le_iff_toNat_le.1 hle
        omega
      · rw [hminus]
        decide
    have hfinite : x.isNaN = false ∧ x.isInfinite = false := by
      unfold isNaN isInfinite
      rw [hexponent]
      exact ⟨rfl, rfl⟩
    rw [extended_of_finite hfinite.2, rat_le_rat, rat_le_rat]
    exact ⟨hfinite.1, hvalue⟩
  · rintro ⟨-, hnonneg, hle⟩
    have hfinite := finite_of_mem hnonneg hle
    rw [extended_of_finite hfinite, rat_le_rat] at hnonneg hle
    exact ⟨hnonneg, hle⟩

/-- A threshold in the unit interval has at most the code of one, and it is less than a step above
what is decoded from its code. -/
theorem toQ15_of_inUnitInterval {x : Binary32} (h : x.inUnitInterval = true) :
    x.toQ15 ≤ 0x8000 ∧ (ofQ15 x.toQ15).value ≤ x.value ∧
      x.value < (ofQ15 x.toQ15).value + 1 / 32768 := by
  obtain ⟨hnan, hnonneg, hle⟩ := x.inUnitInterval_iff.1 h
  have hfinite := finite_of_mem hnonneg hle
  rw [extended_of_finite hfinite, rat_le_rat] at hnonneg hle
  have hfloor : 0 ≤ ⌊x.value * 32768⌋ ∧ ⌊x.value * 32768⌋ ≤ 32768 := by
    constructor
    · exact Int.floor_nonneg.2 (by linarith)
    · rw [← Int.lt_add_one_iff, Int.floor_lt]
      push_cast
      linarith
  have hcode : (x.toQ15.toNat : ℤ) = ⌊x.value * 32768⌋ := by
    rw [toNat_toQ15 hnan, extended_of_finite hfinite, steps_rat]
    omega
  have hcode' : (x.toQ15.toNat : ℚ) = (⌊x.value * 32768⌋ : ℤ) := by exact_mod_cast hcode
  have hlower := Int.floor_le (x.value * 32768)
  have hupper := Int.lt_floor_add_one (x.value * 32768)
  rw [value_ofQ15, hcode']
  refine ⟨UInt16.le_iff_toNat_le.2 ?_, ?_, ?_⟩
  · show x.toQ15.toNat ≤ 32768
    omega
  · linarith
  · linarith

end Binary32

/-! ## Thresholds -/

open Binary32 (rat)

/-- The check of an entry that clips accepts the numbers from zero to one, and nothing that is not a
number. -/
theorem Clipper.check_eq_ok_iff {k : Clipper} (hon : k.enable = true)
    (hmask : k.mask.isEmpty = false) :
    k.check = .ok () ↔
      k.threshold.isNaN = false ∧ rat 0 ≤ k.threshold.extended ∧ k.threshold.extended ≤ rat 1 := by
  rw [← k.threshold.inUnitInterval_iff]
  unfold check
  rw [hon, hmask]
  cases k.threshold.inUnitInterval with
  | true => exact ⟨fun _ => rfl, fun _ => rfl⟩
  | false => exact ⟨nofun, nofun⟩

/-- The code of a threshold: what it is for every pattern, that it is monotone, what it is worth for
a threshold that an entry may clip at, and that no code is changed by decoding. -/
theorem threshold_code :
    (∀ x : Binary32, x.Coded) ∧
      (∀ x y : Binary32, x.isNaN = false → y.isNaN = false → x.extended ≤ y.extended →
        x.toQ15 ≤ y.toQ15) ∧
      (∀ k : Clipper, k.enable = true → k.mask.isEmpty = false → k.check = .ok () →
        k.threshold.toQ15 ≤ 0x8000 ∧
          (Binary32.ofQ15 k.threshold.toQ15).value ≤ k.threshold.value ∧
          k.threshold.value < (Binary32.ofQ15 k.threshold.toQ15).value + 1 / 32768) ∧
      ∀ raw : UInt16, Binary32.ofQ15 raw = (Binary32.ofUInt16 raw).div Binary32.q15Scale ∧
        (Binary32.ofQ15 raw).toQ15 = raw := by
  refine ⟨Binary32.coded, fun x y => Binary32.toQ15_le_toQ15, ?_, fun raw => ?_⟩
  · intro k hon hmask hcheck
    apply Binary32.toQ15_of_inUnitInterval
    rw [Binary32.inUnitInterval_iff]
    exact (Clipper.check_eq_ok_iff hon hmask).1 hcheck
  · exact ⟨Binary32.ofQ15_eq_div raw, Binary32.toQ15_ofQ15 raw⟩

/-- Seven tenths of full scale are a little more than 22937 steps. They are below infinity, which
has the largest code; minus infinity has the code zero, and so has a pattern that is not a
number. -/
theorem threshold_code_sevenTenths :
    let k : Clipper := ⟨⟨0x05⟩, true, ⟨0x3F333333⟩⟩
    let positive : Binary32 := ⟨0x7F800000⟩
    let negative : Binary32 := ⟨0xFF800000⟩
    let nan : Binary32 := ⟨0x7F800001⟩
    (k.threshold.toQ15 = 22937 ∧ (Binary32.ofQ15 22937).value ≤ k.threshold.value ∧
        k.threshold.value < (Binary32.ofQ15 22937).value + 1 / 32768) ∧
      k.threshold.toQ15 ≤ positive.toQ15 ∧ positive.toQ15 = 0xFFFF ∧ negative.toQ15 = 0 ∧
      nan.toQ15 = 0 ∧ (Binary32.ofQ15 22937).toQ15 = 22937 := by
  intro k positive negative nan
  obtain ⟨hcoded, hmono, haccepted, hcodes⟩ := threshold_code
  have hcode : k.threshold.toQ15 = 22937 := by decide
  have hbounds := haccepted k rfl rfl rfl
  rw [hcode] at hbounds
  have hpositive : positive.extended = ⊤ := by
    unfold Binary32.extended
    rw [if_pos (by decide), if_neg (by decide)]
  have hnegative : negative.extended = ⊥ := by
    unfold Binary32.extended
    rw [if_pos (by decide), if_pos (by decide)]
  refine ⟨⟨hcode, hbounds.2⟩, ?_, ?_, ?_, (hcoded nan).nan (by decide), (hcodes 22937).2⟩
  · exact hmono _ _ (by decide) (by decide) (hpositive ▸ le_top)
  · exact (hcoded positive).saturated (by decide) (hpositive ▸ le_top)
  · exact (hcoded negative).nonpositive (by decide) (hnegative ▸ bot_le)

end Predistortion
