import Predistortion.Binary32
import Mathlib.Algebra.Order.Ring.Nat
import Mathlib.Data.Nat.Dist
import Mathlib.Tactic.Ring

/-!
# Arithmetic on single-precision numbers

What multiplication, division and the conversions from and to 16-bit integers give, from bit
patterns to bit patterns. Magnitudes are counted in units of `2 ^ -149`, the least positive number,
so that a finite number is `Binary32.units` of them and a product or quotient is a fraction of
natural numbers. It is rounded once (`nearest`), to the nearest number and between two to the even
one (`nearest_isNearest`); what is too large becomes an infinity.

A significand and a shift as a pattern carries them are called canonical (`IsCanonical`). They are
the significand and the shift of their pattern (`units_signed`), and their magnitude is not changed
by rounding (`IsCanonical.nearest_eq`). Everything that has 24 bits and a shift has a canonical form
(`exists_canonical`).

Main statements: the conversions to and from fixed point are what this arithmetic makes of
multiplication and division by `2 ^ 15` (`toQ15_eq_toUInt16`, `ofQ15_eq_div`). Nothing is lost in
either, as such a factor only moves the shift.
-/

namespace Predistortion.Binary32

/-! ## Patterns without sign -/

/-- The pattern of infinity. -/
def infinity : Nat := 0x7F800000

/-- The number with a sign and a pattern without sign. -/
def signed (negative : Bool) (magnitude : Nat) : Binary32 :=
  ⟨UInt32.ofNat ((if negative then 0x80000000 else 0) + magnitude)⟩

/-- The magnitude of a finite number in units of `2 ^ -149`. -/
def units (x : Binary32) : Nat := x.significand * 2 ^ x.shift

section signed

variable (negative : Bool) {magnitude : Nat} (h : magnitude ≤ infinity)

include h

/-- The sign is the highest bit, so it adds to a pattern without sign. Nothing is cut off, because
infinity is the largest of these. -/
theorem toNat_signed : (signed negative magnitude).bits.toNat =
    (if negative then 0x80000000 else 0) + magnitude := by
  have hlt : (if negative then 0x80000000 else 0) + magnitude < 2 ^ 32 := by
    unfold infinity at h
    split <;> omega
  exact UInt32.toNat_ofNat_of_lt' hlt

/-- The sign of a number is the one that it was put together with. A magnitude does not reach the
bit of the sign. -/
theorem isNegative_signed : (signed negative magnitude).isNegative = negative := by
  unfold isNegative
  rw [toNat_signed negative h]
  unfold infinity at h
  cases negative <;> simp <;> omega

/-- The exponent is read off the pattern without sign by division, and not by cutting out bits. -/
theorem exponent_signed : (signed negative magnitude).exponent = magnitude / 0x800000 := by
  unfold exponent
  rw [toNat_signed negative h]
  unfold infinity at h
  split <;> omega

/-- The fraction is what that division leaves over. The two together are the pattern without
sign. -/
theorem fraction_signed : (signed negative magnitude).fraction = magnitude % 0x800000 := by
  unfold fraction
  rw [toNat_signed negative h]
  split <;> omega

/-- Up to infinity every pattern is a number. Rounding gives no pattern beyond it, so what is
computed is a number. -/
theorem isNaN_signed : (signed negative magnitude).isNaN = false := by
  unfold isNaN
  rw [exponent_signed negative h, fraction_signed negative h]
  unfold infinity at h
  simp
  omega

/-- Of these patterns only infinity is infinite, so that all smaller ones have units. -/
theorem isInfinite_signed :
    (signed negative magnitude).isInfinite = decide (magnitude = infinity) := by
  unfold isInfinite
  rw [exponent_signed negative h, fraction_signed negative h, Bool.eq_iff_iff]
  unfold infinity at h ⊢
  simp
  omega

end signed

/-! ## Canonical forms -/

/-- A significand and a shift as a pattern carries them: the leading bit is missing only where there
is no shift. -/
structure IsCanonical (significand shift : Nat) : Prop where
  /-- The significand has 24 bits. -/
  lt : significand < 0x1000000
  /-- It has its leading bit, or there is no shift. -/
  leading : shift = 0 ∨ 0x800000 ≤ significand

/-- Every number carries a canonical form: its significand and its shift, which say how many units
it stands for. -/
theorem isCanonical (x : Binary32) : IsCanonical x.significand x.shift := by
  have hfraction : x.fraction < 0x800000 := Nat.mod_lt _ (by decide)
  unfold significand shift
  split
  · exact ⟨by omega, by omega⟩
  · exact ⟨by omega, by omega⟩

/-- What has 24 bits and a shift has a canonical form. A significand that is too small is moved up
as far as the shift allows. -/
theorem exists_canonical {m : Nat} (hm : m < 0x1000000) (t : Nat) :
    ∃ q s, IsCanonical q s ∧ m * 2 ^ t = q * 2 ^ s := by
  -- as long as the leading bit is missing, the shift is moved into the significand
  induction t generalizing m with
  | zero => exact ⟨m, 0, ⟨hm, .inl rfl⟩, rfl⟩
  | succ t ih =>
    by_cases hleading : 0x800000 ≤ m
    · exact ⟨m, t + 1, ⟨hm, .inr hleading⟩, rfl⟩
    · obtain ⟨q, s, hcanonical, heq⟩ := ih (m := 2 * m) (by omega)
      refine ⟨q, s, hcanonical, ?_⟩
      rw [← heq]
      ring

namespace IsCanonical

variable {q s : Nat} (h : IsCanonical q s)

include h

/-- The largest shift of a finite number is 253, so that its pattern lies below that of infinity. -/
theorem lt_infinity (hs : s ≤ 253) : s * 0x800000 + q < infinity := by
  have hlt := h.lt
  unfold infinity
  omega

/-- A larger shift than 253 is one of no finite number: its pattern is at infinity or beyond, where
rounding cuts it. -/
theorem infinity_le (hs : 253 < s) : infinity ≤ s * 0x800000 + q := by
  have hleading : 0x800000 ≤ q := h.leading.resolve_left (by omega)
  unfold infinity
  omega

/-- A canonical form is the one of its pattern, so that what was put together is read off again.
There are two cases, since a subnormal number has no leading bit to be added. -/
theorem units_signed (negative : Bool) (hs : s ≤ 253) :
    (signed negative (s * 0x800000 + q)).units = q * 2 ^ s := by
  have hle := (h.lt_infinity hs).le
  have hlt := h.lt
  have hfields : (signed negative (s * 0x800000 + q)).significand = q ∧
      (signed negative (s * 0x800000 + q)).shift = s := by
    unfold significand shift
    rw [exponent_signed negative hle, fraction_signed negative hle]
    rcases h.leading with hzero | hleading
    · split <;> omega
    · split <;> omega
  unfold units
  rw [hfields.1, hfields.2]

/-- The pattern is that of a finite number, with the sign that it was given and the units of the
form. -/
theorem fields_signed (negative : Bool) (hs : s ≤ 253) :
    (signed negative (s * 0x800000 + q)).isNaN = false ∧
      (signed negative (s * 0x800000 + q)).isInfinite = false ∧
      (signed negative (s * 0x800000 + q)).isNegative = negative ∧
      (signed negative (s * 0x800000 + q)).units = q * 2 ^ s := by
  have hlt := h.lt_infinity hs
  refine ⟨isNaN_signed negative hlt.le, ?_, isNegative_signed negative hlt.le,
    h.units_signed negative hs⟩
  rw [isInfinite_signed negative hlt.le, decide_eq_false hlt.ne]

/-- The shift of a canonical form is read off its magnitude, from the place of its leading bit. So a
magnitude has one such form only. -/
theorem log2_sub : (q * 2 ^ s).log2 - 23 = s := by
  rcases h.leading with rfl | hleading
  · by_cases hq : q = 0
    · rw [hq]
      rfl
    · have hlog : q.log2 < 24 := (Nat.log2_lt hq).2 h.lt
      rw [Nat.pow_zero, Nat.mul_one]
      omega
  · have hne : q * 2 ^ s ≠ 0 := Nat.mul_ne_zero (by omega) (Nat.two_pow_pos s).ne'
    have hlog : (q * 2 ^ s).log2 = 23 + s := by
      rw [Nat.log2_eq_iff hne]
      constructor
      · rw [Nat.pow_add]
        exact Nat.mul_le_mul_right _ hleading
      · rw [show 23 + s + 1 = 24 + s by omega, Nat.pow_add]
        exact Nat.mul_lt_mul_of_pos_right h.lt (Nat.two_pow_pos s)
    omega

/-- A larger shift makes a larger magnitude, whatever the significands are, because the larger one
has its leading bit. -/
theorem mul_lt_mul {q' s' : Nat} (h' : IsCanonical q' s') (hs : s < s') :
    q * 2 ^ s < q' * 2 ^ s' := by
  have hleading : 0x800000 ≤ q' := h'.leading.resolve_left (by omega)
  calc q * 2 ^ s < 0x1000000 * 2 ^ s := Nat.mul_lt_mul_of_pos_right h.lt (Nat.two_pow_pos s)
    _ = 0x800000 * 2 ^ (s + 1) := by ring
    _ ≤ q' * 2 ^ s' := Nat.mul_le_mul hleading (Nat.pow_le_pow_right (by decide) hs)

/-- Patterns are ordered as magnitudes are. Comparing numbers without sign is comparing their bits,
which is how the check of a threshold works. -/
theorem le_iff {q' s' : Nat} (h' : IsCanonical q' s') :
    q * 2 ^ s ≤ q' * 2 ^ s' ↔ s * 0x800000 + q ≤ s' * 0x800000 + q' := by
  have hlt := h.lt
  have hlt' := h'.lt
  rcases Nat.lt_trichotomy s s' with hs | rfl | hs
  · have hmagnitude := h.mul_lt_mul h' hs
    have hleading : 0x800000 ≤ q' := h'.leading.resolve_left (by omega)
    omega
  · rw [Nat.mul_le_mul_right_iff (Nat.two_pow_pos s)]
    omega
  · have hmagnitude := h'.mul_lt_mul h hs
    have hleading : 0x800000 ≤ q := h.leading.resolve_left (by omega)
    omega

end IsCanonical

/-- A pattern is put together from its sign and its canonical form. Of the parts none overlaps
another. -/
theorem toNat_bits (x : Binary32) : x.bits.toNat =
    (if x.isNegative then 0x80000000 else 0) + (x.shift * 0x800000 + x.significand) := by
  have hlt := x.bits.toNat_lt
  unfold isNegative significand shift exponent fraction
  simp only [beq_iff_eq]
  split <;> split <;> omega

/-! ## Rounding -/

/-- The natural number nearest to a fraction, and the even one of two that are as near. -/
def halfEven (num den : Nat) : Nat :=
  let down := num / den
  let rest := num % den
  if 2 * rest < den ∨ (2 * rest = den ∧ down % 2 = 0) then down else down + 1

/-- The pattern of the number nearest to `num / den` units. The significand is rounded at the last
place of 24 bits; if this carries into a further bit, the sum is the pattern of the next power of
two. What goes beyond the finite numbers is an infinity. -/
def nearest (num den : Nat) : Nat :=
  let shift := (num / den).log2 - 23
  min infinity (shift * 0x800000 + halfEven num (den * 2 ^ shift))

/-- Rounding gives a number or infinity, and never a pattern that is not a number. -/
theorem nearest_le (num den : Nat) : nearest num den ≤ infinity := Nat.min_le_left ..

/-- A quotient without a rest is not rounded, however ties are broken. -/
theorem halfEven_mul (q : Nat) {den : Nat} (hden : 0 < den) : halfEven (q * den) den = q := by
  unfold halfEven
  rw [Nat.mul_div_cancel q hden, Nat.mul_mod_left, if_pos (.inl (by omega))]

/-- No multiple of the denominator is nearer, and if another one is as near then the quotient is
even. This is what rounding to nearest with ties to even means. -/
theorem halfEven_nearest (num : Nat) {den : Nat} (hden : 0 < den) (k : Nat) :
    (halfEven num den * den).dist num ≤ (k * den).dist num ∧
      ((halfEven num den * den).dist num = (k * den).dist num →
        k = halfEven num den ∨ halfEven num den % 2 = 0) := by
  have hdivision := Nat.div_add_mod' num den
  have hrest := Nat.mod_lt num hden
  have hup : (num / den + 1) * den = num / den * den + den := Nat.succ_mul ..
  have hinj (m : Nat) : k * den = m * den → k = m := Nat.eq_of_mul_eq_mul_right hden
  have hdown := hinj (num / den)
  have hnext := hinj (num / den + 1)
  have hsides : k * den ≤ num / den * den ∨ num / den * den + den ≤ k * den := by
    by_cases hk : k ≤ num / den
    · exact .inl (Nat.mul_le_mul_right den hk)
    · exact .inr (hup ▸ Nat.mul_le_mul_right den (by omega))
  unfold halfEven Nat.dist
  dsimp only
  split
  · omega
  · rw [hup] at hnext ⊢
    omega

/-- What is rounded is a significand at the last place of 24 bits, or the power of two above them.
The shift is the one at which the quotient has 24 bits, or zero if it has fewer. -/
theorem exists_rounded (num : Nat) {den : Nat} (hden : 0 < den) :
    ∃ shift, nearest num den =
        min infinity (shift * 0x800000 + halfEven num (den * 2 ^ shift)) ∧
      halfEven num (den * 2 ^ shift) ≤ 0x1000000 ∧
      (shift = 0 ∨ 0x800000 * (den * 2 ^ shift) ≤ num ∧
        0x800000 ≤ halfEven num (den * 2 ^ shift)) := by
  refine ⟨(num / den).log2 - 23, rfl, ?_, ?_⟩
  all_goals
    generalize hshift : (num / den).log2 - 23 = shift
    have hdown : halfEven num (den * 2 ^ shift) ≤ num / den / 2 ^ shift + 1 ∧
        num / den / 2 ^ shift ≤ halfEven num (den * 2 ^ shift) := by
      rw [Nat.div_div_eq_div_mul]
      unfold halfEven
      dsimp only
      split <;> omega
  · have hlt : num / den / 2 ^ shift < 0x1000000 := by
      rw [Nat.div_lt_iff_lt_mul (Nat.two_pow_pos shift)]
      refine (Nat.lt_log2_self (n := num / den)).trans_le ?_
      rw [show 0x1000000 = 2 ^ 24 by rfl, ← Nat.pow_add]
      exact Nat.pow_le_pow_right (by decide) (by omega)
    omega
  · by_cases hzero : shift = 0
    · exact .inl hzero
    · have hne : num / den ≠ 0 := by
        intro h
        rw [h] at hshift
        exact hzero hshift.symm
      have hleading : 0x800000 * 2 ^ shift ≤ num / den := by
        rw [show 0x800000 = 2 ^ 23 by rfl, ← Nat.pow_add,
          show 23 + shift = (num / den).log2 by omega]
        exact Nat.log2_self_le hne
      have hquotient : 0x800000 ≤ num / den / 2 ^ shift :=
        (Nat.le_div_iff_mul_le (Nat.two_pow_pos shift)).2 hleading
      refine .inr ⟨?_, by omega⟩
      calc 0x800000 * (den * 2 ^ shift) = 0x800000 * 2 ^ shift * den := by ring
        _ ≤ num := (Nat.le_div_iff_mul_le hden).1 hleading

/-- Rounding gives a number to which none is nearer. Another one is as near only if the pattern that
is given is even. -/
theorem nearest_isNearest (num : Nat) {den : Nat} (hden : 0 < den)
    (hfinite : nearest num den < infinity) (y : Binary32) :
    ((signed false (nearest num den)).units * den).dist num ≤ (y.units * den).dist num ∧
      (((signed false (nearest num den)).units * den).dist num = (y.units * den).dist num →
        y.units = (signed false (nearest num den)).units ∨ nearest num den % 2 = 0) := by
  obtain ⟨s, hnearest, hle, hleading⟩ := exists_rounded num hden
  generalize hr : halfEven num (den * 2 ^ s) = r at hnearest hle hleading
  have hpattern : nearest num den = s * 0x800000 + r := by omega
  have hs : s ≤ 253 := by
    unfold infinity at hfinite
    omega
  have hunits : (signed false (nearest num den)).units = r * 2 ^ s := by
    rw [hpattern]
    by_cases hcarry : r = 0x1000000
    · have hcanonical : IsCanonical 0x800000 (s + 1) := ⟨by decide, .inr le_rfl⟩
      have hsum : s * 0x800000 + r = (s + 1) * 0x800000 + 0x800000 := by omega
      have hs' : s + 1 ≤ 253 := by
        unfold infinity at hfinite
        omega
      rw [hsum, hcanonical.units_signed false hs', hcarry]
      ring
    · have hcanonical : IsCanonical r s := ⟨by omega, hleading.imp_right And.right⟩
      exact hcanonical.units_signed false hs
  have hden' : 0 < den * 2 ^ s := Nat.mul_pos hden (Nat.two_pow_pos s)
  have hmultiple (k : Nat) : k * 2 ^ s * den = k * (den * 2 ^ s) := by ring
  rw [hunits, hmultiple]
  by_cases hshift : s ≤ y.shift
  · -- the other number is a multiple of the last place, too
    have hy : y.units = y.significand * 2 ^ (y.shift - s) * 2 ^ s := by
      rw [Nat.mul_assoc, ← Nat.pow_add, Nat.sub_add_cancel hshift]
      rfl
    obtain ⟨hnear, htie⟩ :=
      halfEven_nearest num hden' (y.significand * 2 ^ (y.shift - s))
    rw [hr] at hnear htie
    rw [hy, hmultiple, hpattern]
    refine ⟨hnear, fun heq => (htie heq).imp (fun h => by rw [h]) fun heven => ?_⟩
    omega
  · -- the other number is below the power of two that the shift stands for, and so further away
    obtain ⟨hlow, -⟩ := hleading.resolve_left (by omega)
    have hpower : IsCanonical 0x800000 s := ⟨by decide, .inr le_rfl⟩
    have hy : y.units * den < 0x800000 * (den * 2 ^ s) := by
      have hunits' : y.units < 0x800000 * 2 ^ s := y.isCanonical.mul_lt_mul hpower (by omega)
      calc y.units * den < 0x800000 * 2 ^ s * den := Nat.mul_lt_mul_of_pos_right hunits' hden
        _ = 0x800000 * (den * 2 ^ s) := by ring
    obtain ⟨hnear, -⟩ := halfEven_nearest num hden' 0x800000
    rw [hr] at hnear
    unfold Nat.dist at hnear ⊢
    omega

/-- A canonical form is not changed by rounding, so what has one is computed exactly unless it is
too large. -/
theorem IsCanonical.nearest_eq {q s : Nat} (h : IsCanonical q s) {num den : Nat} (hden : 0 < den)
    (hnum : num = q * 2 ^ s * den) : nearest num den = min infinity (s * 0x800000 + q) := by
  have hden' : 0 < den * 2 ^ s := Nat.mul_pos hden (Nat.two_pow_pos s)
  have hrounded : halfEven num (den * 2 ^ s) = q := by
    rw [hnum, Nat.mul_assoc, Nat.mul_comm (2 ^ s) den, halfEven_mul q hden']
  unfold nearest
  dsimp only
  rw [show num / den = q * 2 ^ s by rw [hnum, Nat.mul_div_cancel _ hden], h.log2_sub, hrounded]

/-! ## Operations -/

/-- A pattern that is not a number. -/
def nan : Binary32 := ⟨0x7FC00000⟩

/-- The product. There is none of an infinity and zero. -/
def mul (x y : Binary32) : Binary32 :=
  let negative := x.isNegative != y.isNegative
  if x.isNaN || y.isNaN then nan
  else if x.isInfinite || y.isInfinite then
    if x.units = 0 ∨ y.units = 0 then nan else signed negative infinity
  else signed negative (nearest (x.units * y.units) (2 ^ 149))

/-- The quotient. There is none of two infinities or two zeros. -/
def div (x y : Binary32) : Binary32 :=
  let negative := x.isNegative != y.isNegative
  if x.isNaN || y.isNaN then nan
  else if x.isInfinite then
    if y.isInfinite then nan else signed negative infinity
  else if y.isInfinite then signed negative 0
  else if y.units = 0 then
    if x.units = 0 then nan else signed negative infinity
  else signed negative (nearest (x.units * 2 ^ 149) y.units)

/-- The number for an integer. -/
def ofUInt16 (n : UInt16) : Binary32 := signed false (nearest (n.toNat * 2 ^ 149) 1)

/-- The integer part of a number, or the nearest integer there is; zero for a pattern that is not a
number. -/
def toUInt16 (x : Binary32) : UInt16 :=
  if x.isNaN || x.isNegative then 0
  else if x.isInfinite then 0xFFFF
  else UInt16.ofNat (min 0xFFFF (x.units / 2 ^ 149))

/-! ## Fixed point -/

/-- The conversion to fixed point in terms of the magnitude. It is this form that is compared with
the product. -/
theorem toQ15_eq (x : Binary32) : x.toQ15 =
    if x.isNaN || x.isNegative then 0
    else if x.isInfinite then 0xFFFF
    else UInt16.ofNat (min 0xFFFF (x.units / 2 ^ 134)) := rfl

/-- The number `2 ^ 15`. -/
def q15Scale : Binary32 := ⟨0x47000000⟩

/-- The magnitude of `2 ^ 15` is a power of two, which is all that makes the conversions exact. -/
theorem units_q15Scale : q15Scale.units = 2 ^ 15 * 2 ^ 149 := by decide +kernel

/-- The scale is not zero, so a quotient by it is one of finite numbers. -/
theorem units_q15Scale_pos : 0 < q15Scale.units := by
  rw [units_q15Scale]
  exact Nat.mul_pos (Nat.two_pow_pos 15) (Nat.two_pow_pos 149)

/-- The scale is a number. -/
theorem isNaN_q15Scale : q15Scale.isNaN = false := by decide

/-- The scale is finite. -/
theorem isInfinite_q15Scale : q15Scale.isInfinite = false := by decide

/-- The scale has no sign, so it gives none to a product or quotient. -/
theorem isNegative_q15Scale : q15Scale.isNegative = false := by decide

/-- A product with `2 ^ 15` has the sign of the number. Its magnitude is rounded once, and
infinities stay what they are. -/
theorem mul_q15Scale {x : Binary32} (hnan : x.isNaN = false) :
    x.mul q15Scale = signed x.isNegative
      (if x.isInfinite then infinity else nearest (x.units * q15Scale.units) (2 ^ 149)) := by
  unfold mul
  rw [hnan, isNaN_q15Scale, isInfinite_q15Scale, isNegative_q15Scale, Bool.bne_false,
    Bool.or_false, Bool.or_false]
  cases hinfinite : x.isInfinite with
  | true =>
    have hsignificand : 0 < x.significand := by
      have hexponent : x.exponent = 255 := by
        unfold isInfinite at hinfinite
        simp only [Bool.and_eq_true, beq_iff_eq] at hinfinite
        exact hinfinite.1
      unfold significand
      rw [hexponent, if_neg (by decide)]
      omega
    have hunits : ¬(x.units = 0 ∨ q15Scale.units = 0) := by
      have hne := (Nat.mul_pos hsignificand (Nat.two_pow_pos x.shift)).ne'
      exact fun h => h.elim hne units_q15Scale_pos.ne'
    simp only [Bool.false_eq_true, if_false, if_true, if_neg hunits]
  | false => simp only [Bool.false_eq_true, if_false]

/-- The integer part of a product of a finite number with `2 ^ 15`, in terms of the number. The
product is exact unless it is too large for a number, and then the integer is the largest anyway. -/
theorem toUInt16_nearest_q15Scale {x : Binary32} :
    (signed false (nearest (x.units * q15Scale.units) (2 ^ 149))).toUInt16 =
      UInt16.ofNat (min 0xFFFF (x.units / 2 ^ 134)) := by
  obtain ⟨q, s, hcanonical, heq⟩ := exists_canonical x.isCanonical.lt (x.shift + 15)
  have hunits : x.units * 2 ^ 15 = q * 2 ^ s := by
    rw [← heq, units, Nat.mul_assoc, ← Nat.pow_add]
  have hproduct : nearest (x.units * q15Scale.units) (2 ^ 149) =
      min infinity (s * 0x800000 + q) := by
    refine hcanonical.nearest_eq (Nat.two_pow_pos 149) ?_
    rw [units_q15Scale, ← Nat.mul_assoc, hunits]
  have hcut : x.units / 2 ^ 134 = q * 2 ^ s / 2 ^ 149 := by
    rw [← hunits, show 2 ^ 149 = 2 ^ 134 * 2 ^ 15 by rfl,
      Nat.mul_div_mul_right _ _ (Nat.two_pow_pos 15)]
  rw [hproduct, hcut, toUInt16, isNaN_signed false (Nat.min_le_left ..),
    isNegative_signed false (Nat.min_le_left ..), isInfinite_signed false (Nat.min_le_left ..)]
  by_cases hs : s ≤ 253
  · have hlt := hcanonical.lt_infinity hs
    rw [Nat.min_eq_right hlt.le, hcanonical.units_signed false hs, decide_eq_false hlt.ne]
    rfl
  · -- the product is too large for a number, so it is too large for an integer
    have hle := hcanonical.infinity_le (by omega : 253 < s)
    have hlarge : 0xFFFF ≤ q * 2 ^ s / 2 ^ 149 := by
      have hleading : 0x800000 ≤ q := hcanonical.leading.resolve_left (by omega)
      rw [Nat.le_div_iff_mul_le (Nat.two_pow_pos 149)]
      exact Nat.mul_le_mul (by omega) (Nat.pow_le_pow_right (by decide) (by omega))
    rw [Nat.min_eq_left hle, Nat.min_eq_left hlarge]
    rfl

/-- The conversion to fixed point is a product with `2 ^ 15`, cut to an integer. This holds of every
pattern, infinities and those that are not numbers included. -/
theorem toQ15_eq_toUInt16 (x : Binary32) : x.toQ15 = (x.mul q15Scale).toUInt16 := by
  cases hnan : x.isNaN with
  | true =>
    have hproduct : x.mul q15Scale = nan := by
      unfold mul
      rw [hnan]
      rfl
    rw [hproduct, toQ15_eq, hnan]
    rfl
  | false =>
    rw [mul_q15Scale hnan, toQ15_eq, hnan, Bool.false_or]
    cases hnegative : x.isNegative with
    | true =>
      have hle : (if x.isInfinite then infinity
          else nearest (x.units * q15Scale.units) (2 ^ 149)) ≤ infinity := by
        split
        · exact le_rfl
        · exact nearest_le ..
      rw [toUInt16, isNaN_signed true hle, isNegative_signed true hle]
      rfl
    | false =>
      cases hinfinite : x.isInfinite with
      | true =>
        simp only [Bool.false_eq_true, if_false, if_true]
        decide
      | false =>
        simp only [Bool.false_eq_true, if_false]
        rw [toUInt16_nearest_q15Scale]

/-- A 16-bit integer has its leading bit among the first 16, which leaves room to move it up. -/
theorem log2_toNat_lt (raw : UInt16) : raw.toNat.log2 < 16 := by
  by_cases hzero : raw.toNat = 0
  · rw [hzero]
    decide
  · exact (Nat.log2_lt hzero).2 raw.toNat_lt

/-- The canonical form of what is read from fixed point: the integer, moved up until its leading bit
is the 24th. -/
theorem isCanonical_q15 {raw : UInt16} (h : raw ≠ 0) (shift : Nat) :
    IsCanonical (raw.toNat * 2 ^ (23 - raw.toNat.log2)) (raw.toNat.log2 + shift) := by
  have hne : raw.toNat ≠ 0 := fun hzero => h (UInt16.toNat_inj.1 hzero)
  have htop := log2_toNat_lt raw
  have hlower := Nat.log2_self_le hne
  have hupper := Nat.lt_log2_self (n := raw.toNat)
  have hpos := Nat.two_pow_pos (23 - raw.toNat.log2)
  constructor
  · calc raw.toNat * 2 ^ (23 - raw.toNat.log2)
        < 2 ^ (raw.toNat.log2 + 1) * 2 ^ (23 - raw.toNat.log2) :=
          Nat.mul_lt_mul_of_pos_right hupper hpos
      _ = 0x1000000 := by
          rw [← Nat.pow_add, show raw.toNat.log2 + 1 + (23 - raw.toNat.log2) = 24 by omega]
  · right
    calc 0x800000 = 2 ^ raw.toNat.log2 * 2 ^ (23 - raw.toNat.log2) := by
          rw [← Nat.pow_add, show raw.toNat.log2 + (23 - raw.toNat.log2) = 23 by omega]
      _ ≤ raw.toNat * 2 ^ (23 - raw.toNat.log2) := Nat.mul_le_mul_right _ hlower

/-- The magnitude of such a form. Where the leading bit was does not show in it. -/
theorem units_q15 (raw : UInt16) (shift : Nat) :
    raw.toNat * 2 ^ (23 - raw.toNat.log2) * 2 ^ (raw.toNat.log2 + shift) =
      raw.toNat * 2 ^ (23 + shift) := by
  have htop := log2_toNat_lt raw
  rw [Nat.mul_assoc, ← Nat.pow_add,
    show 23 - raw.toNat.log2 + (raw.toNat.log2 + shift) = 23 + shift by omega]

/-- What is read from fixed point is put together from its canonical form: the leading bit is moved
to the top of the significand, and the shift makes up for it. -/
theorem ofQ15_eq_signed {raw : UInt16} (h : raw ≠ 0) :
    ofQ15 raw = signed false
      ((raw.toNat.log2 + 111) * 0x800000 + raw.toNat * 2 ^ (23 - raw.toNat.log2)) := by
  have hleading := (isCanonical_q15 h 111).leading.resolve_left (by omega)
  have hsum : (raw.toNat.log2 + 112) * 0x800000 +
        (raw.toNat * 2 ^ (23 - raw.toNat.log2) - 0x800000) =
      0 + ((raw.toNat.log2 + 111) * 0x800000 + raw.toNat * 2 ^ (23 - raw.toNat.log2)) := by
    omega
  unfold ofQ15
  rw [if_neg h]
  exact congrArg (fun n => Binary32.mk (UInt32.ofNat n)) hsum

/-- What is read from fixed point is a finite number without a sign, of as many steps as the code
says. -/
theorem ofQ15_fields (raw : UInt16) : (ofQ15 raw).isNaN = false ∧ (ofQ15 raw).isInfinite = false ∧
    (ofQ15 raw).isNegative = false ∧ (ofQ15 raw).units = raw.toNat * 2 ^ 134 := by
  by_cases hzero : raw = 0
  · subst hzero
    decide +kernel
  · have htop := log2_toNat_lt raw
    have hfields := (isCanonical_q15 hzero 111).fields_signed false (by omega)
    rwa [← ofQ15_eq_signed hzero, units_q15] at hfields

/-- The number for an integer has the same significand and a shift that is larger by 15, which is
why the quotient of the two is exact. -/
theorem ofUInt16_eq_signed {raw : UInt16} (h : raw ≠ 0) :
    ofUInt16 raw = signed false
      ((raw.toNat.log2 + 126) * 0x800000 + raw.toNat * 2 ^ (23 - raw.toNat.log2)) := by
  have htop := log2_toNat_lt raw
  have hcanonical := isCanonical_q15 h 126
  have hnum : raw.toNat * 2 ^ 149 =
      raw.toNat * 2 ^ (23 - raw.toNat.log2) * 2 ^ (raw.toNat.log2 + 126) * 1 := by
    rw [units_q15, Nat.mul_one]
  have hnearest := hcanonical.nearest_eq (by decide) hnum
  unfold ofUInt16
  rw [hnearest, Nat.min_eq_right (hcanonical.lt_infinity (by omega)).le]

/-- The conversion from fixed point is a quotient by `2 ^ 15`. The quotient is exact, so it gives
the pattern that is put together directly. -/
theorem ofQ15_eq_div (raw : UInt16) : ofQ15 raw = (ofUInt16 raw).div q15Scale := by
  by_cases hzero : raw = 0
  · subst hzero
    decide +kernel
  · have htop := log2_toNat_lt raw
    have hfixed := isCanonical_q15 hzero 111
    obtain ⟨hnan, hinfinite, hnegative, hunits⟩ :=
      (isCanonical_q15 hzero 126).fields_signed false (by omega)
    rw [← ofUInt16_eq_signed hzero] at hnan hinfinite hnegative hunits
    have hnearest : nearest ((ofUInt16 raw).units * 2 ^ 149) q15Scale.units =
        (raw.toNat.log2 + 111) * 0x800000 + raw.toNat * 2 ^ (23 - raw.toNat.log2) := by
      have hnum : (ofUInt16 raw).units * 2 ^ 149 =
          raw.toNat * 2 ^ (23 - raw.toNat.log2) * 2 ^ (raw.toNat.log2 + 111) * q15Scale.units := by
        rw [hunits, units_q15, units_q15, units_q15Scale]
        ring
      rw [hfixed.nearest_eq units_q15Scale_pos hnum,
        Nat.min_eq_right (hfixed.lt_infinity (by omega)).le]
    rw [ofQ15_eq_signed hzero, ← hnearest, div, hnan, hinfinite, hnegative,
      isNaN_q15Scale, isInfinite_q15Scale, isNegative_q15Scale, if_neg units_q15Scale_pos.ne']
    simp only [Bool.or_false, Bool.bne_false, Bool.false_eq_true, if_false]

end Predistortion.Binary32
