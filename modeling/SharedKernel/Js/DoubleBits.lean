import SharedKernel.Js.Doubles

/-! The eight bytes of a double: `DataView.setFloat64` and `DataView.getFloat64`, the lowest
byte first.
-/

namespace Js.Number

-----------------------------------------------------------------------------------------
-- Bit patterns
-----------------------------------------------------------------------------------------

/-- A double is a whole number of its last bits: that number. -/
def significand (value : ℚ) : Nat :=
  ⌊|value| / 2 ^ lastBit value⌋.toNat

/-- The exponent and fraction bits of a value: without the leading bit where it is there. -/
def magnitudeBits (value : ℚ) : Nat :=
  if significand value < 2 ^ 52 then significand value
  else (lastBit value + 1075).toNat * 2 ^ 52 + (significand value - 2 ^ 52)

/-- The bit pattern of a number; a value that is no double has none. -/
def toBits : Number → Option Nat
  | nan => some (0x7ff8 * 2 ^ 48)
  | infinity negative => some ((if negative then 2 ^ 63 else 0) + 0x7ff * 2 ^ 52)
  | finite value =>
      if ofRat value = finite value then
        some ((if value < 0 then 2 ^ 63 else 0) + magnitudeBits value)
      else none

/-- The value of exponent and fraction bits, below those of infinity. -/
def magnitude (bits : Nat) : ℚ :=
  if bits < 2 ^ 52 then bits * 2 ^ (-1074 : ℤ)
  else (2 ^ 52 + bits % 2 ^ 52 : Nat) * 2 ^ (((bits / 2 ^ 52 : Nat) : ℤ) - 1075)

/-- The number of a bit pattern. -/
def ofBits (bits : Nat) : Number :=
  let negative := 2 ^ 63 ≤ bits
  let bits := bits % 2 ^ 63
  if bits < 0x7ff * 2 ^ 52 then
    finite (if negative then -magnitude bits else magnitude bits)
  else if bits = 0x7ff * 2 ^ 52 then infinity negative
  else nan

/-- A double is its significand in its last bits. -/
theorem IsDouble.abs_eq {value : ℚ} (double : IsDouble value)
    : |value| = significand value * 2 ^ lastBit value := by
  obtain ⟨whole, scaled⟩ := double.scaled.1
  have positive : (0 : ℚ) < 2 ^ lastBit value := zpow_pos (by norm_num) _
  have size : |value| = |whole| * 2 ^ lastBit value := by
    conv_lhs => rw [scaled, abs_mul, abs_of_pos positive]
    push_cast
    rfl
  have same : significand value = whole.natAbs := by
    rw [significand, size, mul_div_cancel_right₀ _ positive.ne', Int.floor_intCast,
      ← Int.natCast_natAbs, Int.toNat_natCast]
  rw [same, size, Nat.cast_natAbs]

/-- A significand has at most 53 bits. -/
theorem IsDouble.significand_lt {value : ℚ} (double : IsDouble value)
    : significand value < 2 ^ 53 := by
  have below := abs_lt_lastBit value
  rw [double.abs_eq, zpow_add₀ (by norm_num), mul_comm] at below
  have scaled := lt_of_mul_lt_mul_left below (zpow_nonneg (by norm_num) _)
  exact_mod_cast scaled

/-- A value without the leading bit is subnormal, and it counts the least doubles. -/
theorem IsDouble.subnormal {value : ℚ} (double : IsDouble value)
    (small : significand value < 2 ^ 52)
    : |value| = significand value * 2 ^ (-1074 : ℤ) := by
  by_cases zero : value = 0
  · subst zero
    simp [significand]
  · have least : lastBit value = -1074 := by
      have bound : -1074 ≤ lastBit value := le_max_right ..
      by_contra other
      have leading := lastBit_le_abs zero (by omega)
      rw [double.abs_eq, zpow_add₀ (by norm_num), mul_comm] at leading
      have scaled : (2 : ℚ) ^ (52 : ℤ) ≤ significand value :=
        le_of_mul_le_mul_right leading (zpow_pos (by norm_num) _)
      have large : 2 ^ 52 ≤ significand value := by exact_mod_cast scaled
      omega
    rw [double.abs_eq, least]

/-- The last bit of a double is at most that of the largest. -/
theorem IsDouble.lastBit_le {value : ℚ} (double : IsDouble value)
    (leading : 2 ^ 52 ≤ significand value)
    : lastBit value ≤ 971 := by
  by_contra large
  have leading : (2 : ℚ) ^ (52 : ℤ) ≤ significand value := by exact_mod_cast leading
  have bit : (2 : ℚ) ^ (972 : ℤ) ≤ 2 ^ lastBit value :=
    zpow_le_zpow_right₀ (by norm_num) (by omega)
  have most : (2 : ℚ) ^ (1024 : ℤ) ≤ |value| :=
    calc (2 : ℚ) ^ (1024 : ℤ) = 2 ^ (52 : ℤ) * 2 ^ (972 : ℤ) :=
          zpow_add₀ (by norm_num) 52 972
      _ ≤ significand value * 2 ^ lastBit value :=
          mul_le_mul leading bit (zpow_nonneg (by norm_num) _) (Nat.cast_nonneg _)
      _ = |value| := double.abs_eq.symm
  have small := double.scaled.2
  rw [← zpow_natCast] at small
  exact absurd most (not_le.mpr small)

/-- The bits of a double lie below those of infinity. -/
theorem IsDouble.magnitudeBits_lt {value : ℚ} (double : IsDouble value)
    : magnitudeBits value < 0x7ff * 2 ^ 52 := by
  have bits := double.significand_lt
  rw [magnitudeBits]
  split
  · omega
  · have least : -1074 ≤ lastBit value := le_max_right ..
    have most := double.lastBit_le (by omega)
    omega

/-- The magnitude of a double is read back from its bits. -/
theorem IsDouble.magnitude_magnitudeBits {value : ℚ} (double : IsDouble value)
    : magnitude (magnitudeBits value) = |value| := by
  have bits := double.significand_lt
  by_cases small : significand value < 2 ^ 52
  · rw [magnitudeBits, if_pos small, magnitude, if_pos small, double.subnormal small]
  · have least : -1074 ≤ lastBit value := le_max_right ..
    obtain ⟨biased, exponent⟩ : ∃ biased : Nat, lastBit value + 1075 = (biased + 1 : Nat) :=
      ⟨(lastBit value + 1074).toNat, by omega⟩
    have fraction
        : ((biased + 1) * 2 ^ 52 + (significand value - 2 ^ 52)) % 2 ^ 52
          = significand value - 2 ^ 52 := by omega
    have exponents
        : ((biased + 1) * 2 ^ 52 + (significand value - 2 ^ 52)) / 2 ^ 52 = biased + 1 := by
      omega
    have whole : 2 ^ 52 + (significand value - 2 ^ 52) = significand value := by omega
    have power : ((biased + 1 : Nat) : ℤ) - 1075 = lastBit value := by omega
    rw [magnitudeBits, if_neg small, exponent, Int.toNat_natCast, magnitude,
      if_neg (by omega), fraction, whole, exponents, power, double.abs_eq]

/-- A bit pattern has 64 bits. -/
theorem toBits_lt {number : Number} {bits : Nat} (wrote : number.toBits = some bits)
    : bits < 2 ^ 64 := by
  cases number with
  | nan =>
      cases wrote
      norm_num
  | infinity negative =>
      cases wrote
      cases negative <;> norm_num
  | finite value =>
      simp only [toBits] at wrote
      split at wrote
      · rename_i double
        have below := IsDouble.magnitudeBits_lt double
        cases wrote
        split <;> omega
      · cases wrote

/-- Every number that has a bit pattern is read back from it. -/
theorem ofBits_toBits {number : Number} {bits : Nat} (wrote : number.toBits = some bits)
    : ofBits bits = number := by
  cases number with
  | nan =>
      cases wrote
      rfl
  | infinity negative =>
      cases wrote
      cases negative <;> rfl
  | finite value =>
      simp only [toBits] at wrote
      split at wrote
      · rename_i double
        have below := IsDouble.magnitudeBits_lt double
        have back := IsDouble.magnitude_magnitudeBits double
        cases wrote
        by_cases negative : value < 0
        · have rest : (2 ^ 63 + magnitudeBits value) % 2 ^ 63 = magnitudeBits value := by omega
          rw [if_pos negative, ofBits, rest]
          simp only [if_pos below, back, Nat.le_add_right, decide_true, if_true,
            abs_of_neg negative, neg_neg]
        · have rest : (0 + magnitudeBits value) % 2 ^ 63 = magnitudeBits value := by omega
          have positive : ¬2 ^ 63 ≤ 0 + magnitudeBits value := by omega
          rw [if_neg negative, ofBits, rest]
          simp only [if_pos below, back, positive, if_false,
            abs_of_nonneg (not_lt.mp negative)]
      · cases wrote

end Js.Number
