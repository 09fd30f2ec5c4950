import SharedKernel.Js.Monotone

/-! Doubles from 2^53 on are even whole numbers: adding one to them is lost, to even or not. -/

namespace Js.Number

-----------------------------------------------------------------------------------------
-- Ties
-----------------------------------------------------------------------------------------

theorem floor_add_half (whole : ℤ) : ⌊(whole : ℚ) + 1 / 2⌋ = whole :=
  Int.floor_eq_iff.mpr ⟨by linarith, by linarith⟩

/-- A tie goes to an even number. -/
theorem even_roundHalfEven_tie (whole : ℤ) : Even (roundHalfEven ((whole : ℚ) + 1 / 2)) := by
  simp only [roundHalfEven, floor_add_half, add_sub_cancel_left, lt_irrefl, if_false]
  split
  · rename_i even
    exact Int.even_iff.mpr even
  · rename_i odd
    exact Int.even_iff.mpr (by omega)

/-- A tie above an even number goes down to it. -/
theorem roundHalfEven_tie {whole : ℤ} (even : Even whole)
    : roundHalfEven ((whole : ℚ) + 1 / 2) = whole := by
  simp only [roundHalfEven, floor_add_half, add_sub_cancel_left, lt_irrefl, if_false,
    if_pos (Int.even_iff.mp even)]

-----------------------------------------------------------------------------------------
-- Whole doubles
-----------------------------------------------------------------------------------------

/-- The last bit of a large number counts twos. -/
theorem lastBit_large {value : Nat} (least : 2 ^ 53 ≤ value)
    : ∃ bit : Nat,
        lastBit (value : ℚ) = bit
        ∧ 1 ≤ bit
        ∧ 2 ^ (bit + 52) ≤ value
        ∧ value < 2 ^ (bit + 53) := by
  have nonzero : value ≠ 0 := by
    have : 0 < 2 ^ 53 := by norm_num
    omega
  have bits : 53 ≤ Nat.log 2 value := Nat.le_log_of_pow_le (by norm_num) least
  have count : Nat.log 2 value - 52 + 52 = Nat.log 2 value := by omega
  have next : Nat.log 2 value - 52 + 53 = Nat.log 2 value + 1 := by omega
  refine ⟨Nat.log 2 value - 52, ?_, by omega, ?_, ?_⟩
  · rw [lastBit_natCast]
    omega
  · rw [count]
    exact Nat.pow_log_le_self 2 nonzero
  · rw [next]
    exact Nat.lt_pow_succ_log_self (by norm_num) value

/-- A double from 2^53 up to 2^64. -/
structure Large (value : Nat) : Prop where
  double : IsDouble (value : ℚ)
  least : 2 ^ 53 ≤ value
  most : value ≤ 2 ^ 64

theorem Large.positive {value : Nat} (large : Large value) : (0 : ℚ) < value := by
  have : 2 ^ 53 ≤ value := large.least
  have : 0 < value := by
    have : 0 < 2 ^ 53 := by norm_num
    omega
  exact_mod_cast this

/-- A large double is a whole number of its last bits. -/
theorem Large.multiple {value : Nat} (large : Large value) {bit : Nat}
    (last : lastBit (value : ℚ) = bit)
    : ∃ whole, value = whole * 2 ^ bit := by
  obtain ⟨⟨whole, same⟩, _⟩ := large.double.scaled
  rw [last, zpow_natCast] at same
  have exact : (value : ℤ) = whole * 2 ^ bit := by exact_mod_cast same
  have natural : 0 ≤ whole := by
    have unit : (0 : ℤ) < 2 ^ bit := by positivity
    by_contra! negative
    have := mul_neg_of_neg_of_pos negative unit
    omega
  obtain ⟨count, rfl⟩ := Int.eq_ofNat_of_zero_le natural
  exact ⟨count, by exact_mod_cast exact⟩

theorem Large.even {value : Nat} (large : Large value) : Even value :=
  even_of_ofRat large.least large.double

/-- A large number is read as a large double that is no larger than a double above the number,
and an odd one as a multiple of four: its half is a tie, or its last bit is at least four.
-/
theorem ofRat_large {value bound : Nat} (least : 2 ^ 53 ≤ value) (most : value ≤ bound)
    (top : IsDouble (bound : ℚ)) (small : bound ≤ 2 ^ 64)
    : ∃ double : Nat,
        ofRat (value : ℚ) = finite double
        ∧ Large double
        ∧ double ≤ bound
        ∧ (Odd value → 4 ∣ double) := by
  obtain ⟨bit, last, some_bits, above, _⟩ := lastBit_large least
  have positive : (0 : ℚ) < value := by
    have : 0 < value := lt_of_lt_of_le (by norm_num) least
    exact_mod_cast this
  have scaled : 0 ≤ roundHalfEven ((value : ℚ) / 2 ^ bit) :=
    le_roundHalfEven (by push_cast; positivity)
  obtain ⟨count, near⟩ := Int.eq_ofNat_of_zero_le scaled
  have whole : rounded (value : ℚ) = ((count * 2 ^ bit : Nat) : ℚ) := by
    rw [rounded, last, zpow_natCast, near]
    push_cast
    rfl
  have low : ((2 ^ 53 : Nat) : ℚ) ≤ rounded value := by
    have safe := ofRat_eq_finite_iff.mp (ofRat_natCast (le_refl (2 ^ 53)))
    rw [← safe.1]
    exact rounded_mono (by norm_num) (by exact_mod_cast least)
  have high : rounded (value : ℚ) ≤ bound := by
    rw [← (ofRat_eq_finite_iff.mp top).1]
    exact rounded_mono positive (by exact_mod_cast most)
  rw [whole] at low high
  have below : count * 2 ^ bit ≤ bound := by exact_mod_cast high
  have read : ofRat (value : ℚ) = finite ((count * 2 ^ bit : Nat) : ℚ) := by
    refine ofRat_eq_finite_iff.mpr ⟨whole, ?_⟩
    rw [abs_of_nonneg (Nat.cast_nonneg _)]
    calc ((count * 2 ^ bit : Nat) : ℚ) ≤ 2 ^ 64 := by exact_mod_cast below.trans small
      _ < (2 : ℚ) ^ (1024 : Nat) := pow_lt_pow_right₀ (by norm_num) (by norm_num)
  refine ⟨_, read, ⟨isDouble_of_read positive read, by exact_mod_cast low, below.trans small⟩,
    below, ?_⟩
  intro odd
  rcases Nat.lt_or_eq_of_le some_bits with more | single
  · have four : 2 ^ 2 ∣ 2 ^ bit := pow_dvd_pow 2 more
    exact Dvd.dvd.mul_left four count
  · subst single
    obtain ⟨half, rfl⟩ := odd
    have tie : ((2 * half + 1 : Nat) : ℚ) / 2 ^ 1 = ((half : ℤ) : ℚ) + 1 / 2 := by
      push_cast
      ring
    have even := even_roundHalfEven_tie half
    rw [← tie, near] at even
    obtain ⟨quarter, same⟩ : Even count := by exact_mod_cast even
    exact ⟨quarter, by rw [same]; ring⟩

/-- One more than a large double that four divides is read as the double: it is closer than
half a last bit, or a tie above an even number of them.
-/
theorem Large.ofRat_succ {value : Nat} (large : Large value) (four : 4 ∣ value)
    : ofRat ((value + 1 : Nat) : ℚ) = finite value := by
  obtain ⟨bit, last, some_bits, above, below⟩ := lastBit_large large.least
  obtain ⟨whole, same⟩ := large.multiple last
  have next : lastBit ((value + 1 : Nat) : ℚ) = bit := by
    obtain ⟨nextBit, nextLast, _, nextAbove, nextBelow⟩ :=
      lastBit_large (Nat.le_succ_of_le large.least)
    -- both powers of two are even, so one more does not reach the next
    have room : value + 1 < 2 ^ (bit + 53) := by
      obtain ⟨half, double⟩ := large.even
      have power : 2 ^ (bit + 53) = 2 * 2 ^ (bit + 52) := by ring
      omega
    have less : nextBit + 52 < bit + 53 :=
      (Nat.pow_lt_pow_iff_right (by norm_num)).mp (lt_of_le_of_lt nextAbove room)
    have more : bit + 52 < nextBit + 53 :=
      (Nat.pow_lt_pow_iff_right (by norm_num)).mp
        (lt_of_le_of_lt above (lt_trans (Nat.lt_succ_self _) nextBelow))
    rw [nextLast]
    congr 1
    omega
  have scaled : ((value + 1 : Nat) : ℚ) / 2 ^ bit = (whole : ℤ) + 1 / 2 ^ bit := by
    rw [same]
    push_cast
    rw [add_div, mul_div_cancel_right₀ _ (pow_ne_zero _ (by norm_num))]
  have nearest : roundHalfEven (((value + 1 : Nat) : ℚ) / 2 ^ bit) = whole := by
    rw [scaled]
    rcases Nat.lt_or_eq_of_le some_bits with more | single
    · apply roundHalfEven_of_near
      have four' : (2 : ℚ) ^ 2 ≤ 2 ^ bit := pow_le_pow_right₀ (by norm_num) more
      have small : (1 : ℚ) / 2 ^ bit ≤ 1 / 2 ^ 2 := one_div_le_one_div_of_le (by norm_num) four'
      rw [add_sub_cancel_left, abs_of_pos (by positivity)]
      norm_num at small ⊢
      linarith
    · subst single
      have even : Even (whole : ℤ) := by
        obtain ⟨quarter, double⟩ := four
        exact_mod_cast (⟨quarter, by omega⟩ : Even whole)
      rw [pow_one]
      exact roundHalfEven_tie even
  refine ofRat_eq_finite_iff.mpr ⟨?_, large.double.scaled.2⟩
  rw [rounded, next, zpow_natCast, nearest, same]
  push_cast
  rfl

end Js.Number
