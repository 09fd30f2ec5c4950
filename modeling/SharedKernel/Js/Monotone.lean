import SharedKernel.Js.Doubles

/-! Rounding keeps the order of the values: what rounds to one double is an interval around it,
no wider than the double's last bit.
-/

namespace Js.Number

-----------------------------------------------------------------------------------------
-- Rounding to a whole number
-----------------------------------------------------------------------------------------

/-- No whole number is closer than the rounded value. -/
theorem roundHalfEven_nearest (value : ℚ) (whole : ℤ)
    : |(roundHalfEven value : ℚ) - value| ≤ |(whole : ℚ) - value| := by
  rcases eq_or_ne whole (roundHalfEven value) with rfl | other
  · exact le_refl _
  · have apart : (1 : ℚ) ≤ |(whole : ℚ) - roundHalfEven value| := by
      exact_mod_cast Int.one_le_abs (sub_ne_zero.mpr other)
    have moved := abs_roundHalfEven_sub_le value
    have between := abs_sub_le (whole : ℚ) value (roundHalfEven value)
    rw [abs_sub_comm value] at between
    linarith

/-- Rounding never goes below a whole number that bounds the value. -/
theorem le_roundHalfEven {value : ℚ} {bound : ℤ} (above : (bound : ℚ) ≤ value)
    : bound ≤ roundHalfEven value :=
  le_trans (Int.le_floor.mpr above) (floor_le_roundHalfEven value)

/-- Rounding keeps the order; witness: below one floor both rests are compared with a half. -/
theorem roundHalfEven_mono {low high : ℚ} (order : low ≤ high)
    : roundHalfEven low ≤ roundHalfEven high := by
  rcases lt_or_eq_of_le (Int.floor_le_floor order) with less | same
  · have first : roundHalfEven low ≤ ⌊low⌋ + 1 := by
      rcases roundHalfEven_eq_or low with below | next <;> omega
    have second := floor_le_roundHalfEven high
    omega
  · simp only [roundHalfEven, same]
    have rests : low - ⌊high⌋ ≤ high - ⌊high⌋ := by linarith
    split
    · split
      · exact le_refl _
      · split
        · omega
        · split <;> omega
    · rename_i half
      rw [if_neg (show ¬ high - ⌊high⌋ < 1 / 2 by linarith)]
      split
      · rename_i more
        rw [if_pos (show 1 / 2 < high - ⌊high⌋ by linarith)]
      · split
        · split <;> omega
        · split <;> omega

-----------------------------------------------------------------------------------------
-- Rounding to a double
-----------------------------------------------------------------------------------------

/-- The value rounded to its last bit, whether or not it is too large for a double. -/
def rounded (value : ℚ) : ℚ :=
  roundHalfEven (value / 2 ^ lastBit value) * (2 : ℚ) ^ lastBit value

/-- A value is read as a double that it rounds to. -/
theorem ofRat_eq_finite_iff {exact value : ℚ}
    : ofRat exact = finite value
      ↔ rounded exact = value ∧ |value| < (2 : ℚ) ^ (1024 : Nat) := by
  change (if (2 : ℚ) ^ (1024 : Nat) ≤ |rounded exact| then infinity (rounded exact < 0)
    else finite (rounded exact)) = finite value ↔ _
  split
  · rename_i large
    constructor
    · intro absurd
      cases absurd
    · rintro ⟨rfl, small⟩
      exact absurd large (not_le.mpr small)
  · rename_i small
    rw [Number.finite.injEq]
    constructor
    · rintro rfl
      exact ⟨rfl, not_le.mp small⟩
    · exact And.left

/-- A larger value has no finer last bit. -/
theorem lastBit_mono {low high : ℚ} (positive : 0 < low) (order : low ≤ high)
    : lastBit low ≤ lastBit high := by
  rw [lastBit, lastBit, abs_of_pos positive, abs_of_pos (lt_of_lt_of_le positive order)]
  have log := Int.log_mono_right (b := 2) positive order
  omega

/-- Rounding goes at most to the end of the values with the same last bit. -/
theorem rounded_le {value : ℚ} (positive : 0 < value)
    : rounded value ≤ (2 : ℚ) ^ (lastBit value + 53) := by
  have unit : (0 : ℚ) < 2 ^ lastBit value := zpow_pos (by norm_num) _
  have below := abs_lt_lastBit value
  rw [abs_of_pos positive, zpow_add₀ (by norm_num), mul_comm] at below
  have scaled : value / 2 ^ lastBit value ≤ ((2 ^ 53 : ℤ) : ℚ) := by
    rw [div_le_iff₀ unit]
    exact_mod_cast below.le
  rw [rounded, zpow_add₀ (by norm_num), mul_comm ((2 : ℚ) ^ lastBit value)]
  apply mul_le_mul_of_nonneg_right _ unit.le
  exact_mod_cast roundHalfEven_le scaled

/-- Rounding a normal value goes at least to the start of the values with its last bit. -/
theorem le_rounded {value : ℚ} (positive : 0 < value) (normal : -1074 < lastBit value)
    : (2 : ℚ) ^ (lastBit value + 52) ≤ rounded value := by
  have unit : (0 : ℚ) < 2 ^ lastBit value := zpow_pos (by norm_num) _
  have above := lastBit_le_abs positive.ne' normal
  rw [abs_of_pos positive, zpow_add₀ (by norm_num), mul_comm] at above
  have scaled : ((2 ^ 52 : ℤ) : ℚ) ≤ value / 2 ^ lastBit value := by
    rw [le_div_iff₀ unit]
    exact_mod_cast above
  rw [rounded, zpow_add₀ (by norm_num), mul_comm ((2 : ℚ) ^ lastBit value)]
  apply mul_le_mul_of_nonneg_right _ unit.le
  exact_mod_cast le_roundHalfEven scaled

/-- Rounding keeps the order; witness: between two last bits lies a power of two that neither
side passes.
-/
theorem rounded_mono {low high : ℚ} (positive : 0 < low) (order : low ≤ high)
    : rounded low ≤ rounded high := by
  rcases lt_or_eq_of_le (lastBit_mono positive order) with finer | same
  · have normal : -1074 < lastBit high := lt_of_le_of_lt (le_max_right _ _) finer
    calc rounded low ≤ (2 : ℚ) ^ (lastBit low + 53) := rounded_le positive
      _ ≤ (2 : ℚ) ^ (lastBit high + 52) :=
          zpow_le_zpow_right₀ (by norm_num) (by omega)
      _ ≤ rounded high := le_rounded (lt_of_lt_of_le positive order) normal
  · have unit : (0 : ℚ) < 2 ^ lastBit high := zpow_pos (by norm_num) _
    rw [rounded, rounded, same]
    apply mul_le_mul_of_nonneg_right _ unit.le
    exact_mod_cast roundHalfEven_mono (div_le_div_of_nonneg_right order unit.le)

/-- What lies between two values that are read as one double is read as it too. -/
theorem ofRat_between {low middle high value : ℚ} (positive : 0 < low)
    (first : ofRat low = finite value) (last : ofRat high = finite value)
    (above : low ≤ middle) (below : middle ≤ high)
    : ofRat middle = finite value := by
  obtain ⟨least, small⟩ := ofRat_eq_finite_iff.mp first
  obtain ⟨most, _⟩ := ofRat_eq_finite_iff.mp last
  have up := rounded_mono positive above
  have down := rounded_mono (lt_of_lt_of_le positive above) below
  exact ofRat_eq_finite_iff.mpr ⟨le_antisymm (by linarith) (by linarith), small⟩

/-- What is read as a double has no coarser last bit: the next coarser values round to a power
of two above the double.
-/
theorem lastBit_le_of_read {exact value : ℚ} (positive : 0 < exact)
    (read : ofRat exact = finite value)
    : lastBit exact ≤ lastBit value := by
  by_contra! coarser
  obtain ⟨same, _⟩ := ofRat_eq_finite_iff.mp read
  have least := le_rounded positive (lt_of_le_of_lt (le_max_right _ _) coarser)
  have below := abs_lt_lastBit value
  have power : (2 : ℚ) ^ (lastBit value + 53) ≤ 2 ^ (lastBit exact + 52) :=
    zpow_le_zpow_right₀ (by norm_num) (by omega)
  have size := le_abs_self value
  rw [same] at least
  linarith

/-- Reading moves a value by at most half the double's last bit. -/
theorem abs_sub_le_of_read {exact value : ℚ} (positive : 0 < exact)
    (read : ofRat exact = finite value)
    : |exact - value| ≤ 2 ^ lastBit value / 2 := by
  have unit : (0 : ℚ) < 2 ^ lastBit exact := zpow_pos (by norm_num) _
  have finer : (2 : ℚ) ^ lastBit exact ≤ 2 ^ lastBit value :=
    zpow_le_zpow_right₀ (by norm_num) (lastBit_le_of_read positive read)
  obtain ⟨same, _⟩ := ofRat_eq_finite_iff.mp read
  have back : value - exact
      = (roundHalfEven (exact / 2 ^ lastBit exact) - exact / 2 ^ lastBit exact)
        * 2 ^ lastBit exact := by
    rw [sub_mul, div_mul_cancel₀ _ unit.ne', ← same, rounded]
  have moved := mul_le_mul_of_nonneg_right
    (abs_roundHalfEven_sub_le (exact / 2 ^ lastBit exact)) unit.le
  rw [abs_sub_comm, back, abs_mul, abs_of_pos unit]
  linarith

/-- A whole number of a coarser bit is a double. -/
theorem isDouble_of_multiple {value : ℚ} {whole bit : ℤ} (same : value = whole * (2 : ℚ) ^ bit)
    (finer : lastBit value ≤ bit) (small : |value| < (2 : ℚ) ^ (1024 : Nat))
    : IsDouble value := by
  obtain ⟨places, count⟩ := Int.eq_ofNat_of_zero_le (sub_nonneg.mpr finer)
  apply @ofRat_of_scaled value (whole * 2 ^ places) _ small
  have unit : (2 : ℚ) ^ lastBit value ≠ 0 := zpow_ne_zero _ (by norm_num)
  have split : (2 : ℚ) ^ bit = 2 ^ places * 2 ^ lastBit value := by
    rw [show bit = places + lastBit value by omega, zpow_add₀ (by norm_num), zpow_natCast]
  rw [div_eq_iff unit]
  push_cast
  rw [mul_assoc, ← split]
  exact same

/-- What a positive value is read as is a double. -/
theorem isDouble_of_read {exact value : ℚ} (positive : 0 < exact)
    (read : ofRat exact = finite value)
    : IsDouble value := by
  obtain ⟨same, small⟩ := ofRat_eq_finite_iff.mp read
  have least : -1074 ≤ lastBit exact := le_max_right _ _
  rcases eq_or_ne value 0 with rfl | nonzero
  · exact_mod_cast ofRat_natCast (Nat.zero_le (2 ^ 53))
  rcases lt_or_eq_of_le (rounded_le positive) with below | full
  · apply isDouble_of_multiple same.symm _ small
    have size : |value| = rounded exact := by
      rw [← same, abs_of_nonneg]
      have unit : (0 : ℚ) < 2 ^ lastBit exact := zpow_pos (by norm_num) _
      apply mul_nonneg _ unit.le
      exact_mod_cast le_roundHalfEven (by push_cast; positivity)
    have log : Int.log 2 |value| < lastBit exact + 53 := by
      rw [← Int.lt_zpow_iff_log_lt (by norm_num) (abs_pos.mpr nonzero), size]
      exact_mod_cast below
    rw [lastBit]
    omega
  · -- a power of two begins the values with the next coarser last bit
    have power : value = (1 : ℤ) * (2 : ℚ) ^ (lastBit exact + 53) := by
      rw [← same, full]
      push_cast
      ring
    apply isDouble_of_multiple power _ small
    have positive' : (0 : ℚ) < 2 ^ (lastBit exact + 53) := zpow_pos (by norm_num) _
    have log : Int.log 2 |value| = lastBit exact + 53 := by
      rw [← same, full, abs_of_pos positive']
      exact_mod_cast Int.log_zpow (R := ℚ) (b := 2) (by norm_num) (lastBit exact + 53)
    rw [lastBit, log]
    omega

end Js.Number
