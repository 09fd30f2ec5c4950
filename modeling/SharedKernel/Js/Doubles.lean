import SharedKernel.Js.SafeInteger

/-! Seventeen digits tell doubles apart: a decimal that close to a double is read back as it,
so every double has a shortest decimal.
-/

namespace Js.Number

/-- A double represents the value exactly. -/
def IsDouble (value : ℚ) : Prop :=
  ofRat value = finite value

-----------------------------------------------------------------------------------------
-- Rounding
-----------------------------------------------------------------------------------------

/-- A value closer than a half to a whole number rounds to it. -/
theorem roundHalfEven_of_near {value : ℚ} {whole : ℤ} (near : |value - whole| < 1 / 2)
    : roundHalfEven value = whole := by
  obtain ⟨above, below⟩ := abs_lt.mp near
  rcases le_or_gt (whole : ℚ) value with least | less
  · have floor : ⌊value⌋ = whole := Int.floor_eq_iff.mpr ⟨least, by linarith⟩
    simp only [roundHalfEven, floor]
    exact if_pos below
  · have floor : ⌊value⌋ = whole - 1 :=
      Int.floor_eq_iff.mpr ⟨by push_cast; linarith, by push_cast; linarith⟩
    simp only [roundHalfEven, floor]
    push_cast
    rw [if_neg (by linarith), if_pos (by linarith)]
    omega

/-- Rounding moves a value by at most a half. -/
theorem abs_roundHalfEven_sub_le (value : ℚ) : |(roundHalfEven value : ℚ) - value| ≤ 1 / 2 := by
  have least := Int.floor_le value
  have below := Int.lt_floor_add_one value
  rw [abs_le]
  simp only [roundHalfEven]
  split
  · constructor <;> linarith
  · split
    · push_cast
      constructor <;> linarith
    · split
      · constructor <;> linarith
      · push_cast
        constructor <;> linarith

/-- Rounding is odd: a tie goes to the even neighbour on either side of zero. -/
theorem roundHalfEven_neg (value : ℚ) : roundHalfEven (-value) = -roundHalfEven value := by
  rcases lt_or_eq_of_le (abs_roundHalfEven_sub_le value) with near | tie
  · apply roundHalfEven_of_near
    rw [abs_sub_comm] at near
    calc |-value - ((-roundHalfEven value : ℤ) : ℚ)| = |value - roundHalfEven value| := by
          rw [← abs_neg]
          push_cast
          ring_nf
      _ < 1 / 2 := near
  · have half : value - ⌊value⌋ = 1 / 2 := by
      have least := Int.floor_le value
      have below := Int.lt_floor_add_one value
      simp only [roundHalfEven] at tie
      rcases abs_eq (by norm_num) |>.mp tie with up | down
      · split at up
        · linarith
        · split at up
          · push_cast at up
            linarith
          · split at up
            · linarith
            · push_cast at up
              linarith
      · split at down
        · linarith
        · split at down
          · push_cast at down
            linarith
          · split at down
            · linarith
            · push_cast at down
              linarith
    have other : ⌊-value⌋ = -⌊value⌋ - 1 :=
      Int.floor_eq_iff.mpr ⟨by push_cast; linarith, by push_cast; linarith⟩
    simp only [roundHalfEven, other, half]
    push_cast
    rw [show -value - (-(⌊value⌋ : ℚ) - 1) = 1 / 2 by linarith]
    simp only [lt_irrefl, if_false]
    split <;> split <;> omega

@[simp] theorem lastBit_neg (value : ℚ) : lastBit (-value) = lastBit value := by
  rw [lastBit, lastBit, abs_neg]

/-- Reading a decimal is odd. -/
theorem ofRat_neg {exact value : ℚ} (read : ofRat exact = finite value)
    : ofRat (-exact) = finite (-value) := by
  simp only [ofRat] at read
  split at read
  · cases read
  · rename_i small
    have same := finite.inj read
    simp only [ofRat, lastBit_neg, neg_div, roundHalfEven_neg]
    push_cast
    rw [neg_mul, same, abs_neg, if_neg (same ▸ small)]

-----------------------------------------------------------------------------------------
-- Closeness
-----------------------------------------------------------------------------------------

/-- A value has at most 53 bits above its last. -/
theorem abs_lt_lastBit (value : ℚ) : |value| < (2 : ℚ) ^ (lastBit value + 53) := by
  have log := Int.lt_zpow_succ_log_self (b := 2) (by norm_num) |value|
  push_cast at log
  refine lt_of_lt_of_le log (zpow_le_zpow_right₀ (by norm_num) ?_)
  rw [lastBit]
  omega

/-- A normal value has all of the 53 bits. -/
theorem lastBit_le_abs {value : ℚ} (nonzero : value ≠ 0) (normal : -1074 < lastBit value)
    : (2 : ℚ) ^ (lastBit value + 52) ≤ |value| := by
  have log := Int.zpow_log_le_self (b := 2) (by norm_num) (abs_pos.mpr nonzero)
  push_cast at log
  refine le_trans (zpow_le_zpow_right₀ (by norm_num) ?_) log
  rw [lastBit] at normal ⊢
  omega

/-- A double is a whole number of its last bits, and not too large. -/
theorem IsDouble.scaled {value : ℚ} (double : IsDouble value)
    : (∃ whole : ℤ, value = whole * (2 : ℚ) ^ lastBit value)
      ∧ |value| < (2 : ℚ) ^ (1024 : Nat) := by
  simp only [IsDouble, ofRat] at double
  split at double
  · cases double
  · rename_i small
    have same := finite.inj double
    exact ⟨⟨_, same.symm⟩, by rw [same] at small; exact not_le.mp small⟩

/-- A value as close to a double as its seventeenth digit has no coarser last bit; witness:
the next coarser values begin a whole last bit above the double.
-/
theorem lastBit_le_of_close {value close : ℚ} (double : IsDouble value) (positive : 0 < value)
    (above : 0 < close) (near : |close - value| * (2 * 10 ^ 16) ≤ value)
    : lastBit close ≤ lastBit value := by
  by_contra! coarser
  obtain ⟨⟨whole, same⟩, _⟩ := double.scaled
  have unit : (0 : ℚ) < 2 ^ lastBit value := zpow_pos (by norm_num) _
  have below := abs_lt_lastBit value
  rw [abs_of_pos positive, zpow_add₀ (by norm_num)] at below
  have least : (2 : ℚ) ^ (lastBit close + 52) ≤ close := by
    have lowest : -1074 ≤ lastBit value := le_max_right _ _
    have bits := lastBit_le_abs above.ne' (lt_of_le_of_lt lowest coarser)
    rwa [abs_of_pos above] at bits
  obtain ⟨places, count⟩ := Int.eq_ofNat_of_zero_le (show 0 ≤ lastBit close + 52 - lastBit value by
    omega)
  have boundary : (2 : ℚ) ^ (lastBit close + 52) = 2 ^ places * 2 ^ lastBit value := by
    rw [show lastBit close + 52 = places + lastBit value by omega, zpow_add₀ (by norm_num),
      zpow_natCast]
  have under : value < 2 ^ places * 2 ^ lastBit value := by
    have steps : 53 ≤ places := by omega
    calc value < 2 ^ lastBit value * 2 ^ (53 : ℤ) := below
      _ = 2 ^ (53 : Nat) * 2 ^ lastBit value := by
          rw [mul_comm]
          norm_cast
      _ ≤ 2 ^ places * 2 ^ lastBit value :=
          mul_le_mul_of_nonneg_right (pow_le_pow_right₀ (by norm_num) steps) unit.le
  have next : whole + 1 ≤ (2 ^ places : ℤ) := by
    have : (whole : ℚ) < 2 ^ places :=
      lt_of_mul_lt_mul_right (lt_of_eq_of_lt same.symm under) unit.le
    exact_mod_cast this
  have apart : 2 ^ lastBit value ≤ close - value := by
    have : ((whole : ℚ) + 1) * 2 ^ lastBit value ≤ 2 ^ places * 2 ^ lastBit value :=
      mul_le_mul_of_nonneg_right (by exact_mod_cast next) unit.le
    linarith
  have gap := le_abs_self (close - value)
  norm_num at below near
  linarith

/-- A value as close to a double as its seventeenth digit is read back as the double. -/
theorem ofRat_of_close {value close : ℚ} (double : IsDouble value) (positive : 0 < value)
    (near : |close - value| * (2 * 10 ^ 16) ≤ value)
    : ofRat close = finite value := by
  obtain ⟨up, down⟩ := abs_le.mp (le_refl |close - value|)
  have above : 0 < close := by
    norm_num at near
    linarith
  have finer := lastBit_le_of_close double positive above near
  obtain ⟨⟨whole, same⟩, small⟩ := double.scaled
  obtain ⟨places, count⟩ := Int.eq_ofNat_of_zero_le (sub_nonneg.mpr finer)
  have unit : (0 : ℚ) < 2 ^ lastBit close := zpow_pos (by norm_num) _
  have scaled : value = ((whole * 2 ^ places : ℤ) : ℚ) * 2 ^ lastBit close := by
    rw [same]
    push_cast
    rw [show lastBit value = places + lastBit close by omega, zpow_add₀ (by norm_num),
      zpow_natCast, ← mul_assoc]
  have below : close < 2 ^ lastBit close * 2 ^ (53 : ℤ) := by
    have bits := abs_lt_lastBit close
    rwa [abs_of_pos above, zpow_add₀ (by norm_num)] at bits
  have nearest : roundHalfEven (close / 2 ^ lastBit close) = whole * 2 ^ places := by
    apply roundHalfEven_of_near
    have moved : close / 2 ^ lastBit close - ((whole * 2 ^ places : ℤ) : ℚ)
        = (close - value) / 2 ^ lastBit close := by
      rw [scaled, sub_div, mul_div_cancel_right₀ _ unit.ne']
    rw [moved, abs_div, abs_of_pos unit, div_lt_iff₀ unit]
    norm_num at below near
    linarith
  simp only [ofRat]
  rw [nearest, ← scaled, if_neg (not_le.mpr small)]

-----------------------------------------------------------------------------------------
-- The shortest decimal
-----------------------------------------------------------------------------------------

/-- A candidate reads back as the double, whatever its number of digits. -/
theorem ofRat_candidate {value : ℚ} {significant significand : Nat} {exponent : ℤ}
    (found : candidate value significant = some (significand, exponent))
    : ofRat (significand * 10 ^ exponent) = finite value := by
  simp only [candidate, Option.map_eq_some_iff] at found
  obtain ⟨digits, among, same⟩ := found
  have tried := List.find?_some among
  have reads := of_decide_eq_true tried
  split at same
  · rename_i full
    obtain ⟨rfl, rfl⟩ := Prod.mk.inj same
    rw [← reads, full]
    push_cast
    rw [one_mul, zpow_add₀ (by norm_num), zpow_natCast, mul_comm]
  · obtain ⟨rfl, rfl⟩ := Prod.mk.inj same
    exact reads

/-- With seventeen digits there is a candidate; witness: the nearer neighbour is half a unit
of the seventeenth digit away at most.
-/
theorem candidate_seventeen {value : ℚ} (double : IsDouble value) (positive : 0 < value)
    : (candidate value 17).isSome := by
  have scale : (0 : ℚ) < 10 ^ (Int.log 10 value + 1 - 17) := zpow_pos (by norm_num) _
  have scaled : 0 ≤ value / 10 ^ (Int.log 10 value + 1 - 17) := (div_pos positive scale).le
  have fine : (10 : ℚ) ^ (Int.log 10 value + 1 - 17) * 10 ^ 16 ≤ value := by
    have log := Int.zpow_log_le_self (b := 10) (by norm_num) positive
    push_cast at log
    rwa [← zpow_natCast, ← zpow_add₀ (by norm_num),
      show Int.log 10 value + 1 - 17 + ((16 : Nat) : ℤ) = Int.log 10 value by push_cast; ring]
  have nearest : ∀ digits : Nat,
      roundHalfEven (value / 10 ^ (Int.log 10 value + 1 - 17)) = digits
      → ofRat (digits * 10 ^ (Int.log 10 value + 1 - 17)) = finite value := by
    intro digits same
    apply ofRat_of_close double positive
    have moved := abs_roundHalfEven_sub_le (value / 10 ^ (Int.log 10 value + 1 - 17))
    rw [same] at moved
    have back : (digits : ℚ) * 10 ^ (Int.log 10 value + 1 - 17) - value
        = ((digits : ℤ) - value / 10 ^ (Int.log 10 value + 1 - 17))
          * 10 ^ (Int.log 10 value + 1 - 17) := by
      rw [sub_mul, div_mul_cancel₀ _ scale.ne']
      push_cast
      rfl
    rw [back, abs_mul, abs_of_pos scale]
    have within := mul_le_mul_of_nonneg_right moved scale.le
    norm_num at within fine ⊢
    linarith
  have below : ((⌊value / 10 ^ (Int.log 10 value + 1 - 17)⌋₊ : Nat) : ℤ)
      = ⌊value / 10 ^ (Int.log 10 value + 1 - 17)⌋ :=
    Int.natCast_floor_eq_floor scaled
  simp only [candidate, Option.isSome_map, List.find?_isSome]
  push_cast
  split
  · rename_i same
    exact ⟨_, List.mem_cons_self .., decide_eq_true (nearest _ same)⟩
  · rename_i other
    refine ⟨_, List.mem_cons_self .., decide_eq_true (nearest _ ?_)⟩
    rw [below] at other
    push_cast
    rw [below]
    exact (roundHalfEven_eq_or _).resolve_left other

/-- The shortest decimal is the candidate of the fewest digits. -/
theorem shortest_eq_candidate {value : ℚ} (double : IsDouble value) (positive : 0 < value)
    : ∃ significant,
        1 ≤ significant
        ∧ candidate value significant = some (shortest value)
        ∧ ∀ fewer, 1 ≤ fewer → fewer < significant → candidate value fewer = none := by
  have found : ((List.range' 1 17).findSome? (candidate value)).isSome := by
    rw [List.isSome_findSome?, List.any_eq_true]
    refine ⟨17, ?_, candidate_seventeen double positive⟩
    rw [List.mem_range'_1]
    omega
  obtain ⟨decimal, first⟩ := Option.isSome_iff_exists.mp found
  obtain ⟨before, significant, after, split, reads, none⟩ := List.findSome?_eq_some_iff.mp first
  have among : significant ∈ List.range' 1 17 := by simp [split]
  rw [List.mem_range'_1] at among
  refine ⟨significant, among.1, ?_, ?_⟩
  · rw [shortest, first]
    exact reads
  · intro fewer least less
    have tried : fewer ∈ before ++ significant :: after := by
      rw [← split, List.mem_range'_1]
      omega
    have sorted : (before ++ significant :: after).Pairwise (· < ·) := by
      rw [← split]
      exact List.pairwise_lt_range'
    rcases List.mem_append.mp tried with early | late
    · exact none fewer early
    · rcases List.mem_cons.mp late with rfl | later
      · exact absurd less (lt_irrefl _)
      · have := (List.pairwise_cons.mp (List.pairwise_append.mp sorted).2.1).1 fewer later
        omega

/-- The shortest decimal of a double is read back as it. -/
theorem ofRat_shortest {value : ℚ} (double : IsDouble value) (positive : 0 < value)
    : ofRat ((shortest value).1 * 10 ^ (shortest value).2) = finite value := by
  obtain ⟨significant, _, reads, _⟩ := shortest_eq_candidate double positive
  exact ofRat_candidate reads

/-- The shortest decimal of a positive double is not zero. -/
theorem shortest_pos {value : ℚ} (double : IsDouble value) (positive : 0 < value)
    : 0 < (shortest value).1 := by
  by_contra! none
  have reads := ofRat_shortest double positive
  rw [Nat.le_zero.mp none, Nat.cast_zero, zero_mul] at reads
  have zero : ofRat 0 = finite 0 := by exact_mod_cast ofRat_natCast (Nat.zero_le (2 ^ 53))
  rw [zero] at reads
  exact positive.ne (finite.inj reads)

end Js.Number
