import Mathlib.Data.List.TakeWhile
import SharedKernel.Js.Number

/-! Integers up to 2^53 are doubles: they are represented exactly, and both their decimal text
and the number read from it are the expected ones.
-/

namespace Js.Number

-----------------------------------------------------------------------------------------
-- Exact representation
-----------------------------------------------------------------------------------------

@[simp] theorem roundHalfEven_intCast (value : ℤ) : roundHalfEven (value : ℚ) = value := by
  simp [roundHalfEven]

/-- Rounding goes to the floor or to the next whole number. -/
theorem roundHalfEven_eq_or (value : ℚ)
    : roundHalfEven value = ⌊value⌋ ∨ roundHalfEven value = ⌊value⌋ + 1 := by
  simp only [roundHalfEven]
  split
  · exact Or.inl rfl
  · split
    · exact Or.inr rfl
    · split
      · exact Or.inl rfl
      · exact Or.inr rfl

/-- Rounding never goes below the floor. -/
theorem floor_le_roundHalfEven (value : ℚ) : ⌊value⌋ ≤ roundHalfEven value := by
  rcases roundHalfEven_eq_or value with same | next <;> omega

/-- The last bit of a natural number lies 52 places below its first. -/
theorem lastBit_natCast (value : Nat) : lastBit value = (Nat.log 2 value : ℤ) - 52 := by
  have log : Int.log 2 |(value : ℚ)| = Nat.log 2 value := by
    rw [abs_of_nonneg (Nat.cast_nonneg value), Int.log_natCast]
  rw [lastBit, log]
  omega

/-- A value that is a whole number of its last bits is a double. -/
theorem ofRat_of_scaled {value : ℚ} {scaled : ℤ} (whole : value / 2 ^ lastBit value = scaled)
    (small : |value| < (2 : ℚ) ^ (1024 : Nat))
    : ofRat value = finite value := by
  have unit : (2 : ℚ) ^ lastBit value ≠ 0 := zpow_ne_zero _ (by norm_num)
  have back : (scaled : ℚ) * 2 ^ lastBit value = value := by
    rw [← whole]
    exact div_mul_cancel₀ value unit
  simp only [ofRat]
  rw [whole, roundHalfEven_intCast, back, if_neg (not_le.mpr small)]

/-- A natural number up to 2^53 is a double; witness: its last bit is at most the unit. -/
theorem ofRat_natCast {value : Nat} (safe : value ≤ 2 ^ 53)
    : ofRat (value : ℚ) = finite value := by
  have small : |(value : ℚ)| < (2 : ℚ) ^ (1024 : Nat) := by
    rw [abs_of_nonneg (Nat.cast_nonneg value)]
    calc (value : ℚ) ≤ (2 : ℚ) ^ (53 : Nat) := by exact_mod_cast safe
      _ < (2 : ℚ) ^ (1024 : Nat) := pow_lt_pow_right₀ (by norm_num) (by norm_num)
  rcases Nat.lt_or_eq_of_le safe with below | rfl
  · have bits : Nat.log 2 value < 53 := Nat.log_lt_of_lt_pow' (by norm_num) below
    apply @ofRat_of_scaled _ (value * 2 ^ (52 - Nat.log 2 value)) _ small
    have exponent : (Nat.log 2 value : ℤ) - 52 = -((52 - Nat.log 2 value : Nat) : ℤ) := by
      omega
    rw [lastBit_natCast, exponent, zpow_neg, zpow_natCast, div_inv_eq_mul]
    push_cast
    ring
  · apply @ofRat_of_scaled _ (2 ^ 52) _ small
    have bits : Nat.log 2 (2 ^ 53) = 53 := Nat.log_pow (by norm_num) 53
    rw [lastBit_natCast, bits]
    norm_num

/-- A larger natural number never rounds below 2^53; witness: its 53 first bits are at least
2^52 times its last bit.
-/
theorem ofRat_ne_of_large {value below : Nat} (large : 2 ^ 53 ≤ value) (safe : below < 2 ^ 53)
    : ofRat (value : ℚ) ≠ finite below := by
  intro same
  have positive : value ≠ 0 := by
    have : 0 < 2 ^ 53 := by norm_num
    omega
  have bits : 53 ≤ Nat.log 2 value := Nat.le_log_of_pow_le (by norm_num) large
  have exponent : (Nat.log 2 value : ℤ) - 52 = ((Nat.log 2 value - 52 : Nat) : ℤ) := by
    omega
  have split : (2 : ℚ) ^ (52 : Nat) * 2 ^ (Nat.log 2 value - 52) = 2 ^ Nat.log 2 value := by
    rw [← pow_add]
    congr 1
    omega
  have leading : (2 : ℤ) ^ 52 ≤ ⌊(value : ℚ) / 2 ^ lastBit value⌋ := by
    rw [Int.le_floor, lastBit_natCast, exponent, zpow_natCast, le_div_iff₀ (by positivity)]
    calc (((2 : ℤ) ^ 52 : ℤ) : ℚ) * 2 ^ (Nat.log 2 value - 52) = 2 ^ Nat.log 2 value := by
          rw [← split]
          norm_num
      _ ≤ value := by exact_mod_cast Nat.pow_log_le_self 2 positive
  have rounded : (2 : ℚ) ^ 53
      ≤ roundHalfEven ((value : ℚ) / 2 ^ lastBit value) * 2 ^ lastBit value := by
    have atLeast : ((2 : ℤ) ^ 52 : ℚ) ≤ roundHalfEven ((value : ℚ) / 2 ^ lastBit value) := by
      exact_mod_cast le_trans leading (floor_le_roundHalfEven _)
    calc (2 : ℚ) ^ 53 ≤ 2 ^ Nat.log 2 value := pow_le_pow_right₀ (by norm_num) bits
      _ = 2 ^ (52 : Nat) * 2 ^ (Nat.log 2 value - 52) := split.symm
      _ = ((2 : ℤ) ^ 52 : ℚ) * 2 ^ lastBit value := by
          rw [lastBit_natCast, exponent, zpow_natCast]
          norm_num
      _ ≤ _ := mul_le_mul_of_nonneg_right atLeast (zpow_nonneg (by norm_num) _)
  simp only [ofRat] at same
  split at same
  · cases same
  · have equal := finite.inj same
    rw [equal] at rounded
    have : (2 : ℚ) ^ 53 ≤ below := rounded
    have : 2 ^ 53 ≤ below := by exact_mod_cast this
    omega

/-- A natural number that rounds to a smaller safe integer is that integer. -/
theorem ofRat_natCast_inj {value below : Nat} (safe : below < 2 ^ 53)
    (same : ofRat (value : ℚ) = finite below)
    : value = below := by
  rcases Nat.lt_or_ge value (2 ^ 53) with small | large
  · rw [ofRat_natCast (Nat.le_of_lt small)] at same
    exact_mod_cast finite.inj same
  · exact absurd same (ofRat_ne_of_large large safe)

/-- Rounding never passes a whole number that bounds the value. -/
theorem roundHalfEven_le {value : ℚ} {bound : ℤ} (below : value ≤ bound)
    : roundHalfEven value ≤ bound := by
  have floor : ⌊value⌋ ≤ bound := Int.floor_le_iff.mpr (by linarith)
  have next : value - ⌊value⌋ ≠ 0 → ⌊value⌋ + 1 ≤ bound := by
    intro rest
    have : (⌊value⌋ : ℚ) < bound := by
      have := Int.floor_le value
      rcases lt_or_eq_of_le this with less | same
      · linarith
      · exact absurd (sub_eq_zero.mpr same.symm) rest
    have : ⌊value⌋ < bound := by exact_mod_cast this
    omega
  simp only [roundHalfEven]
  split
  · exact floor
  · rename_i half
    have rest : value - ⌊value⌋ ≠ 0 := by
      intro none
      rw [none] at half
      norm_num at half
    split
    · exact next rest
    · split
      · exact floor
      · exact next rest

/-- From 2^53 on, a natural number that is a double is even. -/
theorem even_of_ofRat {exact : ℚ} {value : Nat} (large : 2 ^ 53 ≤ value)
    (double : ofRat exact = finite value)
    : Even value := by
  simp only [ofRat] at double
  split at double
  · cases double
  · have same := finite.inj double
    rcases lt_or_ge 0 (lastBit exact) with positive | unit
    · obtain ⟨last, bits⟩ := Int.eq_ofNat_of_zero_le (le_of_lt positive)
      have some_bits : last ≠ 0 := by omega
      rw [bits, zpow_natCast] at same
      have whole : roundHalfEven (exact / 2 ^ last) * 2 ^ last = (value : ℤ) := by
        exact_mod_cast same
      have : Even (value : ℤ) := by
        rw [← whole]
        exact ((even_two).pow_of_ne_zero some_bits).mul_left _
      exact_mod_cast this
    · obtain ⟨places, bits⟩ := Int.eq_ofNat_of_zero_le (neg_nonneg.mpr unit)
      have exponent : lastBit exact = -(places : ℤ) := by omega
      have below : |exact| < (2 : ℚ) ^ (53 : ℤ) := by
        have log : Int.log 2 |exact| < 53 := by
          rw [lastBit] at unit
          omega
        exact lt_of_lt_of_le (Int.lt_zpow_succ_log_self (by norm_num) _)
          (zpow_le_zpow_right₀ (by norm_num) (by push_cast; omega))
      have scaled : exact / 2 ^ lastBit exact ≤ ((2 ^ (53 + places) : ℤ) : ℚ) := by
        rw [exponent, zpow_neg, zpow_natCast, div_inv_eq_mul, pow_add]
        push_cast
        exact mul_le_mul_of_nonneg_right (le_trans (le_abs_self _) (le_of_lt below))
          (by positivity)
      have rounded : (value : ℚ) ≤ 2 ^ 53 := by
        have bound : (roundHalfEven (exact / 2 ^ lastBit exact) : ℚ)
            ≤ ((2 ^ (53 + places) : ℤ) : ℚ) := by
          exact_mod_cast roundHalfEven_le scaled
        calc (value : ℚ) = roundHalfEven (exact / 2 ^ lastBit exact) * 2 ^ lastBit exact :=
              same.symm
          _ ≤ ((2 ^ (53 + places) : ℤ) : ℚ) * 2 ^ lastBit exact :=
              mul_le_mul_of_nonneg_right bound (zpow_nonneg (by norm_num) _)
          _ = 2 ^ 53 := by
              rw [exponent, zpow_neg, zpow_natCast]
              push_cast
              rw [pow_add, mul_assoc, mul_inv_cancel₀ (pow_ne_zero _ (by norm_num)), mul_one]
      have exactly : value = 2 ^ 53 := by
        have : value ≤ 2 ^ 53 := by exact_mod_cast rounded
        omega
      exact ⟨2 ^ 52, by rw [exactly]; norm_num⟩

-----------------------------------------------------------------------------------------
-- String(number)
-----------------------------------------------------------------------------------------

/-- Zeros at the end of a decimal multiply by powers of ten, by induction on their number. -/
theorem toDigits_mul_pow {value : Nat} (positive : 0 < value) (zeros : Nat)
    : Nat.toDigits 10 (value * 10 ^ zeros)
      = Nat.toDigits 10 value ++ List.replicate zeros '0' := by
  induction zeros with
  | zero => simp
  | succ zeros ih =>
      have bigger : 0 < value * 10 ^ zeros := Nat.mul_pos positive (by positivity)
      have shifted : value * 10 ^ (zeros + 1) = 10 * (value * 10 ^ zeros) + 0 := by ring
      rw [shifted, ← Nat.toDigits_append_toDigits (by norm_num) bigger (by norm_num), ih,
        Nat.toDigits_zero, List.append_assoc, ← List.replicate_succ']

/-- A candidate with no more digits than a safe integer is that integer. -/
theorem candidate_natCast {value significant significand : Nat} {exponent : ℤ}
    (safe : value < 2 ^ 53) (few : significant ≤ Nat.log 10 value + 1)
    (found : candidate value significant = some (significand, exponent))
    : ∃ zeros : Nat, exponent = zeros ∧ significand * 10 ^ zeros = value := by
  have place : Int.log 10 (value : ℚ) + 1 - (significant : ℤ)
      = ((Nat.log 10 value + 1 - significant : Nat) : ℤ) := by
    rw [Int.log_natCast]
    omega
  simp only [candidate, place, Option.map_eq_some_iff] at found
  obtain ⟨digits, among, same⟩ := found
  have reads := List.find?_some among
  have exact : digits * 10 ^ (Nat.log 10 value + 1 - significant) = value := by
    apply ofRat_natCast_inj safe
    rw [← of_decide_eq_true reads, zpow_natCast]
    push_cast
    rfl
  split at same
  · rename_i full
    obtain ⟨rfl, rfl⟩ := Prod.mk.inj same
    refine ⟨Nat.log 10 value + 1 - significant + significant, by push_cast; rfl, ?_⟩
    rw [one_mul, pow_add, ← full, mul_comm]
    exact exact
  · obtain ⟨rfl, rfl⟩ := Prod.mk.inj same
    exact ⟨_, rfl, exact⟩

/-- With all its digits a safe integer reads back as itself. -/
theorem candidate_all_digits {value : Nat} (safe : value ≤ 2 ^ 53)
    : (candidate value (Nat.log 10 value + 1)).isSome := by
  have place : Int.log 10 (value : ℚ) + 1 - ((Nat.log 10 value + 1 : Nat) : ℤ) = 0 := by
    rw [Int.log_natCast]
    push_cast
    ring
  simp only [candidate, place, Option.isSome_map, List.find?_isSome]
  refine ⟨value, ?_, ?_⟩
  · have nearest : roundHalfEven (value : ℚ) = value := roundHalfEven_intCast value
    simp [nearest]
  · simpa using ofRat_natCast safe

/-- The shortest decimal of a safe integer is the integer with its final zeros split off;
witness: no more digits are ever tried than the integer has.
-/
theorem shortest_natCast {value : Nat} (safe : value < 2 ^ 53)
    : ∃ significand zeros : Nat,
        shortest value = (significand, (zeros : ℤ)) ∧ significand * 10 ^ zeros = value := by
  have few : Nat.log 10 value + 1 ≤ 17 := by
    have small : value < 10 ^ 16 := lt_of_lt_of_le safe (by norm_num)
    have := Nat.log_lt_of_lt_pow' (b := 10) (by norm_num) small
    omega
  have tried : List.range' 1 17
      = List.range' 1 (Nat.log 10 value + 1)
        ++ List.range' (1 + (Nat.log 10 value + 1)) (17 - (Nat.log 10 value + 1)) := by
    rw [List.range'_append_1]
    congr 1
    omega
  have found : ((List.range' 1 (Nat.log 10 value + 1)).findSome? (candidate value)).isSome := by
    rw [List.isSome_findSome?, List.any_eq_true]
    refine ⟨Nat.log 10 value + 1, ?_, candidate_all_digits (Nat.le_of_lt safe)⟩
    rw [List.mem_range'_1]
    omega
  obtain ⟨⟨significand, exponent⟩, first⟩ := Option.isSome_iff_exists.mp found
  obtain ⟨significant, among, reads⟩ := List.exists_of_findSome?_eq_some first
  have bound : significant ≤ Nat.log 10 value + 1 := by
    rw [List.mem_range'_1] at among
    omega
  obtain ⟨zeros, rfl, exact⟩ := candidate_natCast safe bound reads
  refine ⟨significand, zeros, ?_, exact⟩
  rw [shortest, tried, List.findSome?_append, first]
  rfl

/-- A significand with zeros after it, of 21 digits at most, is laid out without a point. -/
theorem layout_natCast {significand zeros : Nat} (positive : 0 < significand)
    (short : significand * 10 ^ zeros < 10 ^ 21)
    : layout significand zeros = Nat.toDigits 10 (significand * 10 ^ zeros) := by
  have digits := toDigits_mul_pow positive zeros
  have few : (Nat.toDigits 10 (significand * 10 ^ zeros)).length ≤ 21 := by
    rw [Nat.length_toDigits_le_iff (by norm_num) (by norm_num)]
    exact short
  have length := congrArg List.length digits
  simp only [List.length_append, List.length_replicate] at length
  rw [layout, if_pos ⟨by omega, by omega⟩, digits, Int.toNat_natCast]

/-- A positive number whose shortest decimal is a whole number of 21 digits at most prints as
it.
-/
theorem toText_of_shortest {value : ℚ} {significand zeros : Nat} (positive : 0 < value)
    (short : shortest value = (significand, (zeros : ℤ))) (some_digits : 0 < significand)
    (few : significand * 10 ^ zeros < 10 ^ 21)
    : (finite value).toText = (significand * 10 ^ zeros).repr := by
  simp only [toText, if_neg positive.ne', abs_of_pos positive, short,
    layout_natCast some_digits few, if_neg (not_lt.mpr positive.le)]
  exact Nat.repr_eq_ofList_toDigits.symm

/-- A safe integer prints as its decimal. -/
theorem toText_natCast {value : Nat} (safe : value ≤ 2 ^ 53)
    : (finite (value : ℚ)).toText = value.repr := by
  rcases Nat.lt_or_eq_of_le safe with below | rfl
  · rcases Nat.eq_zero_or_pos value with rfl | positive
    · rfl
    · obtain ⟨significand, zeros, short, exact⟩ := shortest_natCast below
      have some_digits : 0 < significand := by
        rcases Nat.eq_zero_or_pos significand with rfl | nonzero
        · omega
        · exact nonzero
      have few : significand * 10 ^ zeros < 10 ^ 21 := by
        rw [exact]
        exact lt_of_lt_of_le below (by norm_num)
      rw [toText_of_shortest (by exact_mod_cast positive) short some_digits few, exact]
  · decide +kernel

-----------------------------------------------------------------------------------------
-- Number(text)
-----------------------------------------------------------------------------------------

/-- No digit is white space: the white space lies below and above the digits. -/
theorem not_isSpace_of_isDigit {char : Char} (digit : char.isDigit) : isSpace char = false := by
  have low : ['\t', '\n', '\x0b', '\x0c', '\r', ' ', '\u00a0', '\u1680', '\u2028',
      '\u2029', '\u202f', '\u205f', '\u3000', '\ufeff'].all (!·.isDigit) = true := by
    decide
  have high : ¬ '\u2000' ≤ char := by
    intro above
    simp only [Char.isDigit, Bool.and_eq_true, decide_eq_true_eq] at digit
    have : '\u2000'.val ≤ '9'.val := UInt32.le_trans above digit.2
    revert this
    decide
  rw [isSpace, Bool.or_eq_false_iff]
  constructor
  · apply decide_eq_false
    intro member
    have notDigit := List.all_eq_true.mp low char member
    simp [digit] at notDigit
  · simp [high]

/-- Nothing is trimmed from a text of digits. -/
theorem trim_digits {text : List Char} (digits : ∀ char ∈ text, char.isDigit)
    : trim text = text := by
  have stays : ∀ {text : List Char}, (∀ char ∈ text, char.isDigit)
      → text.dropWhile isSpace = text := by
    intro text digits
    cases text with
    | nil => rfl
    | cons char rest =>
        rw [List.dropWhile_cons_of_neg]
        rw [not_isSpace_of_isDigit (digits char (by simp))]
        decide
  rw [trim, stays digits, stays (by simpa using digits), List.reverse_reverse]

/-- The characters of a decimal are digits. -/
theorem isDigit_of_mem_repr {value : Nat} {char : Char} (member : char ∈ value.repr.toList)
    : char.isDigit := by
  rw [Nat.toList_repr] at member
  exact Nat.isDigit_of_mem_toDigits (by norm_num) (by norm_num) member

/-- A text of digits is read as the number it denotes. -/
theorem decimal_digits {text : List Char} (nonempty : text ≠ [])
    (digits : ∀ char ∈ text, char.isDigit)
    : decimal text = ofRat (Nat.ofDigitChars 10 text 0 : ℚ) := by
  have whole : spanDigits text = (text, []) := by
    rw [spanDigits, List.takeWhile_eq_self_iff.mpr digits, List.dropWhile_eq_nil_iff.mpr digits]
  have read : unsignedDecimal? text = some (Nat.ofDigitChars 10 text 0 : ℚ) := by
    simp [unsignedDecimal?, whole, nonempty, exponent?]
  have finite : text ≠ "Infinity".toList := by
    intro same
    subst same
    exact absurd (digits 'I' (by decide)) (by decide)
  unfold decimal
  split
  · exact absurd (digits '+' (by simp)) (by decide)
  · exact absurd (digits '-' (by simp)) (by decide)
  · simp only [if_neg finite, read, Bool.false_eq_true, if_false]

/-- A text of digits has no prefix of another base. -/
theorem ofText_digits {text : String} (nonempty : text.toList ≠ [])
    (digits : ∀ char ∈ text.toList, char.isDigit)
    : ofText text = ofRat (Nat.ofDigitChars 10 text.toList 0 : ℚ) := by
  have bare : ∀ char rest, text.toList = '0' :: char :: rest → char.isDigit := by
    intro char rest same
    exact digits char (by rw [same]; simp)
  rw [← decimal_digits nonempty digits, ofText, trim_digits digits]
  split <;> rename_i same
  · exact absurd same nonempty
  all_goals first
    | exact absurd (bare _ _ same) (by decide)
    | rfl

/-- The decimal of a safe integer is read back as the integer. -/
theorem ofText_repr {value : Nat} (safe : value ≤ 2 ^ 53)
    : ofText value.repr = finite (value : ℚ) := by
  rw [ofText_digits (by simp) (fun _ member => isDigit_of_mem_repr member), Nat.toList_repr,
    Nat.ofDigitChars_ten_toDigits, ofRat_natCast safe]

/-- The successor of a safe integer, computed through doubles. -/
theorem ofNat_add_one {value : Nat} (safe : value < 2 ^ 53)
    : (ofNat value).add (ofNat 1) = ofNat (value + 1) := by
  have sum : (value : ℚ) + ((1 : Nat) : ℚ) = ((value + 1 : Nat) : ℚ) := by
    push_cast
    rfl
  rw [ofNat, ofNat, add, sum, ofRat_natCast safe, ofNat]

/-- The successor of a safe integer's decimal, computed through doubles. -/
theorem successor_repr {value : Nat} (safe : value < 2 ^ 53)
    : ((ofText value.repr).add (ofNat 1)).toText = (value + 1).repr := by
  have read : ofText value.repr = ofNat value := ofText_repr (Nat.le_of_lt safe)
  rw [read, ofNat_add_one safe, ofNat, toText_natCast safe]

/-- What text denotes is a double. -/
theorem exists_ofRat_of_ofText {text : String} {value : ℚ} (read : ofText text = finite value)
    : ∃ exact, ofRat exact = finite value := by
  simp only [ofText] at read
  split at read
  · exact ⟨0, by rw [← read]; decide +kernel⟩
  -- a prefixed integer
  iterate 6
    · split at read
      · exact ⟨_, read⟩
      · cases read
  simp only [decimal] at read
  split at read
  all_goals
    split at read
    · cases read
    · split at read
      · exact ⟨_, read⟩
      · cases read

end Js.Number
