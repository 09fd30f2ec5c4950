import Mathlib.Data.Nat.Prime.Basic
import SharedKernel.Js.LargeDoubles

/-! The decimal that a large double is printed as: of the whole numbers read as the double, the
one with the most final zeros, and of those with as many the closest.
-/

namespace Js.Number

-----------------------------------------------------------------------------------------
-- One number of digits
-----------------------------------------------------------------------------------------

/-- Of the two neighbours that are tried the one found is the closest of all that are read, if
whatever is read on one side of the value brings the neighbour on that side with it.
-/
theorem find_nearest {scaled : ℚ} {reads : Nat → Bool} {found : Nat} (natural : 0 ≤ scaled)
    (down : ∀ other ≤ ⌊scaled⌋₊, reads other = true → reads ⌊scaled⌋₊ = true)
    (up : ∀ other > ⌊scaled⌋₊, reads other = true → reads (⌊scaled⌋₊ + 1) = true)
    (first : (if roundHalfEven scaled = ⌊scaled⌋₊ then [⌊scaled⌋₊, ⌊scaled⌋₊ + 1]
      else [⌊scaled⌋₊ + 1, ⌊scaled⌋₊]).find? reads = some found)
    {other : Nat} (read : reads other = true)
    : |(found : ℚ) - scaled| ≤ |(other : ℚ) - scaled| := by
  have floor := Nat.floor_le natural
  have next := Nat.lt_floor_add_one scaled
  have nearest := roundHalfEven_nearest scaled other
  split at first
  · rename_i below
    rw [below] at nearest
    rw [List.find?_cons] at first
    split at first
    · obtain rfl := Option.some.inj first
      exact_mod_cast nearest
    · rename_i unread
      rw [List.find?_singleton] at first
      split at first
      · obtain rfl := Option.some.inj first
        -- what is read lies above, so the upper neighbour is closer
        have above : ⌊scaled⌋₊ + 1 ≤ other := by
          by_contra! under
          rw [down other (by omega) read] at unread
          cases unread
        have cast : ((⌊scaled⌋₊ + 1 : Nat) : ℚ) ≤ other := by exact_mod_cast above
        push_cast at cast ⊢
        rw [abs_of_nonneg (by linarith), abs_of_nonneg (by linarith)]
        linarith
      · cases first
  · rename_i notBelow
    have floor' : ((⌊scaled⌋₊ : Nat) : ℤ) = ⌊scaled⌋ := Int.natCast_floor_eq_floor natural
    have upper : roundHalfEven scaled = ((⌊scaled⌋₊ + 1 : Nat) : ℤ) := by
      push_cast
      rw [floor']
      apply (roundHalfEven_eq_or scaled).resolve_left
      rw [← floor']
      exact notBelow
    rw [upper] at nearest
    rw [List.find?_cons] at first
    split at first
    · obtain rfl := Option.some.inj first
      exact_mod_cast nearest
    · rename_i unread
      rw [List.find?_singleton] at first
      split at first
      · obtain rfl := Option.some.inj first
        have below : other ≤ ⌊scaled⌋₊ := by
          by_contra! beyond
          rw [up other beyond read] at unread
          cases unread
        have cast : (other : ℚ) ≤ (⌊scaled⌋₊ : Nat) := by exact_mod_cast below
        rw [abs_of_nonpos (by linarith), abs_of_nonpos (by linarith)]
        linarith
      · cases first

section Candidate

variable {value : ℚ} {significant : Nat}

/-- What is read as a positive double is positive. -/
theorem digits_pos {digits : Nat} {unit : ℚ} (positive : 0 < value) (units : 0 < unit)
    (read : ofRat (digits * unit) = finite value)
    : 0 < (digits : ℚ) * unit := by
  rcases Nat.eq_zero_or_pos digits with rfl | some_digits
  · have zero : ofRat 0 = finite 0 := by exact_mod_cast ofRat_natCast (Nat.zero_le (2 ^ 53))
    rw [Nat.cast_zero, zero_mul, zero] at read
    exact absurd (finite.inj read) positive.ne
  · exact mul_pos (by exact_mod_cast some_digits) units

/-- A decimal below the double brings the lower neighbour with it. -/
theorem read_floor {digits : Nat} {unit : ℚ} (double : IsDouble value) (positive : 0 < value)
    (units : 0 < unit) (below : digits ≤ ⌊value / unit⌋₊)
    (read : ofRat (digits * unit) = finite value)
    : ofRat (⌊value / unit⌋₊ * unit) = finite value := by
  apply ofRat_between (digits_pos positive units read) read double
  · exact mul_le_mul_of_nonneg_right (by exact_mod_cast below) units.le
  · rw [← le_div_iff₀ units]
    exact Nat.floor_le (div_pos positive units).le

/-- A decimal above the double brings the upper neighbour with it. -/
theorem read_next {digits : Nat} {unit : ℚ} (double : IsDouble value) (positive : 0 < value)
    (units : 0 < unit) (above : ⌊value / unit⌋₊ < digits)
    (read : ofRat (digits * unit) = finite value)
    : ofRat ((⌊value / unit⌋₊ + 1 : Nat) * unit) = finite value := by
  apply ofRat_between positive double read
  · rw [← div_le_iff₀ units]
    push_cast
    exact (Nat.lt_floor_add_one _).le
  · exact mul_le_mul_of_nonneg_right (by exact_mod_cast above) units.le

/-- A decimal of that many digits is found when there is one. -/
theorem isSome_candidate (double : IsDouble value) (positive : 0 < value) {digits : Nat}
    (read : ofRat (digits * 10 ^ (Int.log 10 value + 1 - significant)) = finite value)
    : (candidate value significant).isSome := by
  have units : (0 : ℚ) < 10 ^ (Int.log 10 value + 1 - significant) := zpow_pos (by norm_num) _
  simp only [candidate, Option.isSome_map, List.find?_isSome]
  rcases Nat.lt_or_ge ⌊value / 10 ^ (Int.log 10 value + 1 - significant)⌋₊ digits with
    above | below
  · refine ⟨_, ?_, decide_eq_true (read_next double positive units above read)⟩
    split <;> simp
  · refine ⟨_, ?_, decide_eq_true (read_floor double positive units below read)⟩
    split <;> simp

/-- The candidate is the closest of the decimals with its digits that are read as the double. -/
theorem candidate_nearest (double : IsDouble value) (positive : 0 < value)
    {significand : Nat} {exponent : ℤ}
    (found : candidate value significant = some (significand, exponent))
    : ∃ digits : Nat,
        (significand : ℚ) * 10 ^ exponent
          = digits * 10 ^ (Int.log 10 value + 1 - significant)
        ∧ Int.log 10 value + 1 - significant ≤ exponent
        ∧ ∀ other : Nat,
            ofRat (other * 10 ^ (Int.log 10 value + 1 - significant)) = finite value
            → |(digits : ℚ) * 10 ^ (Int.log 10 value + 1 - significant) - value|
              ≤ |(other : ℚ) * 10 ^ (Int.log 10 value + 1 - significant) - value| := by
  have units : (0 : ℚ) < 10 ^ (Int.log 10 value + 1 - significant) := zpow_pos (by norm_num) _
  simp only [candidate, Option.map_eq_some_iff] at found
  obtain ⟨digits, among, same⟩ := found
  have moved : ∀ number : Nat,
      |(number : ℚ) * 10 ^ (Int.log 10 value + 1 - significant) - value|
      = |(number : ℚ) - value / 10 ^ (Int.log 10 value + 1 - significant)|
        * 10 ^ (Int.log 10 value + 1 - significant) := by
    intro number
    conv_rhs => rw [← abs_of_pos units]
    rw [← abs_mul, sub_mul, abs_of_pos units, div_mul_cancel₀ _ units.ne']
  refine ⟨digits, ?_, ?_, ?_⟩
  · split at same
    · rename_i full
      obtain ⟨rfl, rfl⟩ := Prod.mk.inj same
      rw [full, zpow_add₀ (by norm_num), zpow_natCast]
      push_cast
      rw [one_mul, mul_comm]
    · obtain ⟨rfl, rfl⟩ := Prod.mk.inj same
      rfl
  · split at same <;> obtain ⟨rfl, rfl⟩ := Prod.mk.inj same <;> omega
  · intro other read
    rw [moved, moved]
    apply mul_le_mul_of_nonneg_right _ units.le
    apply find_nearest (div_pos positive units).le _ _ among (decide_eq_true read)
    · intro number below reads
      exact decide_eq_true (read_floor double positive units below (of_decide_eq_true reads))
    · intro number above reads
      exact decide_eq_true (read_next double positive units above (of_decide_eq_true reads))

end Candidate

-----------------------------------------------------------------------------------------
-- The roundest number
-----------------------------------------------------------------------------------------

/-- A number ends in more zeros than another. -/
def MoreZeros (value other : Nat) : Prop :=
  ∃ zeros, 10 ^ zeros ∣ value ∧ ¬ 10 ^ zeros ∣ other

/-- Of the whole numbers that round to a double, the one with the most final zeros, and of
those with as many the closest.
-/
structure Roundest (value : Nat) (double : ℚ) : Prop where
  read : ofRat value = finite double
  best : ∀ other : Nat, ofRat other = finite double → other ≠ value
    → MoreZeros value other
      ∨ (¬ MoreZeros other value ∧ |(value : ℚ) - double| < |(other : ℚ) - double|)

theorem MoreZeros.asymm {value other : Nat} (more : MoreZeros value other)
    : ¬ MoreZeros other value := by
  rintro ⟨others, divides, not⟩
  obtain ⟨zeros, divides', not'⟩ := more
  rcases Nat.le_total zeros others with fewer | fewer
  · exact not' (dvd_trans (pow_dvd_pow 10 fewer) divides)
  · exact not (dvd_trans (pow_dvd_pow 10 fewer) divides')

/-- There is only one. -/
theorem Roundest.unique {first second : Nat} {double : ℚ} (one : Roundest first double)
    (other : Roundest second double)
    : first = second := by
  by_contra distinct
  rcases one.best second other.read (Ne.symm distinct) with more | ⟨notMore, closer⟩
  · rcases other.best first one.read distinct with fewer | ⟨notFewer, _⟩
    · exact more.asymm fewer
    · exact notFewer more
  · rcases other.best first one.read distinct with fewer | ⟨_, farther⟩
    · exact notMore fewer
    · exact lt_asymm closer farther

/-- It is even when the double is: the double itself beats an odd number. -/
theorem Roundest.even {value double : Nat} (roundest : Roundest value (double : ℚ))
    (large : Large double)
    : Even value := by
  rcases eq_or_ne double value with rfl | other
  · exact large.even
  · rcases roundest.best double large.double other with ⟨zeros, divides, not⟩ | ⟨_, closer⟩
    · have some_zeros : zeros ≠ 0 := by
        rintro rfl
        exact not (one_dvd double)
      have two : 2 ∣ 10 ^ zeros := dvd_pow (by norm_num) some_zeros
      exact even_iff_two_dvd.mpr (dvd_trans two divides)
    · rw [sub_self, abs_zero] at closer
      exact absurd closer (not_lt.mpr (abs_nonneg _))

section Large

variable {double : Nat}

/-- A number read as a large double is positive. -/
theorem Large.read_pos (large : Large double) {value : Nat}
    (read : ofRat (value : ℚ) = finite double)
    : (0 : ℚ) < value := by
  have scaled := @digits_pos double value 1 large.positive (by norm_num) (by rwa [mul_one])
  rwa [mul_one] at scaled

/-- Two numbers read as one large double are at most a last bit apart. -/
theorem Large.apart (large : Large double) {bit first second : Nat}
    (last : lastBit (double : ℚ) = bit) (firstRead : ofRat (first : ℚ) = finite double)
    (secondRead : ofRat (second : ℚ) = finite double)
    : |(first : ℤ) - second| ≤ 2 ^ bit := by
  have one := abs_sub_le_of_read (large.read_pos firstRead) firstRead
  have two := abs_sub_le_of_read (large.read_pos secondRead) secondRead
  have between := abs_sub_le (first : ℚ) double second
  rw [last, zpow_natCast] at one two
  rw [abs_sub_comm (double : ℚ)] at between
  have sum : |(first : ℚ) - second| ≤ 2 ^ bit := by linarith
  exact_mod_cast sum

/-- Numbers with as many final zeros as a last bit is long are one. -/
theorem Large.eq_of_zeros (large : Large double) {bit first second zeros : Nat}
    (last : lastBit (double : ℚ) = bit) (long : 2 ^ bit < 10 ^ zeros)
    (firstZeros : 10 ^ zeros ∣ first) (secondZeros : 10 ^ zeros ∣ second)
    (firstRead : ofRat (first : ℚ) = finite double)
    (secondRead : ofRat (second : ℚ) = finite double)
    : first = second := by
  have near := large.apart last firstRead secondRead
  have divides : ((10 ^ zeros : Nat) : ℤ) ∣ (first : ℤ) - second :=
    dvd_sub (Int.natCast_dvd_natCast.mpr firstZeros) (Int.natCast_dvd_natCast.mpr secondZeros)
  have short : |(first : ℤ) - second| < ((10 ^ zeros : Nat) : ℤ) :=
    lt_of_le_of_lt near (by exact_mod_cast long)
  have none := Int.eq_zero_of_abs_lt_dvd divides short
  omega

/-- Numbers on both sides of a large double and as far from it are not read as it unless it
ends in the same zeros; witness: the power of two dividing the double is too coarse.
-/
theorem Large.no_tie (large : Large double) {first second zeros : Nat}
    (firstZeros : 10 ^ zeros ∣ first) (secondZeros : 10 ^ zeros ∣ second)
    (firstRead : ofRat (first : ℚ) = finite double)
    (secondRead : ofRat (second : ℚ) = finite double)
    (distinct : first ≠ second) (middle : first + second = 2 * double)
    : 10 ^ zeros ∣ double := by
  obtain ⟨bit, last, _, _, _⟩ := lastBit_large large.least
  obtain ⟨whole, same⟩ := large.multiple last
  have fine : 10 ^ zeros ≤ 2 ^ bit := by
    by_contra! long
    exact distinct
      (large.eq_of_zeros last long firstZeros secondZeros firstRead secondRead)
  obtain ⟨count, sum⟩ := dvd_add firstZeros secondZeros
  rw [middle] at sum
  rcases Nat.even_or_odd count with ⟨half, even⟩ | odd
  · exact ⟨half, by rw [even] at sum; linarith⟩
  · have coprime : Nat.Coprime (2 ^ (bit + 1)) (5 ^ zeros * count) := by
      apply Nat.Coprime.pow_left
      rw [Nat.coprime_two_left]
      exact (Odd.pow (by decide)).mul odd
    have factors : 2 * double = 2 ^ zeros * (5 ^ zeros * count) := by
      rw [sum, show (10 : Nat) = 2 * 5 from rfl, mul_pow, mul_assoc]
    have divides : 2 ^ (bit + 1) ∣ 2 ^ zeros * (5 ^ zeros * count) := by
      rw [← factors, same]
      exact ⟨whole, by ring⟩
    have power := coprime.dvd_of_dvd_mul_right divides
    have more : bit + 1 ≤ zeros := (Nat.pow_dvd_pow_iff_le_right (by norm_num)).mp power
    have larger : 2 ^ bit < 10 ^ zeros :=
      calc 2 ^ bit < 2 ^ zeros := Nat.pow_lt_pow_right (by norm_num) more
        _ ≤ 10 ^ zeros := Nat.pow_le_pow_left (by norm_num) zeros
    exact absurd fine (not_le.mpr larger)

/-- The digits before the point of a large double are all tried. -/
theorem Large.significant_le (large : Large double) {significant : Nat}
    (none : ∀ fewer, 1 ≤ fewer → fewer < significant → candidate (double : ℚ) fewer = none)
    : significant ≤ Nat.log 10 double + 1 := by
  by_contra! more
  have place : Int.log 10 (double : ℚ) + 1 - ((Nat.log 10 double + 1 : Nat) : ℤ) = 0 := by
    rw [Int.log_natCast]
    push_cast
    ring
  have found := @isSome_candidate double (Nat.log 10 double + 1) large.double large.positive
    double (by rw [place, zpow_zero, mul_one]; exact large.double)
  rw [none _ (Nat.le_add_left 1 _) more] at found
  cases found

/-- No number read as a large double has more final zeros than its shortest decimal: with one
digit less there is no candidate.
-/
theorem Large.zeros_le (large : Large double) {significant places zeros value other : Nat}
    (least : 1 ≤ significant) (count : significant + places = Nat.log 10 double + 1)
    (none : ∀ fewer, 1 ≤ fewer → fewer < significant → candidate (double : ℚ) fewer = none)
    (valueZeros : 10 ^ places ∣ value) (valueRead : ofRat (value : ℚ) = finite double)
    (otherRead : ofRat (other : ℚ) = finite double) (distinct : other ≠ value)
    (divides : 10 ^ zeros ∣ other)
    : zeros ≤ places := by
  by_contra! more
  obtain ⟨digits, same⟩ := dvd_trans (pow_dvd_pow 10 more) divides
  rcases Nat.lt_or_eq_of_le least with several | single
  · have place : Int.log 10 (double : ℚ) + 1 - ((significant - 1 : Nat) : ℤ)
        = ((places + 1 : Nat) : ℤ) := by
      rw [Int.log_natCast]
      omega
    have found := @isSome_candidate double (significant - 1) large.double large.positive digits
      (by rw [place, zpow_natCast, mul_comm]; exact_mod_cast same ▸ otherRead)
    rw [none _ (by omega) (by omega)] at found
    cases found
  · -- a single digit: one more place is longer than the double
    obtain ⟨bit, last, _, above, _⟩ := lastBit_large large.least
    have long : 2 ^ bit < 10 ^ places := by
      have size : double < 10 ^ (places + 1) := by
        rw [show places + 1 = Nat.log 10 double + 1 by omega]
        exact Nat.lt_pow_succ_log_self (by norm_num) double
      have scaled : 2 ^ bit * 2 ^ 52 < 10 ^ places * 10 := by
        calc 2 ^ bit * 2 ^ 52 = 2 ^ (bit + 52) := (pow_add 2 bit 52).symm
          _ ≤ double := above
          _ < 10 ^ (places + 1) := size
          _ = 10 ^ places * 10 := pow_succ 10 places
      by_contra! short
      have : 10 ^ places * 10 ≤ 2 ^ bit * 2 ^ 52 := Nat.mul_le_mul short (by norm_num)
      omega
    exact distinct
      (large.eq_of_zeros last long (dvd_trans (pow_dvd_pow 10 more.le) divides) valueZeros
        otherRead valueRead)

/-- The shortest decimal of a large double is the roundest number read as it. -/
theorem Large.shortest (large : Large double)
    : ∃ significand zeros : Nat,
        Number.shortest double = (significand, (zeros : ℤ))
        ∧ Roundest (significand * 10 ^ zeros) double := by
  obtain ⟨significant, least, found, none⟩ :=
    shortest_eq_candidate large.double large.positive
  obtain ⟨places, count⟩ := Nat.exists_eq_add_of_le (large.significant_le none)
  have place : Int.log 10 (double : ℚ) + 1 - (significant : ℤ) = (places : ℤ) := by
    rw [Int.log_natCast]
    omega
  obtain ⟨⟨significand, exponent⟩, short⟩ : ∃ decimal, Number.shortest double = decimal :=
    ⟨_, rfl⟩
  rw [short] at found ⊢
  obtain ⟨digits, same, order, nearest⟩ := candidate_nearest large.double large.positive found
  have read := ofRat_candidate found
  rw [place] at same order nearest
  obtain ⟨zeros, rfl⟩ := Int.eq_ofNat_of_zero_le (le_trans (Int.natCast_nonneg places) order)
  rw [zpow_natCast] at same read nearest
  have value : significand * 10 ^ zeros = digits * 10 ^ places := by exact_mod_cast same
  have valueRead : ofRat ((significand * 10 ^ zeros : Nat) : ℚ) = finite double := by
    exact_mod_cast read
  have valueZeros : 10 ^ places ∣ significand * 10 ^ zeros := ⟨digits, by rw [value, mul_comm]⟩
  have closest : ∀ other : Nat, ofRat (other : ℚ) = finite double → 10 ^ places ∣ other
      → |((significand * 10 ^ zeros : Nat) : ℚ) - double| ≤ |(other : ℚ) - double| := by
    rintro other otherRead ⟨number, rfl⟩
    rw [value]
    rw [mul_comm (10 ^ places)] at otherRead ⊢
    exact_mod_cast nearest number (by exact_mod_cast otherRead)
  refine ⟨significand, zeros, rfl, valueRead, ?_⟩
  intro other otherRead distinct
  by_cases otherZeros : 10 ^ places ∣ other
  · refine Or.inr ⟨?_, ?_⟩
    · rintro ⟨more, divides, not⟩
      have bound := large.zeros_le least count.symm none valueZeros valueRead otherRead distinct
        divides
      exact not (dvd_trans (pow_dvd_pow 10 bound) valueZeros)
    · apply lt_of_le_of_ne (closest other otherRead otherZeros)
      intro equal
      rcases abs_eq_abs.mp equal with sameSide | opposite
      · have : ((significand * 10 ^ zeros : Nat) : ℚ) = other := by linarith
        exact distinct (by exact_mod_cast this.symm)
      · have middle : other + significand * 10 ^ zeros = 2 * double := by
          have : (other : ℚ) + (significand * 10 ^ zeros : Nat) = 2 * double := by linarith
          exact_mod_cast this
        have itself := closest double large.double
          (large.no_tie otherZeros valueZeros otherRead valueRead distinct middle)
        rw [equal, sub_self, abs_zero, abs_nonpos_iff, sub_eq_zero] at itself
        have whole : other = double := by exact_mod_cast itself
        omega
  · exact Or.inl ⟨places, valueZeros, otherZeros⟩

/-- A large double prints as the roundest number read as it. -/
theorem Large.toText_eq (large : Large double)
    : ∃ value, Roundest value double ∧ (finite (double : ℚ)).toText = value.repr := by
  obtain ⟨significand, zeros, short, roundest⟩ := large.shortest
  refine ⟨_, roundest, ?_⟩
  have some_digits : 0 < significand := by
    have positive := shortest_pos large.double large.positive
    rwa [short] at positive
  have few : significand * 10 ^ zeros < 10 ^ 21 := by
    obtain ⟨bit, last, _, above, _⟩ := lastBit_large large.least
    have near := large.apart last roundest.read large.double
    have size : 2 ^ bit ≤ 2 ^ (bit + 52) := Nat.pow_le_pow_right (by norm_num) (by omega)
    have within : ((2 ^ bit : Nat) : ℤ) ≤ (double : ℤ) := by exact_mod_cast size.trans above
    have most : double ≤ 2 ^ 64 := large.most
    have upper := (abs_le.mp near).2
    push_cast at within
    have : ((significand * 10 ^ zeros : Nat) : ℤ) < 10 ^ 21 := by omega
    exact_mod_cast this
  exact toText_of_shortest large.positive short some_digits few

/-- It prints as the roundest number only. -/
theorem Large.toText_eq_repr_iff (large : Large double) (value : Nat)
    : (finite (double : ℚ)).toText = value.repr ↔ Roundest value double := by
  obtain ⟨printed, roundest, text⟩ := large.toText_eq
  rw [text]
  constructor
  · intro same
    have digits := congrArg (fun text : String => Nat.ofDigitChars 10 text.toList 0) same
    simp only [Nat.toList_repr, Nat.ofDigitChars_ten_toDigits] at digits
    rwa [← digits]
  · intro other
    rw [roundest.unique other]

end Large

-----------------------------------------------------------------------------------------
-- The successor
-----------------------------------------------------------------------------------------

theorem isDouble_pow_63 : IsDouble ((2 ^ 63 : Nat) : ℚ) := by
  rw [IsDouble]
  decide +kernel

theorem isDouble_pow_64 : IsDouble ((2 ^ 64 : Nat) : ℚ) := by
  rw [IsDouble]
  decide +kernel

/-- The successor of a large number's decimal, computed through doubles, is the decimal of the
double it rounds to. It is the number's own successor only as the roundest number read so; an
even number has none, since what is printed is even.
-/
theorem successor_large_iff {value : Nat} (least : 2 ^ 53 ≤ value) (most : value ≤ 2 ^ 63)
    : ((ofText value.repr).add (ofNat 1)).toText = (value + 1).repr
      ↔ ∃ double, ofRat value = finite double ∧ Roundest (value + 1) double := by
  obtain ⟨double, read, large, below, four⟩ :=
    ofRat_large least most isDouble_pow_63 (by norm_num)
  have text : ofText value.repr = finite double := by
    rw [ofText_digits (by simp) (fun _ member => isDigit_of_mem_repr member), Nat.toList_repr,
      Nat.ofDigitChars_ten_toDigits, read]
  have sum : (ofText value.repr).add (ofNat 1) = ofRat ((double + 1 : Nat) : ℚ) := by
    rw [text]
    push_cast
    rfl
  have condition : (∃ double, ofRat value = finite double ∧ Roundest (value + 1) double)
      ↔ Roundest (value + 1) (double : ℚ) := by
    constructor
    · rintro ⟨other, same, roundest⟩
      rw [read] at same
      rwa [finite.inj same]
    · intro roundest
      exact ⟨double, read, roundest⟩
  rw [sum, condition]
  rcases Nat.even_or_odd value with even | odd
  · have not_even : ¬ Even (value + 1) := Nat.not_even_iff_odd.mpr even.add_one
    obtain ⟨next, nextRead, nextLarge, _, _⟩ :=
      ofRat_large (Nat.le_succ_of_le large.least) (by omega) isDouble_pow_64 (le_refl _)
    rw [nextRead, nextLarge.toText_eq_repr_iff]
    constructor
    · intro roundest
      exact absurd (roundest.even nextLarge) not_even
    · intro roundest
      exact absurd (roundest.even large) not_even
  · rw [large.ofRat_succ (four odd), large.toText_eq_repr_iff]

end Js.Number
