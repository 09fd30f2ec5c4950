import SharedKernel.Js.Doubles

/-! The text of a double is a decimal literal, and reading the literal yields the double. -/

namespace Js.Number

-----------------------------------------------------------------------------------------
-- Literals
-----------------------------------------------------------------------------------------

/-- The fraction part of a literal. -/
def point (fraction : List Char) : List Char :=
  if fraction = [] then [] else '.' :: fraction

/-- The exponent part of a literal. -/
def power (exponent : ℤ) : List Char :=
  'e' :: (if 0 ≤ exponent then '+' else '-') :: Nat.toDigits 10 exponent.natAbs

/-- An unsigned decimal literal and its exact value: digits without a leading zero, a fraction
and an exponent, of which the last two may be missing.
-/
inductive Literal : List Char → ℚ → Prop
  | mk {whole fraction suffix : List Char} {exponent : ℤ}
    (digits : ∀ char ∈ whole ++ fraction, char.isDigit = true)
    (leading : whole = ['0'] ∨ ∃ first rest, whole = first :: rest ∧ first ≠ '0')
    (ending : suffix = [] ∧ exponent = 0 ∨ suffix = power exponent)
    : Literal (whole ++ (point fraction ++ suffix))
        (Nat.ofDigitChars 10 (whole ++ fraction) 0 * 10 ^ (exponent - fraction.length))

/-- No digit comes first. -/
def Stops (text : List Char) : Prop :=
  ∀ char rest, text = char :: rest → char.isDigit = false

/-- The digits of a text are those before the first other character. -/
theorem spanDigits_append {digits text : List Char}
    (all : ∀ char ∈ digits, char.isDigit = true) (stops : Stops text)
    : spanDigits (digits ++ text) = (digits, text) := by
  have none : text.takeWhile Char.isDigit = [] ∧ text.dropWhile Char.isDigit = text := by
    cases text with
    | nil => exact ⟨rfl, rfl⟩
    | cons char rest => simp [stops char rest rfl]
  rw [spanDigits, List.takeWhile_append_of_pos all, List.dropWhile_append_of_pos all, none.1,
    none.2, List.append_nil]

/-- The exponent part of a literal reads as its exponent. -/
theorem exponent?_power (exponent : ℤ) : exponent? (power exponent) = some exponent := by
  have digits : (Nat.toDigits 10 exponent.natAbs).all Char.isDigit = true :=
    List.all_eq_true.mpr
      (fun _ member => Nat.isDigit_of_mem_toDigits (by norm_num) (by norm_num) member)
  rcases lt_or_ge exponent 0 with negative | natural
  · obtain ⟨size, rfl⟩ : ∃ size : Nat, exponent = -(size : ℤ) := ⟨exponent.natAbs, by omega⟩
    rw [Int.natAbs_neg, Int.natAbs_natCast] at digits
    rw [power, if_neg (not_le.mpr negative), Int.natAbs_neg, Int.natAbs_natCast]
    simp [exponent?, digits]
  · obtain ⟨size, rfl⟩ := Int.eq_ofNat_of_zero_le natural
    rw [Int.natAbs_natCast] at digits
    rw [power, if_pos natural, Int.natAbs_natCast]
    simp [exponent?, digits]

/-- The exponent part of a literal has no digit at its start. -/
theorem stops_ending {suffix : List Char} {exponent : ℤ}
    (ending : suffix = [] ∧ exponent = 0 ∨ suffix = power exponent)
    : Stops suffix ∧ exponent? suffix = some exponent := by
  rcases ending with ⟨rfl, rfl⟩ | rfl
  · exact ⟨nofun, rfl⟩
  · refine ⟨?_, exponent?_power exponent⟩
    rintro char rest same
    obtain ⟨rfl, _⟩ := List.cons.inj same
    rfl

/-- The whole part of a literal ends where its fraction or its exponent begins. -/
theorem spanDigits_literal {whole fraction suffix : List Char} {exponent : ℤ}
    (digits : ∀ char ∈ whole, char.isDigit = true)
    (ending : suffix = [] ∧ exponent = 0 ∨ suffix = power exponent)
    : spanDigits (whole ++ (point fraction ++ suffix)) = (whole, point fraction ++ suffix) := by
  apply spanDigits_append digits
  cases fraction with
  | nil => exact (stops_ending ending).1
  | cons first rest =>
      rintro char others same
      obtain ⟨rfl, _⟩ := List.cons.inj same
      rfl

/-- The exponent part of a literal is no fraction. -/
theorem ending_ne_point {suffix : List Char} {exponent : ℤ}
    (ending : suffix = [] ∧ exponent = 0 ∨ suffix = power exponent) (rest : List Char)
    : suffix ≠ '.' :: rest := by
  rintro rfl
  rcases ending with ⟨absurd, _⟩ | absurd
  · cases absurd
  · cases absurd

/-- A literal reads as its value. -/
theorem Literal.unsignedDecimal? {text : List Char} {value : ℚ} (literal : Literal text value)
    : Number.unsignedDecimal? text = some value := by
  obtain @⟨whole, fraction, suffix, exponent, digits, leading, ending⟩ := literal
  obtain ⟨stops, read⟩ := stops_ending ending
  have wholeDigits : ∀ char ∈ whole, char.isDigit = true :=
    fun char member => digits char (List.mem_append_left _ member)
  have fractionDigits : ∀ char ∈ fraction, char.isDigit = true :=
    fun char member => digits char (List.mem_append_right _ member)
  have nonempty : whole ≠ [] := by
    rcases leading with rfl | ⟨first, rest, rfl, _⟩ <;> simp
  have span := @spanDigits_literal whole fraction suffix exponent wholeDigits ending
  rw [Number.unsignedDecimal?, span]
  dsimp only
  cases fraction with
  | nil =>
      have none : point [] ++ suffix = suffix := rfl
      rw [none]
      split
      · exact absurd rfl (ending_ne_point ending _)
      · simp [nonempty, read]
  | cons first rest =>
      have after := spanDigits_append fractionDigits stops
      change (if whole = [] ∧ (spanDigits (first :: rest ++ suffix)).1 = [] then none else _) = _
      rw [after, if_neg (by simp)]
      change (exponent? (spanDigits (first :: rest ++ suffix)).2).map _ = _
      rw [after, read, Option.map_some]
      change some ((Nat.ofDigitChars 10 (whole ++ (spanDigits (first :: rest ++ suffix)).1) 0 : ℚ)
        * 10 ^ (exponent - (spanDigits (first :: rest ++ suffix)).1.length)) = _
      rw [after]

/-- A literal begins with a digit. -/
theorem Literal.first {text : List Char} {value : ℚ} (literal : Literal text value)
    : ∃ char rest, text = char :: rest ∧ char.isDigit = true := by
  obtain @⟨whole, fraction, suffix, exponent, digits, leading, ending⟩ := literal
  rcases leading with rfl | ⟨first, rest, rfl, _⟩
  · exact ⟨'0', _, rfl, by decide⟩
  · exact ⟨first, _, rfl, digits first (by simp)⟩

/-- A literal is read as the double nearest to its value, and so is its negative. -/
theorem Literal.decimal {text : List Char} {value : ℚ} (literal : Literal text value)
    : Number.decimal text = ofRat value ∧ Number.decimal ('-' :: text) = ofRat (-value) := by
  obtain ⟨char, rest, same, digit⟩ := literal.first
  have number : text ≠ "Infinity".toList := by
    intro absurd
    rw [same] at absurd
    obtain ⟨rfl, _⟩ := List.cons.inj absurd
    cases digit
  constructor
  · unfold Number.decimal
    split
    · obtain ⟨rfl, _⟩ := List.cons.inj same
      cases digit
    · obtain ⟨rfl, _⟩ := List.cons.inj same
      cases digit
    · simp only [if_neg number, literal.unsignedDecimal?, Bool.false_eq_true, if_false]
  · change (if text = "Infinity".toList then infinity true else _) = _
    rw [if_neg number, literal.unsignedDecimal?]
    rfl

-----------------------------------------------------------------------------------------
-- The layout of a significand and an exponent
-----------------------------------------------------------------------------------------

/-- A positive number has no leading zero, by induction on its digits. -/
theorem toDigits_first {value : Nat} (positive : 0 < value)
    : ∃ first rest, Nat.toDigits 10 value = first :: rest ∧ first ≠ '0' := by
  induction value using Nat.strongRecOn with
  | ind value ih =>
      rcases Nat.lt_or_ge value 10 with single | many
      · refine ⟨_, [], Nat.toDigits_of_lt_base single, ?_⟩
        have digits : ∀ digit < 10, 0 < digit → digit.digitChar ≠ '0' := by decide
        exact digits value single positive
      · obtain ⟨first, rest, same, nonzero⟩ := ih (value / 10) (by omega) (by omega)
        refine ⟨first, rest ++ [(value % 10).digitChar], ?_, nonzero⟩
        rw [Nat.toDigits_of_base_le (by norm_num) many, same, List.cons_append]

section Layout

variable {significand : Nat}

theorem isDigit_toDigits {char : Char} (member : char ∈ Nat.toDigits 10 significand)
    : char.isDigit = true :=
  Nat.isDigit_of_mem_toDigits (by norm_num) (by norm_num) member

/-- Digits with zeros after them are a literal. -/
theorem literal_whole (positive : 0 < significand) (zeros : Nat)
    : Literal (Nat.toDigits 10 significand ++ List.replicate zeros '0')
        (significand * 10 ^ (zeros : ℤ)) := by
  obtain ⟨first, rest, split, nonzero⟩ := toDigits_first positive
  have whole := toDigits_mul_pow positive zeros
  have literal := @Literal.mk (Nat.toDigits 10 (significand * 10 ^ zeros)) [] [] 0
    (fun char member => by
      rw [List.append_nil] at member
      exact isDigit_toDigits member)
    (Or.inr (by rw [whole, split]; exact ⟨first, _, rfl, nonzero⟩)) (Or.inl ⟨rfl, rfl⟩)
  simpa [point, whole, Nat.ofDigitChars_append, Nat.ofDigitChars_replicate_zero, mul_comm]
    using literal

/-- Digits with a point among them are a literal. -/
theorem literal_fixed (positive : 0 < significand) {places : Nat} (some_places : places ≠ 0)
    (fewer : places < (Nat.toDigits 10 significand).length)
    : Literal
        ((Nat.toDigits 10 significand).take places
          ++ '.' :: (Nat.toDigits 10 significand).drop places)
        (significand * 10 ^ (places - (Nat.toDigits 10 significand).length : ℤ)) := by
  obtain ⟨first, rest, split, nonzero⟩ := toDigits_first positive
  have fraction : (Nat.toDigits 10 significand).drop places ≠ [] := by
    rw [Ne, List.drop_eq_nil_iff]
    omega
  have literal := @Literal.mk ((Nat.toDigits 10 significand).take places)
    ((Nat.toDigits 10 significand).drop places) [] 0
    (fun char member => by
      rw [List.take_append_drop] at member
      exact isDigit_toDigits member)
    (Or.inr (by
      obtain ⟨more, rfl⟩ := Nat.exists_eq_succ_of_ne_zero some_places
      rw [split, List.take_succ_cons]
      exact ⟨first, _, rfl, nonzero⟩))
    (Or.inl ⟨rfl, rfl⟩)
  rw [List.take_append_drop, Nat.ofDigitChars_ten_toDigits, point, if_neg fraction,
    List.append_nil, List.length_drop] at literal
  have exponent : (0 : ℤ) - ((Nat.toDigits 10 significand).length - places : Nat)
      = places - (Nat.toDigits 10 significand).length := by
    omega
  rwa [exponent] at literal

/-- Digits after a point and zeros are a literal. -/
theorem literal_small (significand zeros : Nat)
    : Literal ('0' :: '.' :: List.replicate zeros '0' ++ Nat.toDigits 10 significand)
        (significand * 10 ^ (-(zeros + (Nat.toDigits 10 significand).length : ℤ))) := by
  have fraction : List.replicate zeros '0' ++ Nat.toDigits 10 significand ≠ [] := by
    simp
  have literal := @Literal.mk ['0']
    (List.replicate zeros '0' ++ Nat.toDigits 10 significand) [] 0
    (fun char member => by
      simp only [List.mem_append, List.mem_singleton, List.mem_replicate] at member
      rcases member with rfl | ⟨_, rfl⟩ | member
      · rfl
      · rfl
      · exact isDigit_toDigits member)
    (Or.inl rfl) (Or.inl ⟨rfl, rfl⟩)
  rw [point, if_neg fraction, List.append_nil, Nat.ofDigitChars_append,
    Nat.ofDigitChars_append, Nat.ofDigitChars_replicate_zero, List.length_append,
    List.length_replicate] at literal
  simp only [Nat.ofDigitChars_cons, Nat.ofDigitChars_nil, mul_zero, zero_add, Nat.sub_self,
    Nat.ofDigitChars_ten_toDigits, Nat.cast_add, zero_sub] at literal
  exact literal

/-- Digits with a point after the first and an exponent are a literal. -/
theorem literal_scientific {first : Char} {rest : List Char} (nonzero : first ≠ '0')
    (split : Nat.toDigits 10 significand = first :: rest) (exponent : ℤ)
    : Literal (first :: (point rest ++ power exponent))
        (significand * 10 ^ (exponent - rest.length)) := by
  have literal := @Literal.mk [first] rest (power exponent) exponent
    (fun char member => isDigit_toDigits (by rw [split]; exact member))
    (Or.inr ⟨first, [], rfl, nonzero⟩) (Or.inr rfl)
  rwa [show [first] ++ rest = Nat.toDigits 10 significand from split.symm,
    Nat.ofDigitChars_ten_toDigits, List.singleton_append] at literal

/-- The layout of a significand and an exponent is a literal of their product, in each of its
four forms.
-/
theorem literal_layout (positive : 0 < significand) (exponent : ℤ)
    : Literal (layout significand exponent) (significand * 10 ^ exponent) := by
  simp only [layout]
  split
  · rename_i form
    obtain ⟨zeros, rfl⟩ := Int.eq_ofNat_of_zero_le form.1
    exact literal_whole positive zeros
  · rename_i notWhole
    split
    · rename_i form
      obtain ⟨places, bound⟩ := Int.eq_ofNat_of_zero_le form.1.le
      have same : exponent = places - (Nat.toDigits 10 significand).length := by omega
      rw [bound, Int.toNat_natCast, same]
      exact literal_fixed positive (by omega) (by omega)
    · split
      · rename_i form
        obtain ⟨zeros, bound⟩ := Int.eq_ofNat_of_zero_le (neg_nonneg.mpr form.2)
        have same : exponent = -(zeros + (Nat.toDigits 10 significand).length : ℤ) := by omega
        rw [bound, Int.toNat_natCast, same]
        exact literal_small significand zeros
      · -- the exponent counts from the first digit
        obtain ⟨first, rest, split, nonzero⟩ := toDigits_first positive
        have literal := literal_scientific nonzero split
          ((Nat.toDigits 10 significand).length + exponent - 1)
        have same : (Nat.toDigits 10 significand).length + exponent - 1 - rest.length
            = exponent := by
          rw [split, List.length_cons]
          push_cast
          ring
        rw [same, split] at literal
        rw [split]
        cases rest with
        | nil => exact literal
        | cons next later => exact literal

end Layout

/-- The text of a positive double is a literal that is read as the double. -/
theorem literal_shortest {value : ℚ} (double : IsDouble value) (positive : 0 < value)
    : ∃ exact,
        Literal (layout (shortest value).1 (shortest value).2) exact
        ∧ ofRat exact = finite value :=
  ⟨_, literal_layout (shortest_pos double positive) _, ofRat_shortest double positive⟩

/-- The text of a double is a literal or its negative, and is read as the double. -/
theorem decimal_toText {value : ℚ} (double : IsDouble value)
    : decimal (finite value).toText.toList = finite value
      ∧ ∃ text exact,
          Literal text exact
          ∧ ((finite value).toText.toList = text ∨ (finite value).toText.toList = '-' :: text) := by
  rcases lt_trichotomy value 0 with negative | rfl | positive
  · have opposite : IsDouble (-value) := ofRat_neg double
    obtain ⟨exact, literal, read⟩ := literal_shortest opposite (neg_pos.mpr negative)
    have text : (finite value).toText.toList
        = '-' :: layout (shortest (-value)).1 (shortest (-value)).2 := by
      simp [toText, negative.ne, negative, abs_of_neg negative]
    refine ⟨?_, _, exact, literal, Or.inr text⟩
    rw [text, literal.decimal.2, ofRat_neg read, neg_neg]
  · have zero : Literal ['0'] (Nat.ofDigitChars 10 (['0'] ++ []) 0 * 10 ^ ((0 : ℤ) - 0)) :=
      @Literal.mk ['0'] [] [] 0 (by simp) (Or.inl rfl) (Or.inl ⟨rfl, rfl⟩)
    have text : (finite 0).toText.toList = ['0'] := rfl
    refine ⟨?_, _, _, zero, Or.inl text⟩
    rw [text, zero.decimal.1]
    have none : Nat.ofDigitChars 10 (['0'] ++ []) 0 = 0 := rfl
    rw [none, Nat.cast_zero, zero_mul]
    exact double
  · obtain ⟨exact, literal, read⟩ := literal_shortest double positive
    have text : (finite value).toText.toList
        = layout (shortest value).1 (shortest value).2 := by
      simp [toText, positive.ne', not_lt.mpr positive.le, abs_of_pos positive]
    refine ⟨?_, _, exact, literal, Or.inl text⟩
    rw [text, literal.decimal.1, read]

/-- The text of a double begins with a digit or a minus sign. -/
theorem toText_first {value : ℚ} (double : IsDouble value)
    : ∃ char later,
        (finite value).toText.toList = char :: later ∧ (char = '-' ∨ char.isDigit = true) := by
  obtain ⟨_, text, exact, literal, written⟩ := decimal_toText double
  rcases written with same | same
  · obtain ⟨char, later, rfl, digit⟩ := literal.first
    exact ⟨char, later, same, Or.inr digit⟩
  · exact ⟨'-', text, same, Or.inl rfl⟩

end Js.Number
