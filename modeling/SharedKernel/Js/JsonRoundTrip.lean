import SharedKernel.Js.Json
import SharedKernel.Js.NumberText

/-! Reading back what was written: `JSON.parse` inverts `JSON.stringify` on values in which
every number is a double.
-/

namespace Js.Json

-----------------------------------------------------------------------------------------
-- Strings
-----------------------------------------------------------------------------------------

/-- The escape of a control character reads as its code unit. -/
theorem unit?_hexDigit
    : ∀ unit < 0x20, unit? '0' '0' (hexDigit (unit / 16)) (hexDigit (unit % 16)) = some unit := by
  decide +kernel

/-- A character that needs no escape is read as its own code unit. -/
theorem readUnits_plain {char : Char} (quote : char ≠ '"') (backslash : char ≠ '\\')
    (printable : ¬ char.toNat < 0x20) (rest : List Char)
    : readUnits (char :: rest)
      = (readUnits rest).map (fun (units, rest) => (char.toNat :: units, rest)) := by
  rw [readUnits.eq_def]
  split
  · rename_i same
    exact absurd (List.cons.inj same).1 quote
  · rename_i same
    exact absurd (List.cons.inj same).1 backslash
  · rename_i same
    exact absurd (List.cons.inj same).1 backslash
  · rename_i same
    obtain ⟨rfl, rfl⟩ := List.cons.inj same
    simp only [printable, backslash, or_self, if_false]
    cases readUnits rest <;> rfl
  · rename_i absurd
    cases absurd

/-- One escaped character is read as its code unit, by the cases of the escape. -/
theorem readUnits_escape (char : Char) (rest : List Char)
    : readUnits (escape char ++ rest)
      = (readUnits rest).map (fun (units, rest) => (char.toNat :: units, rest)) := by
  unfold escape
  split
  case h_8 quote backslash _ _ _ _ _ =>
    split
    · rename_i control
      simp only [List.cons_append, List.nil_append, readUnits, unit?_hexDigit _ control,
        Option.bind_eq_bind, Option.bind_some]
      cases readUnits rest <;> rfl
    · rename_i printable
      exact readUnits_plain quote backslash printable rest
  all_goals
    simp only [List.cons_append, List.nil_append, readUnits]
    cases readUnits rest <;> rfl

/-- An escaped text is read up to the closing quote, by induction on its characters. -/
theorem readUnits_body (chars rest : List Char)
    : readUnits (chars.flatMap escape ++ '"' :: rest) = some (chars.map Char.toNat, rest) := by
  induction chars with
  | nil => simp [readUnits]
  | cons char later ih =>
      rw [List.flatMap_cons, List.append_assoc, readUnits_escape, ih]
      rfl

/-- A character is no half of a surrogate pair. -/
theorem toNat_not_surrogate (char : Char) : char.toNat < 0xd800 ∨ 0xe000 ≤ char.toNat := by
  have valid := char.valid
  simp only [UInt32.isValidChar, Nat.isValidChar] at valid
  simp only [Char.toNat]
  omega

/-- The code units of characters join to the characters, by induction on these. -/
theorem joinUnits_toNat (chars : List Char) : joinUnits (chars.map Char.toNat) = chars := by
  induction chars with
  | nil => rfl
  | cons char later ih =>
      have whole := toNat_not_surrogate char
      cases later with
      | nil =>
          have single : ¬ (0xd800 ≤ char.toNat ∧ char.toNat < 0xe000) := by omega
          simp only [List.map_cons, List.map_nil, joinUnits, single, if_false, Char.ofNat_toNat]
      | cons next rest =>
          have pair : ¬ (0xd800 ≤ char.toNat ∧ char.toNat < 0xdc00 ∧ 0xdc00 ≤ next.toNat
              ∧ next.toNat < 0xe000) := by
            omega
          have single : ¬ (0xd800 ≤ char.toNat ∧ char.toNat < 0xe000) := by omega
          simp only [List.map_cons] at ih
          simp only [List.map_cons, joinUnits, pair, single, if_false, Char.ofNat_toNat, ih]

/-- A quoted text reads back. -/
theorem readString_quote (text : String) (rest : List Char)
    : readString (text.toList.flatMap escape ++ '"' :: rest) = some (text, rest) := by
  simp [readString, readUnits_body, joinUnits_toNat]

-----------------------------------------------------------------------------------------
-- Numbers
-----------------------------------------------------------------------------------------

/-- A character that a number is made of. -/
def Numeric (char : Char) : Prop :=
  (char.isDigit || char ∈ ['+', '-', '.', 'e', 'E']) = true

instance : DecidablePred Numeric :=
  fun _ => inferInstanceAs (Decidable (_ = true))

/-- No part of a number comes next. -/
def Ends (rest : List Char) : Prop :=
  ∀ char later, rest = char :: later → ¬ Numeric char

theorem ends_nil : Ends [] :=
  nofun

theorem ends_cons {char : Char} (other : ¬ Numeric char) (rest : List Char)
    : Ends (char :: rest) := by
  rintro first later same
  obtain ⟨rfl, rfl⟩ := List.cons.inj same
  exact other

/-- A number ends where no part of one comes next. -/
theorem spanNumber_append {text rest : List Char} (all : ∀ char ∈ text, Numeric char)
    (ends : Ends rest)
    : spanNumber (text ++ rest) = (text, rest) := by
  have none : rest.takeWhile (fun char => char.isDigit || char ∈ ['+', '-', '.', 'e', 'E']) = []
      ∧ rest.dropWhile (fun char => char.isDigit || char ∈ ['+', '-', '.', 'e', 'E']) = rest := by
    cases rest with
    | nil => exact ⟨rfl, rfl⟩
    | cons char later =>
        have other := ends char later rfl
        rw [Numeric, Bool.not_eq_true] at other
        exact ⟨List.takeWhile_cons_of_neg (by rw [other]; simp),
          List.dropWhile_cons_of_neg (by rw [other]; simp)⟩
  rw [spanNumber, List.takeWhile_append_of_pos all, List.dropWhile_append_of_pos all, none.1,
    none.2, List.append_nil]

/-- A literal is made of the characters of a number. -/
theorem numeric_literal {text : List Char} {value : ℚ} (literal : Number.Literal text value)
    : ∀ char ∈ text, Numeric char := by
  obtain @⟨whole, fraction, suffix, exponent, digits, leading, ending⟩ := literal
  have digit : ∀ {char : Char}, char.isDigit = true → Numeric char := by
    intro char is_digit
    simp [Numeric, is_digit]
  intro char member
  rcases List.mem_append.mp member with among | member
  · exact digit (digits char (List.mem_append_left _ among))
  · rcases List.mem_append.mp member with among | among
    · unfold Number.point at among
      split at among
      · cases among
      · rcases List.mem_cons.mp among with rfl | among
        · rfl
        · exact digit (digits char (List.mem_append_right _ among))
    · rcases ending with ⟨rfl, _⟩ | rfl
      · cases among
      · rcases List.mem_cons.mp among with rfl | among
        · rfl
        · rcases List.mem_cons.mp among with rfl | among
          · split <;> rfl
          · exact digit (Number.isDigit_toDigits among)

/-- A literal and its negative are valid numbers. -/
theorem validNumber_literal {text : List Char} {value : ℚ}
    (literal : Number.Literal text value)
    : validNumber text = true ∧ validNumber ('-' :: text) = true := by
  have unsigned : ∀ later, text = '-' :: later → False := by
    rintro later rfl
    obtain ⟨char, rest, same, digit⟩ := literal.first
    obtain ⟨rfl, _⟩ := List.cons.inj same
    cases digit
  have negative : validNumber ('-' :: text) = validNumber text := by
    rw [validNumber, validNumber]
    exact unsigned
  rw [negative, and_self]
  obtain @⟨whole, fraction, suffix, exponent, digits, leading, ending⟩ := literal
  obtain ⟨stops, read⟩ := Number.stops_ending ending
  have span := @Number.spanDigits_literal whole fraction suffix exponent
    (fun char member => digits char (List.mem_append_left _ member)) ending
  have wholeOk
      : (decide (whole = ['0'])
          || (decide (whole ≠ []) && decide (whole.head? ≠ some '0'))) = true := by
    rcases leading with rfl | ⟨first, rest, rfl, nonzero⟩
    · rfl
    · simp [nonzero]
  rw [validNumber.eq_2 _ unsigned, span]
  dsimp only
  cases fraction with
  | nil =>
      have none : Number.point [] ++ suffix = suffix := rfl
      rw [none]
      split
      · exact absurd rfl (Number.ending_ne_point ending _)
      · rw [wholeOk, read]
        rfl
  | cons first rest =>
      have after := @Number.spanDigits_append (first :: rest) suffix
        (fun char member => digits char (List.mem_append_right _ member)) stops
      change (_ && decide ((Number.spanDigits (first :: rest ++ suffix)).1 ≠ [])
        && (Number.exponent? (Number.spanDigits (first :: rest ++ suffix)).2).isSome) = true
      rw [after, read, wholeOk]
      rfl

/-- The text of a double is read as a number, up to where it ends. -/
theorem readNumber_toText {value : ℚ} (double : Number.IsDouble value) {rest : List Char}
    (ends : Ends rest)
    : spanNumber ((Number.finite value).toText.toList ++ rest)
        = ((Number.finite value).toText.toList, rest)
      ∧ validNumber (Number.finite value).toText.toList = true
      ∧ Number.decimal (Number.finite value).toText.toList = .finite value := by
  obtain ⟨read, text, exact, literal, written⟩ := Number.decimal_toText double
  obtain ⟨valid, negativeValid⟩ := validNumber_literal literal
  have numeric := numeric_literal literal
  refine ⟨spanNumber_append ?_ ends, ?_, read⟩
  · rcases written with same | same
    · rwa [same]
    · rw [same]
      intro char member
      rcases List.mem_cons.mp member with rfl | member
      · rfl
      · exact numeric char member
  · rcases written with same | same
    · rwa [same]
    · rwa [same]

-----------------------------------------------------------------------------------------
-- Values
-----------------------------------------------------------------------------------------

mutual

/-- There is no number in the value. -/
def numberFree : Json → Bool
  | num _ => false
  | arr items => numberFreeItems items
  | obj members => numberFreeMembers members
  | null | bool _ | str _ => true

/-- There is no number in the items. -/
def numberFreeItems : List Json → Bool
  | [] => true
  | item :: rest => numberFree item && numberFreeItems rest

/-- There is no number in the members. -/
def numberFreeMembers : List (String × Json) → Bool
  | [] => true
  | (_, item) :: rest => numberFree item && numberFreeMembers rest

end

mutual

/-- Every number in the value is a double. -/
def Doubles : Json → Prop
  | num (.finite value) => Number.IsDouble value
  | num .nan | num (.infinity _) => False
  | arr items => DoublesItems items
  | obj members => DoublesMembers members
  | null | bool _ | str _ => True

/-- Every number in the items is a double. -/
def DoublesItems : List Json → Prop
  | [] => True
  | item :: rest => Doubles item ∧ DoublesItems rest

/-- Every number in the members is a double. -/
def DoublesMembers : List (String × Json) → Prop
  | [] => True
  | (_, item) :: rest => Doubles item ∧ DoublesMembers rest

end

mutual

/-- Where there is no number, every number is a double. -/
theorem doubles_of_numberFree (value : Json) (free : value.numberFree = true)
    : value.Doubles := by
  cases value with
  | num value => simp [numberFree] at free
  | arr items => exact doublesItems_of_numberFree items free
  | obj members => exact doublesMembers_of_numberFree members free
  | null | bool value | str text => trivial

theorem doublesItems_of_numberFree (items : List Json) (free : numberFreeItems items = true)
    : DoublesItems items := by
  cases items with
  | nil => trivial
  | cons item rest =>
      simp only [numberFreeItems, Bool.and_eq_true] at free
      exact ⟨doubles_of_numberFree item free.1, doublesItems_of_numberFree rest free.2⟩

theorem doublesMembers_of_numberFree (members : List (String × Json))
    (free : numberFreeMembers members = true)
    : DoublesMembers members := by
  cases members with
  | nil => trivial
  | cons member rest =>
      simp only [numberFreeMembers, Bool.and_eq_true] at free
      exact ⟨doubles_of_numberFree member.2 free.1, doublesMembers_of_numberFree rest free.2⟩

end

/-- The characters that a value can begin with. -/
def Opens (char : Char) : Prop :=
  char ∈ ['n', 't', 'f', '"', '[', '{', '-'] ∨ char.isDigit = true

theorem skipSpace_opens {char : Char} (opens : Opens char) (rest : List Char)
    : skipSpace (char :: rest) = char :: rest := by
  rcases opens with letter | digit
  · simp only [List.mem_cons, List.not_mem_nil, or_false] at letter
    rcases letter with rfl | rfl | rfl | rfl | rfl | rfl | rfl <;> rfl
  · have solid : char ∉ [' ', '\t', '\n', '\r'] := by
      intro space
      simp only [List.mem_cons, List.not_mem_nil, or_false] at space
      rcases space with rfl | rfl | rfl | rfl <;> cases digit
    rw [skipSpace, List.dropWhile_cons_of_neg (by simpa using solid)]

/-- The text of a value begins with such a character. -/
theorem encode_opens {value : Json} (doubles : value.Doubles)
    : ∃ char tail, value.encode = char :: tail ∧ Opens char := by
  cases value with
  | null => exact ⟨'n', _, rfl, by simp [Opens]⟩
  | bool value =>
      cases value with
      | false => exact ⟨'f', _, rfl, by simp [Opens]⟩
      | true => exact ⟨'t', _, rfl, by simp [Opens]⟩
  | num value =>
      cases value with
      | finite value =>
          obtain ⟨_, text, exact, literal, written⟩ := Number.decimal_toText doubles
          obtain ⟨char, rest, rfl, digit⟩ := literal.first
          rcases written with same | same
          · exact ⟨char, rest, by rw [encode, same], Or.inr digit⟩
          · exact ⟨'-', char :: rest, by rw [encode, same], by simp [Opens]⟩
      | nan | infinity => exact doubles.elim
  | str text => exact ⟨'"', _, by rw [encode, quote]; rfl, by simp [Opens]⟩
  | arr items => exact ⟨'[', _, by rw [encode]; rfl, by simp [Opens]⟩
  | obj members => exact ⟨'{', _, by rw [encode]; rfl, by simp [Opens]⟩

/-- Such a character is no closing bracket. -/
theorem Opens.ne_bracket {char : Char} (opens : Opens char) : char ≠ ']' := by
  rintro rfl
  rcases opens with letter | digit
  · simp at letter
  · cases digit

theorem encodeItems_cons (item next : Json) (later : List Json)
    : encodeItems (item :: next :: later) = item.encode ++ ',' :: encodeItems (next :: later) := by
  rw [encodeItems]
  simp

theorem encodeMembers_cons (name : String) (item : Json) (next : String × Json)
    (later : List (String × Json))
    : encodeMembers ((name, item) :: next :: later)
      = quote name ++ ':' :: item.encode ++ ',' :: encodeMembers (next :: later) := by
  rw [encodeMembers]
  simp

/-- The text of an array's items begins with such a character too. -/
theorem encodeItems_opens {item : Json} {later : List Json}
    (doubles : DoublesItems (item :: later))
    : ∃ char tail, encodeItems (item :: later) = char :: tail ∧ Opens char := by
  obtain ⟨char, tail, same, opens⟩ := encode_opens doubles.1
  cases later with
  | nil => exact ⟨char, tail, by rw [encodeItems, same], opens⟩
  | cons next later => exact ⟨char, _, by rw [encodeItems_cons, same]; rfl, opens⟩

/-- The text of an object's members begins with a quote. -/
theorem encodeMembers_quote (member : String × Json) (later : List (String × Json))
    : ∃ tail, encodeMembers (member :: later) = '"' :: tail := by
  obtain ⟨name, item⟩ := member
  cases later with
  | nil => exact ⟨_, by rw [encodeMembers, quote]; rfl⟩
  | cons next later => exact ⟨_, by rw [encodeMembers_cons, quote]; rfl⟩

/-- This much fuel reads back what has a shorter text, with the text after it. -/
structure Reads (fuel : Nat) : Prop where
  value
    : ∀ (value : Json) rest,
        value.Doubles
        → Ends rest
        → value.encode.length < fuel
        → readValue fuel (value.encode ++ rest) = some (value, rest)
  items
    : ∀ item later rest,
        DoublesItems (item :: later)
        → (encodeItems (item :: later)).length + 1 < fuel
        → readItems fuel (encodeItems (item :: later) ++ ']' :: rest)
            = some (item :: later, rest)
  members
    : ∀ member later rest,
        DoublesMembers (member :: later)
        → (encodeMembers (member :: later)).length + 1 < fuel
        → readMembers fuel (encodeMembers (member :: later) ++ '}' :: rest)
            = some (member :: later, rest)

/-- The decimal digits. -/
theorem mem_digits_of_isDigit {char : Char} (digit : char.isDigit = true)
    : char ∈ ['0', '1', '2', '3', '4', '5', '6', '7', '8', '9'] := by
  have bounds : 48 ≤ char.toNat ∧ char.toNat ≤ 57 := by
    simp only [Char.isDigit, Bool.and_eq_true, decide_eq_true_eq] at digit
    exact ⟨UInt32.le_iff_toNat_le.mp digit.1, UInt32.le_iff_toNat_le.mp digit.2⟩
  have codes : ∀ code ≤ 57, 48 ≤ code
      → Char.ofNat code ∈ ['0', '1', '2', '3', '4', '5', '6', '7', '8', '9'] := by
    decide
  have member := codes char.toNat bounds.2 bounds.1
  rwa [Char.ofNat_toNat] at member

/-- A text that begins with a digit or a minus sign is read as a number. -/
theorem readValue_number (fuel : Nat) {char : Char} {later : List Char}
    (opens : char = '-' ∨ char.isDigit = true)
    : readValue (fuel + 1) (char :: later)
      = if validNumber (spanNumber (char :: later)).1 then
          some (num (Number.decimal (spanNumber (char :: later)).1),
            (spanNumber (char :: later)).2)
        else none := by
  rcases opens with rfl | digit
  · rfl
  · have member := mem_digits_of_isDigit digit
    simp only [List.mem_cons, List.not_mem_nil, or_false] at member
    rcases member with rfl | rfl | rfl | rfl | rfl | rfl | rfl | rfl | rfl | rfl <;> rfl

/-- One more unit of fuel reads a value, by its kind. -/
theorem Reads.value_succ {fuel : Nat} (reads : Reads fuel) (value : Json) (rest : List Char)
    (doubles : value.Doubles) (ends : Ends rest) (enough : value.encode.length < fuel + 1)
    : readValue (fuel + 1) (value.encode ++ rest) = some (value, rest) := by
  cases value with
  | null => rfl
  | bool value => cases value <;> rfl
  | num value =>
      cases value with
      | finite value =>
          obtain ⟨span, valid, number⟩ := readNumber_toText doubles ends
          obtain ⟨char, later, text, first⟩ := Number.toText_first doubles
          rw [encode, text, List.cons_append, readValue_number fuel first]
          rw [text, List.cons_append] at span
          rw [span, ← text, valid, number]
          rfl
      | nan | infinity => exact doubles.elim
  | str text =>
      have text' : (str text).encode ++ rest
          = '"' :: (text.toList.flatMap escape ++ '"' :: rest) := by
        simp [encode, quote]
      rw [text', readValue, skipSpace_opens (by simp [Opens])]
      simp only [readString_quote, Option.map_some]
  | arr items =>
      have text' : (arr items).encode ++ rest = '[' :: (encodeItems items ++ ']' :: rest) := by
        simp [encode]
      rw [text', readValue, skipSpace_opens (by simp [Opens])]
      simp only [encode, List.length_cons, List.length_append, List.length_nil] at enough
      cases items with
      | nil => rfl
      | cons item later =>
          have read := reads.items item later rest doubles (by omega)
          obtain ⟨char, tail, opening, opens⟩ := encodeItems_opens doubles
          rw [opening, List.cons_append] at read ⊢
          simp only [skipSpace_opens opens]
          split
          · rename_i same
            exact absurd (List.cons.inj same).1 opens.ne_bracket
          · rw [read]
            rfl
  | obj members =>
      have text' : (obj members).encode ++ rest
          = '{' :: (encodeMembers members ++ '}' :: rest) := by
        simp [encode]
      rw [text', readValue, skipSpace_opens (by simp [Opens])]
      simp only [encode, List.length_cons, List.length_append, List.length_nil] at enough
      cases members with
      | nil => rfl
      | cons member later =>
          have read := reads.members member later rest doubles (by omega)
          obtain ⟨tail, opening⟩ := encodeMembers_quote member later
          rw [opening, List.cons_append] at read ⊢
          simp only [skipSpace_opens (show Opens '"' by simp [Opens])]
          split
          · rename_i same
            exact absurd (List.cons.inj same).1 (by decide)
          · rw [read]
            rfl

/-- One more unit of fuel reads the items of an array. -/
theorem Reads.items_succ {fuel : Nat} (reads : Reads fuel) (item : Json) (later : List Json)
    (rest : List Char) (doubles : DoublesItems (item :: later))
    (enough : (encodeItems (item :: later)).length + 1 < fuel + 1)
    : readItems (fuel + 1) (encodeItems (item :: later) ++ ']' :: rest)
      = some (item :: later, rest) := by
  cases later with
  | nil =>
      have read := reads.value item (']' :: rest) doubles.1 (ends_cons (by decide) rest)
        (by simp only [encodeItems] at enough; omega)
      rw [encodeItems, readItems, read]
      rfl
  | cons next later =>
      simp only [encodeItems_cons, List.length_append, List.length_cons] at enough
      have read := reads.value item (',' :: (encodeItems (next :: later) ++ ']' :: rest)) doubles.1
        (ends_cons (by decide) _) (by omega)
      have others := reads.items next later rest doubles.2 (by omega)
      rw [encodeItems_cons, List.append_assoc, List.cons_append, readItems, read]
      simp only [Option.bind_eq_bind, Option.bind_some]
      have comma : skipSpace (',' :: (encodeItems (next :: later) ++ ']' :: rest))
          = ',' :: (encodeItems (next :: later) ++ ']' :: rest) :=
        rfl
      rw [comma]
      simp only [others, Option.bind_some]
      rfl

/-- One more unit of fuel reads the members of an object. -/
theorem Reads.members_succ {fuel : Nat} (reads : Reads fuel) (member : String × Json)
    (later : List (String × Json)) (rest : List Char)
    (doubles : DoublesMembers (member :: later))
    (enough : (encodeMembers (member :: later)).length + 1 < fuel + 1)
    : readMembers (fuel + 1) (encodeMembers (member :: later) ++ '}' :: rest)
      = some (member :: later, rest) := by
  obtain ⟨name, item⟩ := member
  have named (after : List Char)
      : quote name ++ ':' :: after
        = '"' :: (name.toList.flatMap escape ++ '"' :: ':' :: after) := by
    simp [quote]
  have colon (after : List Char) : skipSpace (':' :: after) = ':' :: after := rfl
  cases later with
  | nil =>
      have text' : encodeMembers [(name, item)] ++ '}' :: rest
          = quote name ++ ':' :: (item.encode ++ '}' :: rest) := by
        simp [encodeMembers]
      have read := reads.value item ('}' :: rest) doubles.1 (ends_cons (by decide) rest)
        (by simp only [encodeMembers, List.length_append, List.length_cons] at enough; omega)
      rw [text', named, readMembers, skipSpace_opens (by simp [Opens])]
      simp only [readString_quote, Option.bind_eq_bind, Option.bind_some, colon, read]
      rfl
  | cons next later =>
      have text' : encodeMembers ((name, item) :: next :: later) ++ '}' :: rest
          = quote name
            ++ ':' :: (item.encode ++ ',' :: (encodeMembers (next :: later) ++ '}' :: rest)) := by
        simp [encodeMembers_cons]
      simp only [encodeMembers_cons, List.length_append, List.length_cons] at enough
      have read :=
        reads.value item (',' :: (encodeMembers (next :: later) ++ '}' :: rest)) doubles.1
        (ends_cons (by decide) _) (by omega)
      have others := reads.members next later rest doubles.2 (by omega)
      have comma (after : List Char) : skipSpace (',' :: after) = ',' :: after := rfl
      rw [text', named, readMembers, skipSpace_opens (by simp [Opens])]
      simp only [readString_quote, Option.bind_eq_bind, Option.bind_some, colon, read, comma,
        others]
      rfl

/-- Any fuel reads back what is short enough for it, by induction on the fuel. -/
theorem reads (fuel : Nat) : Reads fuel := by
  induction fuel with
  | zero => exact ⟨by simp, by simp, by simp⟩
  | succ fuel ih =>
      exact ⟨fun value rest => ih.value_succ value rest,
        fun item later rest => ih.items_succ item later rest,
        fun member later rest => ih.members_succ member later rest⟩

/-- `JSON.parse` reads back what `JSON.stringify` writes, where every number is a double. -/
theorem parse_stringify_of_doubles {value : Json} (doubles : value.Doubles)
    : parse value.stringify = some value := by
  have read := (reads (2 * value.stringify.length + 2)).value value [] doubles ends_nil (by
    simp only [stringify, String.length_ofList]
    omega)
  rw [List.append_nil] at read
  simp only [parse, stringify, String.toList_ofList, String.length_ofList] at read ⊢
  rw [read]
  rfl

/-- `JSON.parse` reads back what `JSON.stringify` writes, where there is no number in it. -/
theorem parse_stringify {value : Json} (free : value.numberFree = true)
    : parse value.stringify = some value :=
  parse_stringify_of_doubles (doubles_of_numberFree value free)

end Js.Json
