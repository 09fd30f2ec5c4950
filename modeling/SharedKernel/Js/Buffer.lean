import Mathlib.Tactic.IntervalCases

/-! Node buffers and their UTF-8 text. An ill-formed sequence reads as the replacement
character, once for each maximal part of a well-formed one.
-/

namespace Js

/-- A buffer is its bytes. -/
abbrev Buffer := List UInt8

/-- Where a UTF-8 decoder stands: between characters, or within one that needs more bytes,
the next of which lies in a range.
-/
inductive Utf8State where
  | between
  | within (needed : Nat) (lower upper : UInt8) (code : Nat)

namespace Utf8State

/-- The first byte of a character. -/
def first (byte : UInt8) : List Char × Utf8State :=
  let bits (mask : Nat) : Nat := byte.toNat % mask
  if byte ≤ 0x7f then ([Char.ofNat byte.toNat], between)
  else if 0xc2 ≤ byte ∧ byte ≤ 0xdf then ([], within 1 0x80 0xbf (bits 0x20))
  else if byte = 0xe0 then ([], within 2 0xa0 0xbf (bits 0x10))
  else if byte = 0xed then ([], within 2 0x80 0x9f (bits 0x10))
  else if 0xe1 ≤ byte ∧ byte ≤ 0xef then ([], within 2 0x80 0xbf (bits 0x10))
  else if byte = 0xf0 then ([], within 3 0x90 0xbf (bits 0x08))
  else if 0xf1 ≤ byte ∧ byte ≤ 0xf3 then ([], within 3 0x80 0xbf (bits 0x08))
  else if byte = 0xf4 then ([], within 3 0x80 0x8f (bits 0x08))
  else (['\ufffd'], between)

/-- One byte; a byte that does not continue the character starts the next one. -/
def step : Utf8State → UInt8 → List Char × Utf8State
  | between, byte => first byte
  | within needed lower upper code, byte =>
      if lower ≤ byte ∧ byte ≤ upper then
        let code := code * 0x40 + byte.toNat % 0x40
        if needed ≤ 1 then ([Char.ofNat code], between)
        else ([], within (needed - 1) 0x80 0xbf code)
      else
        let (chars, state) := first byte
        ('\ufffd' :: chars, state)

/-- The characters of the remaining bytes. -/
def decode : Utf8State → List UInt8 → List Char
  | between, [] => []
  | within _ _ _ _, [] => ['\ufffd']
  | state, byte :: rest =>
      let (chars, next) := state.step byte
      chars ++ next.decode rest

/-- A character that has begun leaves a trace, by induction on the bytes. -/
theorem decode_within_ne_nil (needed : Nat) (lower upper : UInt8) (code : Nat)
    (bytes : List UInt8)
    : (within needed lower upper code).decode bytes ≠ [] := by
  induction bytes generalizing needed lower upper code with
  | nil => simp [decode]
  | cons byte rest ih =>
      simp only [decode, step]
      split
      · split
        · simp
        · simpa using ih _ _ _ _
      · simp

/-- A first byte is a character or begins one. -/
theorem decode_first_ne_nil (byte : UInt8) (rest : List UInt8)
    : (first byte).1 ++ (first byte).2.decode rest ≠ [] := by
  simp only [first]
  split_ifs <;> simp [decode_within_ne_nil]

-----------------------------------------------------------------------------------------
-- Reading an encoded character back
-----------------------------------------------------------------------------------------

theorem first_one {code : Nat} (small : code ≤ 0x7f)
    : first (UInt8.ofNat code) = ([Char.ofNat code], between) := by
  have same : (UInt8.ofNat code).toNat = code := UInt8.toNat_ofNat_of_lt' (by grind)
  have below : UInt8.ofNat code ≤ 0x7f := by
    rw [UInt8.le_iff_toNat_le, same]
    exact small
  rw [first, if_pos below, same]

theorem first_two {bits : Nat} (long : 2 ≤ bits) (small : bits < 0x20)
    : first (UInt8.ofNat (bits + 0xc0)) = ([], within 1 0x80 0xbf bits) := by
  interval_cases bits <;> rfl

/-- The second of three bytes has a narrower range after the first and after the last but
one of the first bytes: a shorter encoding and the surrogates are left out.
-/
theorem first_three {bits : Nat} (small : bits < 0x10)
    : first (UInt8.ofNat (bits + 0xe0))
      = ([], within 2 (if bits = 0 then 0xa0 else 0x80) (if bits = 0xd then 0x9f else 0xbf)
          bits) := by
  interval_cases bits <;> rfl

theorem first_four {bits : Nat} (small : bits < 5)
    : first (UInt8.ofNat (bits + 0xf0))
      = ([], within 3 (if bits = 0 then 0x90 else 0x80) (if bits = 4 then 0x8f else 0xbf)
          bits) := by
  interval_cases bits <;> rfl

/-- A byte in range adds its six bits to the character. -/
theorem step_within {needed code bits : Nat} {lower upper : UInt8}
    (above : lower.toNat ≤ bits + 0x80) (below : bits + 0x80 ≤ upper.toNat)
    (small : bits < 0x40)
    : (within needed lower upper code).step (UInt8.ofNat (bits + 0x80))
      = if needed ≤ 1 then ([Char.ofNat (code * 0x40 + bits)], between)
        else ([], within (needed - 1) 0x80 0xbf (code * 0x40 + bits)) := by
  have same : (UInt8.ofNat (bits + 0x80)).toNat = bits + 0x80 :=
    UInt8.toNat_ofNat_of_lt' (by grind)
  have inside : lower ≤ UInt8.ofNat (bits + 0x80) ∧ UInt8.ofNat (bits + 0x80) ≤ upper := by
    rw [UInt8.le_iff_toNat_le, UInt8.le_iff_toNat_le, same]
    exact ⟨above, below⟩
  have rest : (bits + 0x80) % 0x40 = bits := by omega
  rw [step, if_pos inside, same]
  simp only [rest]

theorem decode_between (byte : UInt8) (rest : List UInt8)
    : between.decode (byte :: rest) = (first byte).1 ++ (first byte).2.decode rest :=
  rfl

theorem decode_more {needed code bits : Nat} {lower upper : UInt8} {rest : List UInt8}
    (above : lower.toNat ≤ bits + 0x80) (below : bits + 0x80 ≤ upper.toNat)
    (small : bits < 0x40)
    : (within (needed + 2) lower upper code).decode (UInt8.ofNat (bits + 0x80) :: rest)
      = (within (needed + 1) 0x80 0xbf (code * 0x40 + bits)).decode rest := by
  rw [decode, step_within above below small]
  rfl

theorem decode_last {code bits : Nat} {lower upper : UInt8} {rest : List UInt8}
    (above : lower.toNat ≤ bits + 0x80) (below : bits + 0x80 ≤ upper.toNat)
    (small : bits < 0x40)
    : (within 1 lower upper code).decode (UInt8.ofNat (bits + 0x80) :: rest)
      = Char.ofNat (code * 0x40 + bits) :: between.decode rest := by
  rw [decode, step_within above below small]
  rfl

/-- A character is read back from its encoding, by cases on the number of its bytes. -/
theorem decode_encode (char : Char) (rest : List UInt8)
    : between.decode (String.utf8EncodeChar char ++ rest) = char :: between.decode rest := by
  have back : Char.ofNat char.val.toNat = char := Char.ofNat_toNat char
  have valid
      : char.val.toNat < 0xd800 ∨ 0xdfff < char.val.toNat ∧ char.val.toNat < 0x110000 :=
    char.valid
  unfold String.utf8EncodeChar
  generalize char.val.toNat = code at back valid
  simp only []
  split
  · rename_i one
    rw [List.cons_append, List.nil_append, decode_between, first_one one, back]
    rfl
  · split
    · have bits : code / 64 % 0x20 * 0x40 + code % 0x40 = code := by omega
      simp only [List.cons_append, List.nil_append]
      rw [decode_between, first_two (by omega) (by omega), List.nil_append,
        decode_last (by simp) (by simp; omega) (by omega), bits, back]
    · split
      · have bits
            : (code / 4096 % 0x10 * 0x40 + code / 64 % 0x40) * 0x40 + code % 0x40 = code := by
          omega
        simp only [List.cons_append, List.nil_append]
        rw [decode_between, first_three (by omega), List.nil_append,
          decode_more (by split <;> simp; omega) (by split <;> simp <;> omega) (by omega),
          decode_last (by simp) (by simp; omega) (by omega), bits, back]
      · have bits
            : ((code / 262144 % 0x08 * 0x40 + code / 4096 % 0x40) * 0x40 + code / 64 % 0x40)
                * 0x40 + code % 0x40
              = code := by
          omega
        simp only [List.cons_append, List.nil_append]
        rw [decode_between, first_four (by omega), List.nil_append,
          decode_more (by split <;> simp; omega) (by split <;> simp <;> omega) (by omega),
          decode_more (by simp) (by simp; omega) (by omega),
          decode_last (by simp) (by simp; omega) (by omega), bits, back]

/-- Text is read back from its encoding, by induction on its characters. -/
theorem decode_flatMap_encode (chars : List Char)
    : between.decode (chars.flatMap String.utf8EncodeChar) = chars := by
  induction chars with
  | nil => rfl
  | cons char rest ih => rw [List.flatMap_cons, decode_encode, ih]

end Utf8State

namespace Buffer

/-- `buffer.toString()`. -/
def toText (bytes : Buffer) : String :=
  String.ofList (Utf8State.between.decode bytes)

/-- `Buffer.from(text)`. -/
def ofText (text : String) : Buffer :=
  text.toUTF8.data.toList

/-- Text survives the way through a buffer. -/
theorem toText_ofText (text : String) : toText (ofText text) = text := by
  have bytes : ofText text = text.toList.flatMap String.utf8EncodeChar := by
    rw [ofText, String.toUTF8_eq_toByteArray, ← String.utf8Encode_toList]
    exact List.toList_data_toByteArray
  rw [toText, bytes, Utf8State.decode_flatMap_encode, String.ofList_toList]

/-- Only the empty buffer is the empty text. -/
theorem toText_eq_empty (bytes : Buffer) : toText bytes = "" ↔ bytes = [] := by
  constructor
  · intro empty
    cases bytes with
    | nil => rfl
    | cons byte rest =>
        have nonempty := Utf8State.decode_first_ne_nil byte rest
        have chars := congrArg String.toList empty
        simp only [toText, String.toList_ofList, Utf8State.decode, Utf8State.step] at chars
        exact absurd chars nonempty
  · intro same
    subst same
    rfl

example : toText [0x61, 0xc3, 0xa9, 0xf0, 0x9f, 0xff] = "aé\ufffd\ufffd" := by
  decide +kernel

end Buffer
end Js
