import SharedKernel.Js.DoubleBits
import SharedKernel.Protobuf.Library

/-! The binary format: numbers of seven bits a byte, text and messages behind their length,
doubles as eight bytes. A text loses the mark that it begins with.
-/

namespace Protobuf

open Js

-----------------------------------------------------------------------------------------
-- Numbers of variable length
-----------------------------------------------------------------------------------------

/-- Seven bits a byte, the lowest first; every byte but the last has its high bit set. -/
def writeVarint : (most : Nat) → Nat → Buffer
  | 0, _ => []
  | most + 1, value =>
      if value < 128 then [UInt8.ofNat value]
      else UInt8.ofNat (value % 128 + 128) :: writeVarint most (value / 128)

/-- The bytes up to the first without its high bit. -/
def readVarint : (most : Nat) → Buffer → Option (Nat × Buffer)
  | 0, _ | _ + 1, [] => none
  | most + 1, byte :: rest =>
      if byte.toNat < 128 then some (byte.toNat, rest)
      else (readVarint most rest).map (fun (high, left) =>
        (byte.toNat - 128 + 128 * high, left))

/-- A number that fits is read back, by induction on the bytes it may take. -/
theorem readVarint_writeVarint {most value : Nat} (fits : value < 128 ^ (most + 1))
    (rest : Buffer)
    : readVarint (most + 1) (writeVarint (most + 1) value ++ rest) = some (value, rest) := by
  induction most generalizing value with
  | zero =>
      have same : (UInt8.ofNat value).toNat = value := UInt8.toNat_ofNat_of_lt' (by grind)
      rw [writeVarint, if_pos (by omega), List.cons_append, readVarint, same,
        if_pos (by omega), List.nil_append]
  | succ most ih =>
      rw [writeVarint]
      split
      · rename_i small
        have same : (UInt8.ofNat value).toNat = value := UInt8.toNat_ofNat_of_lt' (by grind)
        rw [List.cons_append, readVarint, same, if_pos small, List.nil_append]
      · have same : (UInt8.ofNat (value % 128 + 128)).toNat = value % 128 + 128 :=
          UInt8.toNat_ofNat_of_lt' (by grind)
        have high : value / 128 < 128 ^ (most + 1) := by
          rw [pow_succ] at fits
          exact Nat.div_lt_of_lt_mul (by omega)
        have sum : value % 128 + 128 - 128 + 128 * (value / 128) = value := by omega
        rw [List.cons_append, readVarint, same, if_neg (by omega), ih high, Option.map_some]
        simp only [sum]

/-- Reading a number takes at least one byte, by induction on the bytes it may take. -/
theorem readVarint_shorter {most value : Nat} {bytes rest : Buffer}
    (read : readVarint most bytes = some (value, rest))
    : rest.length < bytes.length := by
  induction most generalizing bytes value with
  | zero => cases read
  | succ most ih =>
      cases bytes with
      | nil => cases read
      | cons byte bytes =>
          rw [readVarint] at read
          split at read
          · cases read
            exact Nat.lt_succ_self _
          · obtain ⟨⟨high, left⟩, ran, same⟩ := Option.map_eq_some_iff.mp read
            cases same
            exact (ih ran).trans (Nat.lt_succ_self _)

/-- A number of at most ten bytes. -/
def varint : Reads Nat where
  run := readVarint 10
  shorter := readVarint_shorter

/-- The low 32 bits of a number. -/
def readUint32 : Reads Nat :=
  varint.map (· % 2 ^ 32)

-----------------------------------------------------------------------------------------
-- Bytes behind their length, and a fixed number of bytes
-----------------------------------------------------------------------------------------

/-- The first bytes of a buffer that has as many. -/
def takeBytes (count : Nat) (bytes : Buffer) : Option (Buffer × Buffer) :=
  if count ≤ bytes.length then some (bytes.take count, bytes.drop count) else none

theorem takeBytes_length_le {count : Nat} {bytes taken rest : Buffer}
    (took : takeBytes count bytes = some (taken, rest))
    : rest.length ≤ bytes.length := by
  rw [takeBytes] at took
  split at took
  · cases took
    rw [List.length_drop]
    exact Nat.sub_le ..
  · cases took

theorem takeBytes_append {count : Nat} {taken : Buffer} (length : taken.length = count)
    (rest : Buffer)
    : takeBytes count (taken ++ rest) = some (taken, rest) := by
  subst length
  rw [takeBytes, if_pos (by simp), List.take_left, List.drop_left]

/-- `reader.bytes()`. -/
def readBytes : Reads Buffer :=
  readUint32.andThen takeBytes takeBytes_length_le

/-- Some number of bytes, at least one. -/
def readFixed (count : Nat) (positive : 0 < count) : Reads Buffer where
  run := takeBytes count
  shorter took := by
    rw [takeBytes] at took
    split at took
    · cases took
      rw [List.length_drop]
      omega
    · cases took

/-- The lowest byte first. -/
def littleEndian : (count : Nat) → Nat → Buffer
  | 0, _ => []
  | count + 1, value => UInt8.ofNat (value % 256) :: littleEndian count (value / 256)

def ofLittleEndian : Buffer → Nat
  | [] => 0
  | byte :: rest => byte.toNat + 256 * ofLittleEndian rest

theorem length_littleEndian (count value : Nat) : (littleEndian count value).length = count := by
  induction count generalizing value with
  | zero => rfl
  | succ count ih => rw [littleEndian, List.length_cons, ih]

/-- A number that fits its bytes is read back from them, by induction on the bytes. -/
theorem ofLittleEndian_littleEndian {count value : Nat} (fits : value < 256 ^ count)
    : ofLittleEndian (littleEndian count value) = value := by
  induction count generalizing value with
  | zero =>
      rw [pow_zero, Nat.lt_one_iff] at fits
      exact fits.symm
  | succ count ih =>
      have same : (UInt8.ofNat (value % 256)).toNat = value % 256 :=
        UInt8.toNat_ofNat_of_lt' (by grind)
      have high : value / 256 < 256 ^ count := by
        rw [pow_succ] at fits
        exact Nat.div_lt_of_lt_mul (by omega)
      rw [littleEndian, ofLittleEndian, same, ih high, Nat.mod_add_div]

-----------------------------------------------------------------------------------------
-- The library
-----------------------------------------------------------------------------------------

/-- The 32-bit integer that a number is. -/
def toInt32 : Number → Option Int
  | .finite value =>
      if value.den = 1 ∧ -2 ^ 31 ≤ value.num ∧ value.num < 2 ^ 31 then some value.num else none
  | _ => none

/-- The integer of 32 bits, the high half of which is negative. -/
def ofUint32 (value : Nat) : Number :=
  .finite (if value < 2 ^ 31 then value else value - 2 ^ 32 : Int)

/-- The bytes behind the first without its high bit. -/
def skipVarint : Buffer → Option Buffer
  | [] => none
  | byte :: rest => if byte.toNat < 128 then some rest else skipVarint rest

theorem skipVarint_shorter {bytes rest : Buffer} (skipped : skipVarint bytes = some rest)
    : rest.length < bytes.length := by
  induction bytes with
  | nil => cases skipped
  | cons byte bytes ih =>
      rw [skipVarint] at skipped
      split at skipped
      · cases skipped
        exact Nat.lt_succ_self _
      · exact (ih skipped).trans (Nat.lt_succ_self _)

/-- Skip a value of a wire type; a group ends at its own end tag, if its number is given. -/
def skipValue : (most : Nat) → (wireType : Nat) → (group : Option Nat) → Buffer → Option Buffer
  | 0, _, _, _ => none
  | most + 1, wireType, group, bytes =>
      match wireType with
      | 0 => skipVarint bytes
      | 1 => ((readFixed 8 (by norm_num)).run bytes).map Prod.snd
      | 2 => (readBytes.run bytes).map Prod.snd
      | 3 =>
          match readUint32.run bytes with
          | none => none
          | some (tag, rest) =>
              if tag >>> 3 = 0 ∨ 5 < tag &&& 7 then none
              else if tag &&& 7 = 4 then
                if group.all (· = tag >>> 3) then some rest else none
              else
                (skipValue most (tag &&& 7) (some (tag >>> 3)) rest).bind
                  (skipValue most 3 group)
      | 5 => ((readFixed 4 (by norm_num)).run bytes).map Prod.snd
      | _ => none

/-- Skipping takes at least one byte, by induction on the values it may skip. -/
theorem skipValue_shorter {most wireType : Nat} {group : Option Nat} {bytes rest : Buffer}
    (skipped : skipValue most wireType group bytes = some rest)
    : rest.length < bytes.length := by
  induction most generalizing wireType group bytes rest with
  | zero => cases skipped
  | succ most ih =>
      have fixed : ∀ {reads : Reads Buffer}, (reads.run bytes).map Prod.snd = some rest
          → rest.length < bytes.length := by
        intro reads found
        obtain ⟨⟨taken, left⟩, ran, rfl⟩ := Option.map_eq_some_iff.mp found
        exact reads.shorter ran
      unfold skipValue at skipped
      split at skipped
      · exact skipVarint_shorter skipped
      · exact fixed skipped
      · exact fixed skipped
      · split at skipped
        · cases skipped
        · rename_i tag left head
          have first := readUint32.shorter head
          split at skipped
          · cases skipped
          · split at skipped
            · split at skipped
              · cases skipped
                exact first
              · cases skipped
            · obtain ⟨later, inner, outer⟩ := Option.bind_eq_some_iff.mp skipped
              exact ((ih outer).trans (ih inner)).trans first
      · exact fixed skipped
      · cases skipped

/-- `reader.skip(wireType)`. -/
def skipBinary (wireType : Nat) : Reads Unit where
  run bytes := (skipValue (bytes.length + 1) wireType none bytes).map ((), ·)
  shorter skipped := by
    obtain ⟨rest, ran, same⟩ := Option.map_eq_some_iff.mp skipped
    cases same
    exact skipValue_shorter ran

/-- A text without the mark that it begins with. -/
def dropMark (text : String) : String :=
  match text.toList with
  | first :: rest => if first = byteOrderMark then String.ofList rest else text
  | [] => text

theorem dropMark_of_unmarked {text : String} (plain : Unmarked text) : dropMark text = text := by
  rw [Unmarked] at plain
  unfold dropMark
  split
  · rename_i first rest characters
    rw [characters] at plain
    exact if_neg (fun mark => plain (congrArg some mark))
  · rfl

/-- The length of some bytes, then the bytes. -/
def writeBytes (bytes : Buffer) : Option Buffer :=
  if bytes.length < 2 ^ 32 then some (writeVarint 5 bytes.length ++ bytes) else none

/-- A writer refuses what has no encoding; a negative number is written with 64 bits. -/
def binary : Library where
  uint32 value := if value < 2 ^ 32 then some (writeVarint 5 value) else none
  string text := writeBytes (Buffer.ofText text)
  bool value := some [if value then 1 else 0]
  int32 value := (toInt32 value).map (fun value => writeVarint 10 (value % 2 ^ 64).toNat)
  double value := value.toBits.map (littleEndian 8)
  readUint32 := readUint32
  readString := readBytes.map (fun bytes => dropMark (Buffer.toText bytes))
  readBool := varint.map (· % 2 ^ 64 ≠ 0)
  readInt32 := readUint32.map ofUint32
  readDouble := (readFixed 8 (by norm_num)).map (fun bytes => .ofBits (ofLittleEndian bytes))
  skip := skipBinary

/-- A converted read of what was written. -/
theorem Reads.run_map {value result : Type} {reads : Reads value} {bytes rest : Buffer}
    {read : value} (ran : reads.run bytes = some (read, rest)) (convert : value → result)
    : (reads.map convert).run bytes = some (convert read, rest) := by
  simp only [Reads.map, ran, Option.map_some]

/-- A number in few bytes is read by the reader of ten. -/
theorem readVarint_mono {most more value : Nat} {bytes rest : Buffer} (grows : most ≤ more)
    (read : readVarint most bytes = some (value, rest))
    : readVarint more bytes = some (value, rest) := by
  induction most generalizing more bytes value with
  | zero => cases read
  | succ most ih =>
      obtain ⟨more, rfl⟩ : ∃ next, more = next + 1 := ⟨more - 1, by omega⟩
      cases bytes with
      | nil => cases read
      | cons byte bytes =>
          rw [readVarint] at read ⊢
          split at read
          · rename_i small
            rw [if_pos small, read]
          · rename_i large
            obtain ⟨⟨high, left⟩, ran, same⟩ := Option.map_eq_some_iff.mp read
            cases same
            rw [if_neg large, ih (by omega) ran, Option.map_some]

theorem readUint32_writeVarint {value : Nat} (fits : value < 2 ^ 32) (rest : Buffer)
    : readUint32.run (writeVarint 5 value ++ rest) = some (value, rest) := by
  have read : varint.run (writeVarint 5 value ++ rest) = some (value, rest) :=
    readVarint_mono (by norm_num) (readVarint_writeVarint (by omega) rest)
  rw [readUint32, Reads.run_map read, Nat.mod_eq_of_lt fits]

theorem readBytes_writeBytes {body bytes : Buffer} (wrote : writeBytes body = some bytes)
    (rest : Buffer)
    : readBytes.run (bytes ++ rest) = some (body, rest) := by
  rw [writeBytes] at wrote
  split at wrote
  · rename_i fits
    cases wrote
    have counted := readUint32_writeVarint fits (body ++ rest)
    simp only [readBytes, Reads.andThen, List.append_assoc, counted, Option.bind_some]
    exact takeBytes_append rfl rest
  · cases wrote

/-- Only the integers of 32 bits are written. -/
theorem toInt32_eq_some {number : Number} {value : Int} (integer : toInt32 number = some value)
    : number = .finite value ∧ -2 ^ 31 ≤ value ∧ value < 2 ^ 31 := by
  cases number with
  | nan => cases integer
  | infinity negative => cases integer
  | finite exact =>
      simp only [toInt32] at integer
      split at integer
      · rename_i fits
        cases integer
        exact ⟨congrArg Number.finite (Rat.den_eq_one_iff exact |>.mp fits.1).symm, fits.2⟩
      · cases integer

/-- The number of 32 bits of an integer is read as the integer. -/
theorem ofUint32_emod {value : Int} (least : -2 ^ 31 ≤ value) (most : value < 2 ^ 31)
    : ofUint32 ((value % 2 ^ 64).toNat % 2 ^ 32) = .finite value := by
  rw [ofUint32]
  congr 2
  split <;> omega

theorem binary_uint32 : Faithful binary.uint32 binary.readUint32 := by
  intro value bytes wrote rest
  simp only [binary] at wrote
  split at wrote
  · rename_i fits
    cases wrote
    exact readUint32_writeVarint fits rest
  · cases wrote

theorem binary_string : FaithfulOn Unmarked binary.string binary.readString := by
  intro text bytes plain wrote rest
  have read := Reads.run_map (readBytes_writeBytes wrote rest)
    (fun bytes => dropMark (Buffer.toText bytes))
  rw [Buffer.toText_ofText, dropMark_of_unmarked plain] at read
  exact read

theorem binary_bool : Faithful binary.bool binary.readBool := by
  intro value bytes wrote rest
  cases wrote
  cases value <;> rfl

theorem binary_int32 : Faithful binary.int32 binary.readInt32 := by
  intro number bytes wrote rest
  obtain ⟨value, integer, rfl⟩ := Option.map_eq_some_iff.mp wrote
  obtain ⟨rfl, least, most⟩ := toInt32_eq_some integer
  have read : varint.run (writeVarint 10 (value % 2 ^ 64).toNat ++ rest)
      = some ((value % 2 ^ 64).toNat, rest) :=
    readVarint_writeVarint (by omega) rest
  have back := Reads.run_map (Reads.run_map read (· % 2 ^ 32)) ofUint32
  rw [ofUint32_emod least most] at back
  exact back

theorem binary_double : Faithful binary.double binary.readDouble := by
  intro number bytes wrote rest
  obtain ⟨bits, pattern, rfl⟩ := Option.map_eq_some_iff.mp wrote
  have small : bits < 256 ^ 8 := (Number.toBits_lt pattern).trans_eq (by norm_num)
  have read : (readFixed 8 (by norm_num)).run (littleEndian 8 bits ++ rest)
      = some (littleEndian 8 bits, rest) :=
    takeBytes_append (length_littleEndian 8 bits) rest
  have back := Reads.run_map read (fun bytes => Number.ofBits (ofLittleEndian bytes))
  rw [ofLittleEndian_littleEndian small, Number.ofBits_toBits pattern] at back
  exact back

theorem binary_lawful : binary.Lawful where
  uint32 := binary_uint32
  string := binary_string
  bool := binary_bool
  int32 := binary_int32
  double := binary_double

end Protobuf
