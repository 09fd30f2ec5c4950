import SharedKernel.Js.Buffer
import SharedKernel.Js.Number

/-! What generated code calls of a library for protocol buffers: a writer that appends to a
buffer and a reader that takes from its front. Either throws where it cannot go on.
-/

namespace Protobuf

open Js

-----------------------------------------------------------------------------------------
-- Reading
-----------------------------------------------------------------------------------------

/-- A read takes at least one byte from the front of a buffer, or throws. -/
structure Reads (value : Type) where
  run : Buffer → Option (value × Buffer)
  shorter : ∀ {bytes : Buffer} {read : value} {rest : Buffer},
    run bytes = some (read, rest) → rest.length < bytes.length

namespace Reads

variable {value result : Type}

/-- A read whose value is converted. -/
def map (convert : value → result) (reads : Reads value) : Reads result where
  run bytes := (reads.run bytes).map (fun (read, rest) => (convert read, rest))
  shorter found := by
    obtain ⟨⟨read, rest⟩, ran, same⟩ := Option.map_eq_some_iff.mp found
    rw [← (Prod.mk.inj same).2]
    exact reads.shorter ran

/-- A read that decides by its value how to go on; the rest may take no byte. -/
def andThen (reads : Reads value) (next : value → Buffer → Option (result × Buffer))
    (noLonger : ∀ {read bytes found rest},
      next read bytes = some (found, rest) → rest.length ≤ bytes.length)
    : Reads result where
  run bytes := (reads.run bytes).bind (fun (read, rest) => next read rest)
  shorter found := by
    obtain ⟨⟨read, rest⟩, ran, went⟩ := Option.bind_eq_some_iff.mp found
    exact (noLonger went).trans_lt (reads.shorter ran)

end Reads

/-- Whatever is written of a plain value is read back, and nothing after it is touched. -/
def FaithfulOn {value : Type} (plain : value → Prop) (write : value → Option Buffer)
    (reads : Reads value)
    : Prop :=
  ∀ ⦃written bytes⦄, plain written → write written = some bytes →
    ∀ rest, reads.run (bytes ++ rest) = some (written, rest)

/-- Whatever is written is read back, and nothing after it is touched. -/
def Faithful {value : Type} (write : value → Option Buffer) (reads : Reads value) : Prop :=
  ∀ ⦃written bytes⦄, write written = some bytes →
    ∀ rest, reads.run (bytes ++ rest) = some (written, rest)

section

variable {value : Type} {plain : value → Prop} {write : value → Option Buffer}
  {reads : Reads value}

theorem Faithful.on (faithful : Faithful write reads) : FaithfulOn plain write reads :=
  fun _ _ _ wrote => faithful wrote

/-- A value that is read back took at least one byte. -/
theorem Faithful.length_pos (faithful : Faithful write reads) {written : value} {bytes : Buffer}
    (wrote : write written = some bytes)
    : 0 < bytes.length := by
  have shorter := reads.shorter (faithful wrote [])
  simpa using shorter

end

-----------------------------------------------------------------------------------------
-- The library
-----------------------------------------------------------------------------------------

/-- The methods of the writer, then those of the reader. -/
structure Library where
  uint32 : Nat → Option Buffer
  string : String → Option Buffer
  bool : Bool → Option Buffer
  int32 : Number → Option Buffer
  double : Number → Option Buffer
  readUint32 : Reads Nat
  readString : Reads String
  readBool : Reads Bool
  readInt32 : Reads Number
  readDouble : Reads Number
  skip : Nat → Reads Unit

/-- The character that text decoders drop at the start of a text. -/
def byteOrderMark : Char :=
  Char.ofNat 0xfeff

/-- The text does not begin with a byte order mark. -/
def Unmarked (text : String) : Prop :=
  text.toList.head? ≠ some byteOrderMark

instance (text : String) : Decidable (Unmarked text) :=
  inferInstanceAs (Decidable (_ ≠ _))

/-- The reader takes back what the writer wrote, except that a text may lose its mark. -/
structure Library.Lawful (library : Library) : Prop where
  uint32 : Faithful library.uint32 library.readUint32
  string : FaithfulOn Unmarked library.string library.readString
  bool : Faithful library.bool library.readBool
  int32 : Faithful library.int32 library.readInt32
  double : Faithful library.double library.readDouble

/-- `writer.fork()`, then `join()`: the bytes behind their length. -/
def Library.join (library : Library) (body : Buffer) : Option Buffer :=
  (library.uint32 body.length).map (· ++ body)

/-- The reader skips exactly these bytes as a value of the wire type. -/
def Library.Skips (library : Library) (wireType : Nat) (payload : Buffer) : Prop :=
  ∀ rest, (library.skip wireType).run (payload ++ rest) = some ((), rest)

end Protobuf
