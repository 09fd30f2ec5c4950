import Mathlib.Data.List.Pairwise
import SharedKernel.Foundation.Shuffle
import SharedKernel.Protobuf.Codec

/-! A buffer as a stream of pieces, each a field that the codec knows or one that it does not:
decoding folds the pieces that it knows and passes over the others.
-/

namespace Protobuf

open Foundation Js

variable {Message Inner Item : Type} {library : Library} {codec : Codec Message}

-----------------------------------------------------------------------------------------
-- Pieces
-----------------------------------------------------------------------------------------

/-- One field of a stream with its value; of an unknown field only its bytes are told. -/
inductive Piece (Message : Type) where
  | known (field : Field Message) (value : field.Value)
  | unknown (tag : Nat) (payload : Buffer)

namespace Piece

def encode (library : Library) : Piece Message → Option Buffer
  | known field value => field.encode library value
  | unknown tag payload => (library.uint32 tag).map (· ++ payload)

/-- What a piece does to the message being read. -/
def apply (message : Message) : Piece Message → Message
  | known field value => field.merge message value
  | unknown _ _ => message

/-- The number of a field that the codec knows. -/
def number? : Piece Message → Option Nat
  | known field _ => some field.number
  | unknown _ _ => none

/-- A piece that the codec may meet: a plain value of a field of its own, or a field that no case
takes, that does not end the message and that the reader skips as a whole.
-/
def Fits (library : Library) (codec : Codec Message) : Piece Message → Prop
  | known field value => field ∈ codec.fields ∧ field.plain value
  | unknown tag payload =>
      codec.known tag = none ∧ ¬(tag &&& 7 = 4 ∨ tag = 0) ∧ library.Skips (tag &&& 7) payload

end Piece

/-- The pieces that `encode` writes. -/
def Codec.pieces (codec : Codec Message) (message : Message) : List (Piece Message) :=
  codec.fields.flatMap (fun field => (field.occurrences message).map (.known field))

/-- What reading a message on top of another one gives. -/
def Codec.mergeFrom (codec : Codec Message) (start message : Message) : Message :=
  codec.fields.foldl
    (fun start field => (field.occurrences message).foldl field.merge start) start

/-- `encode` writes its pieces. -/
theorem Codec.encode_eq (codec : Codec Message) (message : Message)
    : codec.encode library message
      = concat ((codec.pieces message).map (Piece.encode library)) := by
  rw [Codec.encode, Codec.pieces, List.map_flatMap]
  simp only [List.map_map]
  rfl

/-- Reading the pieces of a message merges it. -/
theorem Codec.foldl_pieces (codec : Codec Message) (start message : Message)
    : (codec.pieces message).foldl Piece.apply start = codec.mergeFrom start message := by
  rw [Codec.pieces, List.foldl_flatMap, Codec.mergeFrom]
  simp only [List.foldl_map]
  rfl

-----------------------------------------------------------------------------------------
-- Laws of a codec
-----------------------------------------------------------------------------------------

/-- A field reads what it writes, and its tag carries its number. -/
structure Field.Lawful (field : Field Message) : Prop where
  numbered : field.tag >>> 3 = field.number
  faithful : FaithfulOn field.plain field.write field.read

/-- Two fields change different parts of a message. -/
def Field.Apart (field other : Field Message) : Prop :=
  ∀ message value second,
    other.merge (field.merge message value) second
      = field.merge (other.merge message second) value

/-- The fields have numbers of their own and parts of their own, and together they make up
the message.
-/
structure Codec.Lawful (codec : Codec Message) : Prop where
  fields : ∀ field ∈ codec.fields, field.Lawful
  distinct : (codec.fields.map Field.number).Nodup
  apart : codec.fields.Pairwise Field.Apart
  complete : ∀ message, codec.mergeFrom codec.base message = message

/-- A tag of a field selects its case. -/
theorem Codec.Lawful.known_tag (lawful : codec.Lawful) {field : Field Message}
    (member : field ∈ codec.fields)
    : codec.known field.tag = some field := by
  have found
      : codec.fields.find? (fun other => other.number = field.tag >>> 3) = some field := by
    rw [(lawful.fields field member).numbered]
    obtain ⟨before, after, split⟩ := List.append_of_mem member
    have distinct := lawful.distinct
    rw [split, List.map_append, List.map_cons, List.nodup_append] at distinct
    rw [split, List.find?_append, List.find?_eq_none.mpr, Option.none_or,
      List.find?_cons_of_pos (by simp)]
    intro other earlier
    have apart := distinct.2.2 other.number (List.mem_map_of_mem earlier) field.number
      (List.mem_cons_self ..)
    simpa using apart
  rw [Codec.known, found, Option.filter_some_pos (by simp)]

instance : Std.Symm (@Field.Apart Message) where
  symm _ _ apart message value second := (apart message second value).symm

/-- One turn of the loop reads one piece, whatever follows it. -/
theorem Codec.readFields_piece (laws : library.Lawful) (lawful : codec.Lawful)
    {piece : Piece Message} (fits : piece.Fits library codec) {bytes : Buffer}
    (wrote : piece.encode library = some bytes) (message : Message) {length : Nat}
    (within : bytes.length ≤ length) (rest : Buffer)
    : codec.readFields library message length (bytes ++ rest)
      = codec.readFields library (Piece.apply message piece) (length - bytes.length) rest := by
  have consumed : (bytes ++ rest).length - rest.length = bytes.length := by simp
  cases piece with
  | known field value =>
      obtain ⟨head, wroteHead, payload, wrotePayload, rfl⟩ : ∃ head,
          library.uint32 field.tag = some head ∧ ∃ payload,
            field.write value = some payload ∧ head ++ payload = bytes := by
        simpa [Piece.encode, Field.encode, Option.bind_eq_some_iff] using wrote
      have positive := laws.uint32.length_pos wroteHead
      rw [List.length_append] at within
      have read := (lawful.fields field fits.1).faithful fits.2 wrotePayload rest
      have tagged := laws.uint32 wroteHead (payload ++ rest)
      rw [← List.append_assoc] at tagged
      rw [readFields_known (by omega) tagged (lawful.known_tag fits.1) read, consumed]
      rfl
  | unknown tag payload =>
      obtain ⟨head, wroteHead, rfl⟩ := Option.map_eq_some_iff.mp wrote
      have positive := laws.uint32.length_pos wroteHead
      rw [List.length_append] at within
      have tagged := laws.uint32 wroteHead (payload ++ rest)
      rw [← List.append_assoc] at tagged
      rw [readFields_unknown (by omega) tagged fits.1 fits.2.1 (fits.2.2 rest), consumed]
      rfl

/-- The loop reads a whole stream piece by piece, by induction on the pieces. -/
theorem Codec.readFields_stream (laws : library.Lawful) (lawful : codec.Lawful)
    {stream : List (Piece Message)} (fits : ∀ piece ∈ stream, piece.Fits library codec)
    {bytes : Buffer} (wrote : concat (stream.map (Piece.encode library)) = some bytes)
    (message : Message) {length : Nat} (within : bytes.length ≤ length) (rest : Buffer)
    : codec.readFields library message length (bytes ++ rest)
      = codec.readFields library (stream.foldl Piece.apply message) (length - bytes.length)
          rest := by
  induction stream generalizing bytes message length with
  | nil =>
      cases wrote
      rfl
  | cons piece others ih =>
      obtain ⟨first, wroteFirst, later, wroteLater, rfl⟩ : ∃ first,
          piece.encode library = some first ∧ ∃ later,
            concat (others.map (Piece.encode library)) = some later
            ∧ first ++ later = bytes := by
        simpa [concat, Option.bind_eq_some_iff] using wrote
      rw [List.length_append] at within
      rw [List.append_assoc,
        readFields_piece laws lawful (fits piece (List.mem_cons_self ..)) wroteFirst message
          (by omega),
        ih (fun other member => fits other (List.mem_cons_of_mem _ member)) wroteLater _
          (by omega),
        List.foldl_cons, List.length_append, Nat.sub_sub]

/-- A message of its own length is read to its end and no further. -/
theorem Codec.readFields_whole (laws : library.Lawful) (lawful : codec.Lawful)
    {stream : List (Piece Message)} (fits : ∀ piece ∈ stream, piece.Fits library codec)
    {bytes : Buffer} (wrote : concat (stream.map (Piece.encode library)) = some bytes)
    (message : Message) (rest : Buffer)
    : codec.readFields library message bytes.length (bytes ++ rest)
      = some (stream.foldl Piece.apply message, rest) := by
  rw [readFields_stream laws lawful fits wrote message le_rfl, Nat.sub_self,
    Codec.readFields, dif_neg (by simp)]

/-- The pieces of a plain message are of its own fields. -/
theorem Codec.Plain.pieces_fit {message : Message} (plain : codec.Plain message)
    : ∀ piece ∈ codec.pieces message, piece.Fits library codec := by
  intro piece member
  obtain ⟨field, own, written⟩ := List.mem_flatMap.mp member
  obtain ⟨value, occurs, rfl⟩ := List.mem_map.mp written
  exact ⟨own, plain field own value occurs⟩

/-- A stream that carries a message: the values of each field as the message has them, in any
order of the fields, with unknown fields anywhere.
-/
structure Codec.Carries (library : Library) (codec : Codec Message) (message : Message)
    (stream : List (Piece Message)) : Prop where
  fits : ∀ piece ∈ stream, piece.Fits library codec
  values : ∀ number,
    stream.filter (·.number? = some number)
      = (codec.pieces message).filter (·.number? = some number)

/-- A plain message behind its length is read back. -/
theorem Codec.nested_faithful (laws : library.Lawful) (lawful : codec.Lawful)
    : FaithfulOn codec.Plain (fun message => (codec.encode library message).bind library.join)
        (codec.nested library) := by
  intro message bytes plain wrote rest
  obtain ⟨body, encoded, joined⟩ := Option.bind_eq_some_iff.mp wrote
  obtain ⟨head, wroteLength, rfl⟩ := Option.map_eq_some_iff.mp joined
  rw [codec.encode_eq] at encoded
  have whole := readFields_whole laws lawful plain.pieces_fit encoded codec.base rest
  rw [codec.foldl_pieces, lawful.complete] at whole
  have counted := laws.uint32 wroteLength (body ++ rest)
  simp only [Codec.nested, Reads.andThen, List.append_assoc, counted, Option.bind_some]
  exact whole

-----------------------------------------------------------------------------------------
-- Kinds of fields
-----------------------------------------------------------------------------------------

/-- Reading a property on top of a message where it has its default assigns it. -/
@[simp]
theorem Field.foldl_single [DecidableEq Item] {number tag : Nat} {write : Item → Option Buffer}
    {read : Reads Item} {plain : Item → Prop} {default : Item} (property : Property Message Item)
    {start : Message} (unset : property.get start = default) (message : Message)
    : ((single number tag write read plain default property).occurrences message).foldl
        (single number tag write read plain default property).merge start
      = property.set start (property.get message) := by
  by_cases absent : property.get message = default
  · have nothing
        : (single number tag write read plain default property).occurrences message = [] :=
      if_neg (not_not.mpr absent)
    rw [nothing, absent, ← unset, property.set_get]
    rfl
  · have once
        : (single number tag write read plain default property).occurrences message
          = [property.get message] :=
      if_pos absent
    rw [once]
    rfl

/-- Pushing items appends them, by induction on the items. -/
theorem Property.foldl_push (property : Property Message (List Item)) (items : List Item)
    (start : Message)
    : items.foldl
        (fun message item => property.set message (property.get message ++ [item])) start
      = property.set start (property.get start ++ items) := by
  induction items generalizing start with
  | nil => rw [List.append_nil, property.set_get, List.foldl_nil]
  | cons item rest ih =>
      rw [List.foldl_cons, ih, property.get_set, property.set_set, List.append_assoc,
        List.singleton_append]

/-- Reading a list appends it. -/
@[simp]
theorem Field.foldl_repeated {number tag : Nat} {write : Item → Option Buffer}
    {read : Reads Item} {plain : Item → Prop} (property : Property Message (List Item))
    (start message : Message)
    : ((repeated number tag write read plain property).occurrences message).foldl
        (repeated number tag write read plain property).merge start
      = property.set start (property.get start ++ property.get message) :=
  property.foldl_push (property.get message) start

section

variable {number tag : Nat} {write : Item → Option Buffer} {read : Reads Item}
  {plain : Item → Prop}

@[simp]
theorem Field.single_number [DecidableEq Item] {default : Item}
    (property : Property Message Item)
    : (single number tag write read plain default property).number = number :=
  rfl

@[simp]
theorem Field.repeated_number (property : Property Message (List Item))
    : (repeated number tag write read plain property).number = number :=
  rfl

/-- A field is lawful when its tag carries its number and its values are read back. -/
theorem Field.single_lawful [DecidableEq Item] {default : Item}
    {property : Property Message Item} (numbered : tag >>> 3 = number)
    (faithful : FaithfulOn plain write read)
    : (single number tag write read plain default property).Lawful :=
  ⟨numbered, faithful⟩

theorem Field.repeated_lawful {property : Property Message (List Item)}
    (numbered : tag >>> 3 = number) (faithful : FaithfulOn plain write read)
    : (repeated number tag write read plain property).Lawful :=
  ⟨numbered, faithful⟩

end

end Protobuf
