import SharedKernel.Protobuf.Library

/-! Messages as generated code writes and reads them: one list of fields drives both, a field
at its default is left out, and a field that no case takes is skipped.
-/

namespace Protobuf

open Js

/-- One field of a message: what `encode` writes of it, and the case that reads it back.
`plain` tells the values that come back as they were.
-/
structure Field (Message : Type) where
  number : Nat
  tag : Nat
  Value : Type
  plain : Value → Prop
  occurrences : Message → List Value
  write : Value → Option Buffer
  read : Reads Value
  merge : Message → Value → Message

/-- The fields of a message in the order of their numbers, and the message without any. -/
structure Codec (Message : Type) where
  base : Message
  fields : List (Field Message)

variable {Message Inner Item : Type}

-----------------------------------------------------------------------------------------
-- Kinds of fields
-----------------------------------------------------------------------------------------

/-- A property of a message: it can be read and assigned. -/
structure Property (Message Item : Type) where
  get : Message → Item
  set : Message → Item → Message
  get_set : ∀ message item, get (set message item) = item := by intros; rfl
  set_get : ∀ message, set message (get message) = message := by intros; rfl
  set_set : ∀ message first second,
    set (set message first) second = set message second := by intros; rfl

/-- A field written unless it has its default; the last value read is kept. -/
def Field.single [DecidableEq Item] (number tag : Nat) (write : Item → Option Buffer)
    (read : Reads Item) (plain : Item → Prop) (default : Item) (property : Property Message Item)
    : Field Message where
  number
  tag
  Value := Item
  plain
  occurrences message :=
    if property.get message ≠ default then [property.get message] else []
  write
  read
  merge := property.set

/-- A field written once for every item; what is read is pushed at the end. -/
def Field.repeated (number tag : Nat) (write : Item → Option Buffer) (read : Reads Item)
    (plain : Item → Prop) (property : Property Message (List Item))
    : Field Message where
  number
  tag
  Value := Item
  plain
  occurrences := property.get
  write
  read
  merge message item := property.set message (property.get message ++ [item])

@[simp]
def Field.string (library : Library) (number tag : Nat) (property : Property Message String)
    : Field Message :=
  .single number tag library.string library.readString Unmarked "" property

@[simp]
def Field.bool (library : Library) (number tag : Nat) (property : Property Message Bool)
    : Field Message :=
  .single number tag library.bool library.readBool (fun _ => True) false property

@[simp]
def Field.int32 (library : Library) (number tag : Nat) (property : Property Message Number)
    : Field Message :=
  .single number tag library.int32 library.readInt32 (fun _ => True) (.finite 0) property

@[simp]
def Field.double (library : Library) (number tag : Nat) (property : Property Message Number)
    : Field Message :=
  .single number tag library.double library.readDouble (fun _ => True) (.finite 0) property

@[simp]
def Field.strings (library : Library) (number tag : Nat)
    (property : Property Message (List String))
    : Field Message :=
  .repeated number tag library.string library.readString Unmarked property

-----------------------------------------------------------------------------------------
-- encode
-----------------------------------------------------------------------------------------

/-- `writer.uint32(tag)`, then the value. -/
def Field.encode (library : Library) (field : Field Message) (occurrence : field.Value)
    : Option Buffer := do
  let head ← library.uint32 field.tag
  let payload ← field.write occurrence
  return head ++ payload

/-- The chunks of a list of writes, one behind the other; the first that throws ends it. -/
def concat : List (Option Buffer) → Option Buffer
  | [] => some []
  | write :: rest => do
      let bytes ← write
      let others ← concat rest
      return bytes ++ others

/-- `encode(message).finish()`. -/
def Codec.encode (library : Library) (codec : Codec Message) (message : Message)
    : Option Buffer :=
  concat (codec.fields.flatMap (fun field =>
    (field.occurrences message).map (field.encode library)))

-----------------------------------------------------------------------------------------
-- decode
-----------------------------------------------------------------------------------------

/-- The case that takes a tag: the field number selects it, and it refuses other tags. -/
def Codec.known (codec : Codec Message) (tag : Nat) : Option (Field Message) :=
  (codec.fields.find? (fun field => field.number = tag >>> 3)).filter (·.tag = tag)

/-- The loop of `decode` while `length` bytes are left of the message. An end of a group or a
zero tag ends it early.
-/
def Codec.readFields (library : Library) (codec : Codec Message) (message : Message)
    (length : Nat) (bytes : Buffer)
    : Option (Message × Buffer) :=
  if _positive : 0 < length then
    match _head : library.readUint32.run bytes with
    | none => none
    | some (tag, payload) =>
        match codec.known tag with
        | some field =>
            match _body : field.read.run payload with
            | none => none
            | some (value, rest) =>
                readFields library codec (field.merge message value)
                  (length - (bytes.length - rest.length)) rest
        | none =>
            if tag &&& 7 = 4 ∨ tag = 0 then some (message, payload)
            else
              match _body : (library.skip (tag &&& 7)).run payload with
              | none => none
              | some ((), rest) =>
                  readFields library codec message (length - (bytes.length - rest.length)) rest
  else some (message, bytes)
termination_by length
decreasing_by
  all_goals
    have first := library.readUint32.shorter _head
    have second := Reads.shorter _ _body
    omega

/-- `decode(bytes)`. -/
def Codec.decode (library : Library) (codec : Codec Message) (bytes : Buffer)
    : Option Message :=
  (codec.readFields library codec.base bytes.length bytes).map Prod.fst

/-- A turn of the loop that reads a field of its own. -/
theorem Codec.readFields_known {library : Library} {codec : Codec Message} {message : Message}
    {length tag : Nat} {bytes payload rest : Buffer} {field : Field Message}
    {value : field.Value} (positive : 0 < length)
    (head : library.readUint32.run bytes = some (tag, payload))
    (known : codec.known tag = some field) (body : field.read.run payload = some (value, rest))
    : codec.readFields library message length bytes
      = codec.readFields library (field.merge message value)
          (length - (bytes.length - rest.length)) rest := by
  rw [Codec.readFields, dif_pos positive]
  split
  · simp_all
  · rename_i headed
    rw [head] at headed
    cases headed
    split
    · rename_i selected
      rw [known] at selected
      cases selected
      split
      · simp_all
      · rename_i read
        rw [body] at read
        cases read
        rfl
    · simp_all

/-- A turn of the loop that skips a field. -/
theorem Codec.readFields_unknown {library : Library} {codec : Codec Message}
    {message : Message} {length tag : Nat} {bytes payload rest : Buffer}
    (positive : 0 < length) (head : library.readUint32.run bytes = some (tag, payload))
    (unknown : codec.known tag = none) (goes : ¬(tag &&& 7 = 4 ∨ tag = 0))
    (body : (library.skip (tag &&& 7)).run payload = some ((), rest))
    : codec.readFields library message length bytes
      = codec.readFields library message (length - (bytes.length - rest.length)) rest := by
  rw [Codec.readFields, dif_pos positive]
  split
  · simp_all
  · rename_i headed
    rw [head] at headed
    cases headed
    split
    · simp_all
    · rw [if_neg goes]
      split
      · simp_all
      · rename_i read
        rw [body] at read
        cases read
        rfl

/-- The loop gives back no more bytes than it was given, by induction on its run. -/
theorem Codec.readFields_length_le (library : Library) (codec : Codec Message)
    {start final : Message} {length : Nat} {bytes rest : Buffer}
    (read : codec.readFields library start length bytes = some (final, rest))
    : rest.length ≤ bytes.length := by
  fun_induction Codec.readFields library codec start length bytes with
  | case1 => cases read
  | case2 => cases read
  | case3 message length bytes positive tag payload head field known value left body ih =>
      have first := library.readUint32.shorter head
      have second := field.read.shorter body
      have third := ih read
      omega
  | case4 message length bytes positive tag payload head known ends =>
      have first := library.readUint32.shorter head
      cases read
      exact first.le
  | case5 => cases read
  | case6 message length bytes positive tag payload head known goes left body ih =>
      have first := library.readUint32.shorter head
      have second := (library.skip (tag &&& 7)).shorter body
      have third := ih read
      omega
  | case7 => cases read; exact le_rfl

/-- `decode(reader, reader.uint32())`. -/
def Codec.nested (library : Library) (codec : Codec Message) : Reads Message :=
  library.readUint32.andThen (codec.readFields library codec.base)
    (codec.readFields_length_le library)

/-- All values of the message come back as they were. -/
def Codec.Plain (codec : Codec Message) (message : Message) : Prop :=
  ∀ field ∈ codec.fields, ∀ value ∈ field.occurrences message, field.plain value

/-- A repeated message is written behind its length. -/
@[simp]
def Field.messages (library : Library) (codec : Codec Inner) (number tag : Nat)
    (property : Property Message (List Inner))
    : Field Message :=
  .repeated number tag (fun item => (codec.encode library item).bind library.join)
    (codec.nested library) codec.Plain property

end Protobuf
