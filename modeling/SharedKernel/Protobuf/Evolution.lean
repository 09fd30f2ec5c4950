import SharedKernel.Protobuf.Stream

/-! Two versions of a message: the newer has the fields of the older and some more. Either
side reads what the other wrote.
-/

namespace Protobuf

open Js

variable {Older Newer : Type} {library : Library} {older : Codec Older} {newer : Codec Newer}
  {view : Property Newer Older}

-----------------------------------------------------------------------------------------
-- Changes
-----------------------------------------------------------------------------------------

/-- A field of the older version, as the newer one has it. -/
def Field.within (view : Property Newer Older) (field : Field Older) : Field Newer where
  number := field.number
  tag := field.tag
  Value := field.Value
  plain := field.plain
  occurrences message := field.occurrences (view.get message)
  write := field.write
  read := field.read
  merge message value := view.set message (field.merge (view.get message) value)

theorem Field.within_lawful {field : Field Older} (lawful : field.Lawful)
    : (field.within view).Lawful :=
  ⟨lawful.numbered, lawful.faithful⟩

/-- A field of the newer version: kept from the older one, or added. -/
inductive Change (Older Newer : Type) where
  | kept (field : Field Older)
  | added (field : Field Newer)

namespace Change

def field (view : Property Newer Older) : Change Older Newer → Field Newer
  | kept field => field.within view
  | added field => field

def older? : Change Older Newer → Option (Field Older)
  | kept field => some field
  | added _ => none

/-- What the older version makes of the field. -/
def pieces (view : Property Newer Older) (message : Newer)
    : Change Older Newer → List (Piece Older)
  | kept field => (field.occurrences (view.get message)).map (.known field)
  | added field =>
      (field.occurrences message).map (fun value =>
        .unknown field.tag ((field.write value).getD []))

end Change

/-- The newer version keeps every field of the older one where it stands, and adds fields that
the older one has no case for and its reader skips.
-/
structure Codec.Extends (library : Library) (newer : Codec Newer) (older : Codec Older)
    (view : Property Newer Older) (changes : List (Change Older Newer)) : Prop where
  newerFields : newer.fields = changes.map (Change.field view)
  olderFields : older.fields = changes.filterMap Change.older?
  base : view.get newer.base = older.base
  unknown : ∀ field, .added field ∈ changes →
    older.known field.tag = none ∧ ¬(field.tag &&& 7 = 4 ∨ field.tag = 0)
  skipped : ∀ field, .added field ∈ changes → ∀ value bytes, field.write value = some bytes →
    library.Skips (field.tag &&& 7) bytes

-----------------------------------------------------------------------------------------
-- Concatenation
-----------------------------------------------------------------------------------------

theorem concat_append_eq_some {left right : List (Option Buffer)} {bytes : Buffer}
    : concat (left ++ right) = some bytes
      ↔ ∃ first second,
          concat left = some first ∧ concat right = some second ∧ first ++ second = bytes := by
  induction left generalizing bytes with
  | nil => simp [concat]
  | cons write rest ih =>
      simp only [List.cons_append, concat, Option.bind_eq_bind, Option.bind_eq_some_iff, ih,
        Option.pure_def, Option.some.injEq]
      constructor
      · rintro ⟨chunk, wrote, _, ⟨first, second, before, after, rfl⟩, rfl⟩
        exact ⟨_, second, ⟨chunk, wrote, first, before, rfl⟩, after, List.append_assoc ..⟩
      · rintro ⟨_, second, ⟨chunk, wrote, first, before, rfl⟩, after, rfl⟩
        exact ⟨chunk, wrote, _, ⟨first, second, before, after, rfl⟩,
          (List.append_assoc ..).symm⟩

/-- What was written as a whole was written piece by piece. -/
theorem exists_of_concat {writes : List (Option Buffer)} {bytes : Buffer}
    (wrote : concat writes = some bytes) {write : Option Buffer} (member : write ∈ writes)
    : ∃ chunk, write = some chunk := by
  obtain ⟨before, after, rfl⟩ := List.append_of_mem member
  obtain ⟨first, second, -, later, -⟩ := concat_append_eq_some.mp wrote
  rw [concat, Option.bind_eq_bind, Option.bind_eq_some_iff] at later
  obtain ⟨chunk, wrote, -⟩ := later
  exact ⟨chunk, wrote⟩

/-- The older version meets fields of its own and fields that it skips. -/
theorem Codec.Extends.fits {changes : List (Change Older Newer)}
    (extended : newer.Extends library older view changes) {message : Newer} {bytes : Buffer}
    (plain : older.Plain (view.get message))
    (encoded : newer.encode library message = some bytes)
    : ∀ piece ∈ changes.flatMap (Change.pieces view message), piece.Fits library older := by
  intro piece member
  obtain ⟨change, changed, written⟩ := List.mem_flatMap.mp member
  cases change with
  | kept field =>
      obtain ⟨value, occurs, rfl⟩ := List.mem_map.mp written
      have own : field ∈ older.fields := by
        rw [extended.olderFields]
        exact List.mem_filterMap.mpr ⟨_, changed, rfl⟩
      exact ⟨own, plain field own value occurs⟩
  | added field =>
      obtain ⟨value, occurs, rfl⟩ := List.mem_map.mp written
      have own : field ∈ newer.fields := by
        rw [extended.newerFields]
        exact List.mem_map.mpr ⟨_, changed, rfl⟩
      obtain ⟨chunk, wrote⟩ := exists_of_concat encoded
        (List.mem_flatMap.mpr ⟨field, own, List.mem_map_of_mem occurs⟩)
      obtain ⟨head, -, payload, wrote, -⟩ : ∃ head,
          library.uint32 field.tag = some head ∧ ∃ payload,
            field.write value = some payload ∧ head ++ payload = chunk := by
        simpa [Field.encode, Option.bind_eq_some_iff] using wrote
      have unknown := extended.unknown field changed
      have skipped := extended.skipped field changed value payload wrote
      rw [wrote]
      exact ⟨unknown.1, unknown.2, skipped⟩

/-- A piece of the older version, as the newer one reads it. -/
def Piece.within (view : Property Newer Older) : Piece Older → Piece Newer
  | known field value => .known (field.within view) value
  | unknown tag payload => .unknown tag payload

end Protobuf
