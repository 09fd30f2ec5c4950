import SharedKernel.Grpc.Messages
import SharedKernel.Protobuf.Binary
import SharedKernel.Protobuf.Evolution

/-! What is written of a message is read back by any peer: in whatever order the fields come,
with fields that the reader does not know, by an older and by a newer version.
-/

namespace SharedKernel.Grpc

open Js Protobuf

variable {library : Library}

-----------------------------------------------------------------------------------------
-- Any order of fields
-----------------------------------------------------------------------------------------

/-- A membership request with one more text. -/
abbrev WiderRequest := CheckMembershipRequest × String

def WiderRequest.view : Property WiderRequest CheckMembershipRequest where
  get := Prod.fst
  set message request := (request, message.2)

def WiderRequest.changes : List (Change CheckMembershipRequest WiderRequest) :=
  .added (.string binary 3 26 { get := Prod.snd, set message text := (message.1, text) })
    :: (CheckMembershipRequest.codec binary).fields.map .kept

def WiderRequest.codec : Codec WiderRequest where
  base := (createBaseCheckMembershipRequest, "")
  fields := changes.map (Change.field view)

theorem WiderRequest.codec_lawful : codec.Lawful where
  fields := by
    have text := binary_lawful.string
    simp [codec, changes, CheckMembershipRequest.codec, Change.field, Field.within_lawful,
      Field.single_lawful, text]
  distinct := by simp [codec, changes, CheckMembershipRequest.codec, Change.field, Field.within]
  apart := by
    simp [codec, changes, CheckMembershipRequest.codec, Change.field, Field.within,
      Field.Apart, Field.single, view]
  complete message := by
    obtain ⟨⟨orgId, userId⟩, text⟩ := message
    by_cases org : orgId = "" <;> by_cases user : userId = "" <;> by_cases more : text = "" <;>
      simp [codec, changes, CheckMembershipRequest.codec, Change.field, Field.within,
        Codec.mergeFrom, Field.single, view, createBaseCheckMembershipRequest, org, user, more]

end SharedKernel.Grpc
