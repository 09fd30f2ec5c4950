import SharedKernel.Protobuf.Stream

/-! The messages of the four internal gRPC contracts and their generated codecs. -/

namespace SharedKernel.Grpc

open Js Protobuf

-----------------------------------------------------------------------------------------
-- cortex.tenant, membership.proto
-----------------------------------------------------------------------------------------

structure CheckMembershipRequest where
  orgId : String
  userId : String
deriving DecidableEq

structure CheckMembershipResponse where
  isMember : Bool
  permissions : List String
  role : String
deriving DecidableEq

def createBaseCheckMembershipRequest : CheckMembershipRequest :=
  { orgId := "", userId := "" }

def createBaseCheckMembershipResponse : CheckMembershipResponse :=
  { isMember := false, permissions := [], role := "" }

def CheckMembershipRequest.codec (library : Library) : Codec CheckMembershipRequest where
  base := createBaseCheckMembershipRequest
  fields := [
    .string library 1 10 { get := orgId, set message orgId := { message with orgId } },
    .string library 2 18 { get := userId, set message userId := { message with userId } }]

def CheckMembershipResponse.codec (library : Library) : Codec CheckMembershipResponse where
  base := createBaseCheckMembershipResponse
  fields := [
    .bool library 1 8 { get := isMember, set message isMember := { message with isMember } },
    .strings library 2 18
      { get := permissions, set message permissions := { message with permissions } },
    .string library 3 26 { get := role, set message role := { message with role } }]

-----------------------------------------------------------------------------------------
-- cortex.auth, system-rbac.proto
-----------------------------------------------------------------------------------------

structure ResolveSystemPermissionsRequest where
  userId : String
deriving DecidableEq

structure ResolveSystemPermissionsResponse where
  permissions : List String
deriving DecidableEq

def createBaseResolveSystemPermissionsRequest : ResolveSystemPermissionsRequest :=
  { userId := "" }

def createBaseResolveSystemPermissionsResponse : ResolveSystemPermissionsResponse :=
  { permissions := [] }

def ResolveSystemPermissionsRequest.codec (library : Library)
    : Codec ResolveSystemPermissionsRequest where
  base := createBaseResolveSystemPermissionsRequest
  fields := [
    .string library 1 10 { get := userId, set message userId := { message with userId } }]

def ResolveSystemPermissionsResponse.codec (library : Library)
    : Codec ResolveSystemPermissionsResponse where
  base := createBaseResolveSystemPermissionsResponse
  fields := [
    .strings library 1 10
      { get := permissions, set message permissions := { message with permissions } }]

-----------------------------------------------------------------------------------------
-- cortex.auth, org-provisioning.proto
-----------------------------------------------------------------------------------------

structure ProvisionUserRequest where
  email : String
  idempotencyKey : String
deriving DecidableEq

structure ProvisionUserResponse where
  userId : String
  temporaryPassword : String
deriving DecidableEq

structure CancelProvisionedUserRequest where
  userId : String
deriving DecidableEq

structure CancelProvisionedUserResponse where
  cancelled : Bool
deriving DecidableEq

def createBaseProvisionUserRequest : ProvisionUserRequest :=
  { email := "", idempotencyKey := "" }

def createBaseProvisionUserResponse : ProvisionUserResponse :=
  { userId := "", temporaryPassword := "" }

def createBaseCancelProvisionedUserRequest : CancelProvisionedUserRequest :=
  { userId := "" }

def createBaseCancelProvisionedUserResponse : CancelProvisionedUserResponse :=
  { cancelled := false }

def ProvisionUserRequest.codec (library : Library) : Codec ProvisionUserRequest where
  base := createBaseProvisionUserRequest
  fields := [
    .string library 1 10 { get := email, set message email := { message with email } },
    .string library 2 18
      { get := idempotencyKey, set message idempotencyKey := { message with idempotencyKey } }]

def ProvisionUserResponse.codec (library : Library) : Codec ProvisionUserResponse where
  base := createBaseProvisionUserResponse
  fields := [
    .string library 1 10 { get := userId, set message userId := { message with userId } },
    .string library 2 18
      { get := temporaryPassword,
        set message temporaryPassword := { message with temporaryPassword } }]

def CancelProvisionedUserRequest.codec (library : Library)
    : Codec CancelProvisionedUserRequest where
  base := createBaseCancelProvisionedUserRequest
  fields := [
    .string library 1 10 { get := userId, set message userId := { message with userId } }]

def CancelProvisionedUserResponse.codec (library : Library)
    : Codec CancelProvisionedUserResponse where
  base := createBaseCancelProvisionedUserResponse
  fields := [
    .bool library 1 8
      { get := cancelled, set message cancelled := { message with cancelled } }]

-----------------------------------------------------------------------------------------
-- cortex.search, ai-query.proto
-----------------------------------------------------------------------------------------

structure RagQueryRequest where
  orgId : String
  question : String
  topK : Number
deriving DecidableEq

structure RagSource where
  knowledgeItemId : String
  title : String
deriving DecidableEq

structure RagChunk where
  knowledgeItemId : String
  titleSnapshot : String
  content : String
  score : Number
deriving DecidableEq

/-- The outcome is a number of the enumeration, or any other that a peer sent. -/
structure RagQueryResponse where
  outcome : Number
  summary : String
  sources : List RagSource
  chunks : List RagChunk
deriving DecidableEq

def createBaseRagQueryRequest : RagQueryRequest :=
  { orgId := "", question := "", topK := .finite 0 }

def createBaseRagQueryResponse : RagQueryResponse :=
  { outcome := .finite 0, summary := "", sources := [], chunks := [] }

def createBaseRagSource : RagSource :=
  { knowledgeItemId := "", title := "" }

def createBaseRagChunk : RagChunk :=
  { knowledgeItemId := "", titleSnapshot := "", content := "", score := .finite 0 }

def RagQueryRequest.codec (library : Library) : Codec RagQueryRequest where
  base := createBaseRagQueryRequest
  fields := [
    .string library 1 10 { get := orgId, set message orgId := { message with orgId } },
    .string library 2 18
      { get := question, set message question := { message with question } },
    .int32 library 3 24 { get := topK, set message topK := { message with topK } }]

def RagSource.codec (library : Library) : Codec RagSource where
  base := createBaseRagSource
  fields := [
    .string library 1 10
      { get := knowledgeItemId,
        set message knowledgeItemId := { message with knowledgeItemId } },
    .string library 2 18 { get := title, set message title := { message with title } }]

def RagChunk.codec (library : Library) : Codec RagChunk where
  base := createBaseRagChunk
  fields := [
    .string library 1 10
      { get := knowledgeItemId,
        set message knowledgeItemId := { message with knowledgeItemId } },
    .string library 2 18
      { get := titleSnapshot, set message titleSnapshot := { message with titleSnapshot } },
    .string library 3 26 { get := content, set message content := { message with content } },
    .double library 4 33 { get := score, set message score := { message with score } }]

def RagQueryResponse.codec (library : Library) : Codec RagQueryResponse where
  base := createBaseRagQueryResponse
  fields := [
    .int32 library 1 8 { get := outcome, set message outcome := { message with outcome } },
    .string library 2 18 { get := summary, set message summary := { message with summary } },
    .messages library (RagSource.codec library) 3 26
      { get := sources, set message sources := { message with sources } },
    .messages library (RagChunk.codec library) 4 34
      { get := chunks, set message chunks := { message with chunks } }]

-----------------------------------------------------------------------------------------
-- All messages
-----------------------------------------------------------------------------------------

/-- The messages that the contracts exchange. -/
inductive MessageType where
  | checkMembershipRequest
  | checkMembershipResponse
  | resolveSystemPermissionsRequest
  | resolveSystemPermissionsResponse
  | provisionUserRequest
  | provisionUserResponse
  | cancelProvisionedUserRequest
  | cancelProvisionedUserResponse
  | ragQueryRequest
  | ragQueryResponse
  | ragSource
  | ragChunk
deriving DecidableEq

namespace MessageType

abbrev Message : MessageType → Type
  | checkMembershipRequest => CheckMembershipRequest
  | checkMembershipResponse => CheckMembershipResponse
  | resolveSystemPermissionsRequest => ResolveSystemPermissionsRequest
  | resolveSystemPermissionsResponse => ResolveSystemPermissionsResponse
  | provisionUserRequest => ProvisionUserRequest
  | provisionUserResponse => ProvisionUserResponse
  | cancelProvisionedUserRequest => CancelProvisionedUserRequest
  | cancelProvisionedUserResponse => CancelProvisionedUserResponse
  | ragQueryRequest => RagQueryRequest
  | ragQueryResponse => RagQueryResponse
  | ragSource => RagSource
  | ragChunk => RagChunk

def codec (library : Library) : (type : MessageType) → Codec type.Message
  | checkMembershipRequest => CheckMembershipRequest.codec library
  | checkMembershipResponse => CheckMembershipResponse.codec library
  | resolveSystemPermissionsRequest => ResolveSystemPermissionsRequest.codec library
  | resolveSystemPermissionsResponse => ResolveSystemPermissionsResponse.codec library
  | provisionUserRequest => ProvisionUserRequest.codec library
  | provisionUserResponse => ProvisionUserResponse.codec library
  | cancelProvisionedUserRequest => CancelProvisionedUserRequest.codec library
  | cancelProvisionedUserResponse => CancelProvisionedUserResponse.codec library
  | ragQueryRequest => RagQueryRequest.codec library
  | ragQueryResponse => RagQueryResponse.codec library
  | ragSource => RagSource.codec library
  | ragChunk => RagChunk.codec library

end MessageType

variable {library : Library}

theorem CheckMembershipRequest.codec_lawful (laws : library.Lawful)
    : (codec library).Lawful where
  fields := by simp [codec, Field.single_lawful, laws.string]
  distinct := by simp [codec]
  apart := by simp [codec, Field.Apart, Field.single]
  complete := by simp [codec, Codec.mergeFrom, createBaseCheckMembershipRequest]

theorem CheckMembershipResponse.codec_lawful (laws : library.Lawful)
    : (codec library).Lawful where
  fields := by simp [codec, Field.single_lawful, Field.repeated_lawful, laws.bool.on, laws.string]
  distinct := by simp [codec]
  apart := by simp [codec, Field.Apart, Field.single, Field.repeated]
  complete := by simp [codec, Codec.mergeFrom, createBaseCheckMembershipResponse]

theorem ResolveSystemPermissionsRequest.codec_lawful (laws : library.Lawful)
    : (codec library).Lawful where
  fields := by simp [codec, Field.single_lawful, laws.string]
  distinct := by simp [codec]
  apart := by simp [codec, Field.Apart, Field.single]
  complete := by simp [codec, Codec.mergeFrom, createBaseResolveSystemPermissionsRequest]

theorem ResolveSystemPermissionsResponse.codec_lawful (laws : library.Lawful)
    : (codec library).Lawful where
  fields := by simp [codec, Field.repeated_lawful, laws.string]
  distinct := by simp [codec]
  apart := by simp [codec, Field.Apart, Field.repeated]
  complete := by simp [codec, Codec.mergeFrom, createBaseResolveSystemPermissionsResponse]

theorem ProvisionUserRequest.codec_lawful (laws : library.Lawful)
    : (codec library).Lawful where
  fields := by simp [codec, Field.single_lawful, laws.string]
  distinct := by simp [codec]
  apart := by simp [codec, Field.Apart, Field.single]
  complete := by simp [codec, Codec.mergeFrom, createBaseProvisionUserRequest]

theorem ProvisionUserResponse.codec_lawful (laws : library.Lawful)
    : (codec library).Lawful where
  fields := by simp [codec, Field.single_lawful, laws.string]
  distinct := by simp [codec]
  apart := by simp [codec, Field.Apart, Field.single]
  complete := by simp [codec, Codec.mergeFrom, createBaseProvisionUserResponse]

theorem CancelProvisionedUserRequest.codec_lawful (laws : library.Lawful)
    : (codec library).Lawful where
  fields := by simp [codec, Field.single_lawful, laws.string]
  distinct := by simp [codec]
  apart := by simp [codec, Field.Apart, Field.single]
  complete := by simp [codec, Codec.mergeFrom, createBaseCancelProvisionedUserRequest]

theorem CancelProvisionedUserResponse.codec_lawful (laws : library.Lawful)
    : (codec library).Lawful where
  fields := by simp [codec, Field.single_lawful, laws.bool.on]
  distinct := by simp [codec]
  apart := by simp [codec, Field.Apart, Field.single]
  complete := by simp [codec, Codec.mergeFrom, createBaseCancelProvisionedUserResponse]

theorem RagQueryRequest.codec_lawful (laws : library.Lawful)
    : (codec library).Lawful where
  fields := by simp [codec, Field.single_lawful, laws.string, laws.int32.on]
  distinct := by simp [codec]
  apart := by simp [codec, Field.Apart, Field.single]
  complete := by simp [codec, Codec.mergeFrom, createBaseRagQueryRequest]

theorem RagSource.codec_lawful (laws : library.Lawful)
    : (codec library).Lawful where
  fields := by simp [codec, Field.single_lawful, laws.string]
  distinct := by simp [codec]
  apart := by simp [codec, Field.Apart, Field.single]
  complete := by simp [codec, Codec.mergeFrom, createBaseRagSource]

theorem RagChunk.codec_lawful (laws : library.Lawful)
    : (codec library).Lawful where
  fields := by simp [codec, Field.single_lawful, laws.string, laws.double.on]
  distinct := by simp [codec]
  apart := by simp [codec, Field.Apart, Field.single]
  complete := by simp [codec, Codec.mergeFrom, createBaseRagChunk]

theorem RagQueryResponse.codec_lawful (laws : library.Lawful)
    : (codec library).Lawful where
  fields := by
    have sources := Codec.nested_faithful laws (RagSource.codec_lawful laws)
    have chunks := Codec.nested_faithful laws (RagChunk.codec_lawful laws)
    simp [codec, Field.single_lawful, Field.repeated_lawful, laws.string, laws.int32.on, sources,
      chunks]
  distinct := by simp [codec]
  apart := by simp [codec, Field.Apart, Field.single, Field.repeated]
  complete := by simp [codec, Codec.mergeFrom, createBaseRagQueryResponse]

/-- Every message of the contracts has a lawful codec. -/
theorem MessageType.codec_lawful (laws : library.Lawful)
    : (type : MessageType) → (type.codec library).Lawful
  | checkMembershipRequest => CheckMembershipRequest.codec_lawful laws
  | checkMembershipResponse => CheckMembershipResponse.codec_lawful laws
  | resolveSystemPermissionsRequest => ResolveSystemPermissionsRequest.codec_lawful laws
  | resolveSystemPermissionsResponse => ResolveSystemPermissionsResponse.codec_lawful laws
  | provisionUserRequest => ProvisionUserRequest.codec_lawful laws
  | provisionUserResponse => ProvisionUserResponse.codec_lawful laws
  | cancelProvisionedUserRequest => CancelProvisionedUserRequest.codec_lawful laws
  | cancelProvisionedUserResponse => CancelProvisionedUserResponse.codec_lawful laws
  | ragQueryRequest => RagQueryRequest.codec_lawful laws
  | ragQueryResponse => RagQueryResponse.codec_lawful laws
  | ragSource => RagSource.codec_lawful laws
  | ragChunk => RagChunk.codec_lawful laws

end SharedKernel.Grpc
