import SharedKernel.Js.Buffer
import SharedKernel.Js.Number
import SharedKernel.Js.Thrown

/-! The structural subset of Kafka that the consumers and the producer see: messages with
their headers, offsets as decimal text, and the dead-letter record of a message.
-/

namespace SharedKernel.Messaging

open Js

/-- A header value is a buffer or a string. -/
inductive HeaderPart where
  | buffer (bytes : Buffer)
  | text (value : String)

/-- A header as kafkajs hands it back. -/
inductive HeaderValue where
  | one (part : HeaderPart)
  | many (parts : List HeaderPart)
  | undefined

/-- A header map: its names are distinct. -/
abbrev Headers := List (String × HeaderValue)

/-- The header of a name. -/
def Headers.get? (headers : Headers) (name : String) : Option HeaderValue :=
  (headers.find? (fun entry => entry.1 = name)).map Prod.snd

/-- Normalize a header to a plain string; an array stands for its first element. -/
def headerToString : HeaderValue → Option String
  | .one part | .many (part :: _) =>
      match part with
      | .buffer bytes => some bytes.toText
      | .text value => some value
  | .many [] | .undefined => none

/-- The text of a header, if there is one. -/
def Headers.text? (headers : Headers) (name : String) : Option String :=
  (headers.get? name).bind headerToString

/-- A record of a topic. -/
structure KafkaRecord where
  key : Option Buffer
  value : Option Buffer
  headers : Headers

/-- A message as a consumer receives it; absent headers are empty. -/
structure MinimalKafkaMessage where
  key : Option Buffer
  value : Option Buffer
  offset : String
  headers : Headers

structure EachMessagePayload where
  topic : String
  partition : Nat
  message : MinimalKafkaMessage

/-- The message of a record at an offset. -/
def KafkaRecord.message (record : KafkaRecord) (offset : Nat) : MinimalKafkaMessage where
  key := record.key
  value := record.value
  offset := offset.repr
  headers := record.headers

/-- The offset that a consumer commits after a message: `String(Number(message.offset) + 1)`. -/
def nextOffset (offset : String) : String :=
  ((Number.ofText offset).add (.ofNat 1)).toText

inductive DeadLetterReason where
  | poisonPill
  | handlerError
deriving DecidableEq

/-- Everything a dead-letter producer is given about a message. -/
structure DeadLetterInput where
  topic : String
  key : Option Buffer
  value : Option Buffer
  reason : DeadLetterReason
  error : String
  partition : Nat
  offset : String

/-- The dead-letter topic of a source topic. -/
def deadLetterTopic (topic : String) : String :=
  topic ++ ".DLQ"

inductive LogLevel where
  | error
  | warn
  | info
deriving DecidableEq

end SharedKernel.Messaging
