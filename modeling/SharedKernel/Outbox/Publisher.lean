import SharedKernel.Foundation.Run
import SharedKernel.Js.Date
import SharedKernel.Messaging.CloudEvent

/-! The polling publisher of the transactional outbox: one tick claims a batch of rows,
publishes each one and marks it processed or failed.
-/

namespace SharedKernel.Outbox

open Foundation Js Messaging

/-- One row claimed for publishing. -/
structure ClaimedOutboxEvent where
  id : String
  aggregateType : String
  aggregateId : String
  eventType : String
  orgId : String
  payload : Json
  attempts : Int
  createdAt : Date
  traceparent : Option String

/-- The calls a tick makes on the store, the publisher, the metrics hook and the logger. -/
inductive OutboxOp where
  | claimPendingBatch (limit : Int)
  | publish (event : CloudEvent)
  | markProcessed (id : String)
  | markFailed (id : String) (currentAttempts : Int) (error : String) (maxAttempts : Int)
  | onDeadLetter (eventType : String)
  | warn (message eventId : String) (attempts : Int) (err : Thrown)

/-- Every call may reject, the logger's excepted. -/
abbrev OutboxOp.Reply : OutboxOp → Type
  | .claimPendingBatch _ => Except Thrown (List ClaimedOutboxEvent)
  | .publish _ | .markProcessed _ | .markFailed _ _ _ _ | .onDeadLetter _ =>
      Except Thrown Unit
  | .warn _ _ _ _ => Unit

/-- The effects of the polling publisher. -/
abbrev OutboxEffects : Signature where
  Op := OutboxOp
  Reply := OutboxOp.Reply

abbrev OutboxProgram (α : Type) := Program OutboxEffects Thrown α
abbrev OutboxEvent := Event OutboxEffects

/-- Await one call; a rejection throws. -/
def call (op : OutboxOp) : OutboxProgram op.Reply :=
  Program.perform (F := OutboxEffects) op

/-- The publisher's options; `onDeadLetter` tells whether the metrics hook is wired. -/
structure OutboxPublisherOptions where
  sourcePrefix : String
  maxAttempts : Int
  batchSize : Int
  onDeadLetter : Bool

structure OutboxPollResult where
  claimed : Nat
  published : Nat
  failed : Nat
  deadLettered : Nat
deriving DecidableEq

variable (opts : OutboxPublisherOptions)

/-- The public envelope of an outbox row; an invalid creation date throws. -/
def toCloudEvent (event : ClaimedOutboxEvent) : Except Thrown CloudEvent :=
  event.createdAt.toISOString.map (fun time =>
    {
      specversion := "1.0"
      id := event.id
      source := opts.sourcePrefix ++ "/" ++ event.aggregateType
      type := event.eventType
      time
      subject := some event.aggregateId
      datacontenttype := some "application/json"
      data := event.payload
      orgid := event.orgId
      partitionkey := event.aggregateId
      traceparent := event.traceparent
    })

/-- The body of the per-row `try`: map, publish, mark processed. -/
def publishAndMark (event : ClaimedOutboxEvent) : OutboxProgram Unit := do
  let envelope ← Program.settle (toCloudEvent opts event)
  Program.settle (← call (.publish envelope))
  Program.settle (← call (.markProcessed event.id))

/-- The retry budget is exhausted by this failure. -/
def isNowDead (event : ClaimedOutboxEvent) : Bool :=
  event.attempts + 1 ≥ opts.maxAttempts

/-- The per-row `catch`: mark the row failed, count it, and report a dead letter. -/
def recordFailure (event : ClaimedOutboxEvent) (result : OutboxPollResult) (err : Thrown)
    : OutboxProgram OutboxPollResult := do
  let error ← Program.settle err.toText
  Program.settle
    (← call (.markFailed event.id event.attempts error opts.maxAttempts))
  let result := { result with failed := result.failed + 1 }
  if isNowDead opts event then
    let result := { result with deadLettered := result.deadLettered + 1 }
    if opts.onDeadLetter then
      Program.settle (← call (.onDeadLetter event.eventType))
    let _ ← call
      (.warn "Outbox event exhausted retry budget — permanently FAILED_DLQ, needs manual triage"
        event.id (event.attempts + 1) err)
    return result
  else
    let _ ← call
      (.warn "Failed to publish outbox event — will retry" event.id (event.attempts + 1) err)
    return result

/-- One row of the batch. -/
def publishRow (event : ClaimedOutboxEvent) (result : OutboxPollResult)
    : OutboxProgram OutboxPollResult :=
  tryCatch
    (do
      publishAndMark opts event
      return { result with published := result.published + 1 })
    (recordFailure opts event result)

/-- The loop over the claimed batch. -/
def publishRows : List ClaimedOutboxEvent → OutboxPollResult → OutboxProgram OutboxPollResult
  | [], result => return result
  | event :: rest, result => do
      let result ← publishRow opts event result
      publishRows rest result

/-- One tick of the polling publisher. -/
def pollOnce : OutboxProgram OutboxPollResult := do
  let events ← Program.settle (← call (.claimPendingBatch opts.batchSize))
  let result : OutboxPollResult :=
    { claimed := events.length, published := 0, failed := 0, deadLettered := 0 }
  if events.length = 0 then return result
  else publishRows opts events result

end SharedKernel.Outbox
