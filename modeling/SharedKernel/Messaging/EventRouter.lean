import SharedKernel.Foundation.Run
import SharedKernel.Messaging.Kafka
import SharedKernel.Tracing.TraceContext

/-! Dispatch of an integration event to the one handler registered for its type, over the
calls that the consumption loop makes.
-/

namespace SharedKernel.Messaging

open Foundation Js Tracing

/-- The calls of the consumption loop. A handler is called with the event under the trace
context that is active then.
-/
inductive ConsumerOp where
  | commitOffsets (topic : String) (partition : Nat) (offset : String)
  | deadLetter (input : DeadLetterInput)
  | handle (eventType : String) (event : Json) (context : TraceContext)
  | onRetry (eventType : Value)
  | sleep (ms : Number)
  | randomHex (bytes : Nat)
  | log (level : LogLevel) (message : String)

/-- Every call may reject, the logger's and the random source's excepted. -/
abbrev ConsumerOp.Reply : ConsumerOp → Type
  | .commitOffsets _ _ _ | .deadLetter _ | .handle _ _ _ | .onRetry _ | .sleep _ =>
      Except Thrown Unit
  | .randomHex _ => String
  | .log _ _ => Unit

/-- The effects of the consumption loop. -/
abbrev ConsumerEffects : Signature where
  Op := ConsumerOp
  Reply := ConsumerOp.Reply

abbrev ConsumerProgram (α : Type) := Program ConsumerEffects Thrown α
abbrev ConsumerEvent := Event ConsumerEffects

/-- Await one call; a rejection throws. -/
def callConsumer (op : ConsumerOp) : ConsumerProgram op.Reply :=
  Program.perform (F := ConsumerEffects) op

/-- The event types that have a handler, each at most once. -/
structure EventRouter where
  handlers : List String
  distinct : handlers.Nodup

namespace EventRouter

/-- Register the handler of an event type. -/
def register (self : EventRouter) (eventType : String) : Except Thrown EventRouter :=
  if registered : eventType ∈ self.handlers then
    .error (.error .error
      ("Duplicate handler for event type \"" ++ eventType ++ "\". One handler per type per "
        ++ "consumer group — fan-out to another concern via a separate consumer group."))
  else
    .ok
      {
        handlers := self.handlers ++ [eventType]
        distinct := by
          rw [List.nodup_append]
          refine ⟨self.distinct, by simp, ?_⟩
          rintro other member _ same rfl
          exact registered (List.mem_singleton.mp same ▸ member)
      }

/-- The handler registered under a type; only a string can be one. -/
def get? (self : EventRouter) (type : Value) : Option String :=
  match type with
  | some (.str eventType) => if eventType ∈ self.handlers then some eventType else none
  | _ => none

/-- Give an event to the handler of its type; an event without one is skipped. -/
def route (self : EventRouter) (context : TraceContext) (event : Json)
    : ConsumerProgram Unit := do
  match self.get? (event.field? "type") with
  | none => callConsumer (.log .warn "No handler registered — skipping integration event")
  | some eventType =>
      let _ ← callConsumer (.log .info ("Routing " ++ eventType ++ "..."))
      Program.settle (← callConsumer (.handle eventType event context))
      callConsumer (.log .info ("Routed " ++ eventType))

end EventRouter
end SharedKernel.Messaging
