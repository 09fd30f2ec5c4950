import SharedKernel.Foundation.Run
import SharedKernel.Js.Json
import SharedKernel.Js.Thrown

/-! The command bus: a fixed pipeline of logging, retry, transaction and handler, and sagas
that compensate instead of rolling back.
-/

namespace SharedKernel.Cqrs

open Foundation Js

/-- A command: its name and the rest of its fields. -/
structure Command where
  name : String
  input : Json

/-- Data description of a compensation step. -/
structure CompensationAction where
  type : String
  payload : Json

inductive LogLevel where
  | debug
  | info
  | warn
  | error
deriving DecidableEq

/-- What a transactional handler may do with its transaction: read or write. -/
inductive TxOp where
  | read (query : Json)
  | write (statement : Json)

/-- The effects of a handler inside its transaction. -/
abbrev TxEffects : Signature where
  Op := TxOp
  Reply := fun _ => Except Thrown Value

abbrev TxProgram (α : Type) := Program TxEffects Thrown α

/-- The calls of the bus on the database, its handlers' hooks and undo closures, the
compensation store, the metrics and the logger, the clock and the random source.
-/
inductive BusOp where
  | begin
  | statement (op : TxOp)
  | commit (result : Value)
  | rollback (error : Thrown)
  | afterCommit (command : Command) (result : Value)
  | recordObservation (error : Thrown) (retried : Bool)
  | random
  | sleep (delay : Number)
  | undo (closure : Nat)
  | recordFailed (sagaCommand : String) (action : CompensationAction) (error : Thrown)
  | log (level : LogLevel) (message : String) (err : Option Thrown)

/-- The database, the hooks, the undo closures and the store may reject. -/
abbrev BusOp.Reply : BusOp → Type
  | .statement _ => Except Thrown Value
  | .begin | .commit _ | .afterCommit _ _ | .undo _ | .recordFailed _ _ _ => Except Thrown Unit
  | .random => Number
  | .rollback _ | .recordObservation _ _ | .sleep _ | .log _ _ _ => Unit

/-- The effects of the command bus. -/
abbrev BusEffects : Signature where
  Op := BusOp
  Reply := BusOp.Reply

abbrev BusProgram (α : Type) := Program BusEffects Thrown α
abbrev BusEvent := Event BusEffects

/-- Await one call. -/
def call (op : BusOp) : BusProgram op.Reply :=
  Program.perform (F := BusEffects) op

/-- Writes inside one database, atomically; `afterCommit` tells whether the hook exists. -/
structure TransactionalHandler where
  execute : Command → TxProgram Value
  afterCommit : Bool

/-- What a saga handler may do with its context. An undo closure is known by its number. -/
inductive SagaOp where
  | dispatch (inner : Command)
  | onCompensate (action : CompensationAction) (undo : Nat)

/-- A dispatch may reject; a registration returns nothing. -/
abbrev SagaOp.Reply : SagaOp → Type
  | .dispatch _ => Except Thrown Value
  | .onCompensate _ _ => Unit

/-- The effects of a saga handler. -/
abbrev SagaEffects : Signature where
  Op := SagaOp
  Reply := SagaOp.Reply

abbrev SagaProgram (α : Type) := Program SagaEffects Thrown α

/-- Work that no transaction can span, compensated step by step. -/
structure SagaHandler where
  dispatches : List String
  execute : Command → SagaProgram Value

inductive CommandHandler where
  | transactional (handler : TransactionalHandler)
  | saga (handler : SagaHandler)

/-- The retry policy as it is configured. -/
structure RetryPolicy where
  maxRetries : Number
  baseDelayMs : Number
  maxDelayMs : Number

/-- A constructed bus: its registered handlers in order, its collaborators and a validated
retry policy. `compensationStore` tells whether a store is wired.
-/
structure CommandBus where
  handlers : List (String × CommandHandler)
  isTransient : Thrown → Bool
  maxRetries : Nat
  baseDelayMs : Number
  maxDelayMs : Number
  compensationStore : Bool

/-- The constructor rejects a `maxRetries` that is not a natural number. -/
def CommandBus.create (isTransient : Thrown → Bool) (retryPolicy : RetryPolicy)
    (compensationStore : Bool)
    : Except Thrown CommandBus :=
  match retryPolicy.maxRetries.natural? with
  | none =>
      .error
        (.error .rangeError
          ("RetryPolicy.maxRetries must be a non-negative integer, got "
            ++ retryPolicy.maxRetries.toText))
  | some maxRetries =>
      .ok
        {
          handlers := []
          isTransient
          maxRetries
          baseDelayMs := retryPolicy.baseDelayMs
          maxDelayMs := retryPolicy.maxDelayMs
          compensationStore
        }

-----------------------------------------------------------------------------------------
-- Transactional commands
-----------------------------------------------------------------------------------------

/-- Run a callback in the open transaction and commit its result. -/
def runAndCommit (body : TxProgram Value) : BusProgram Value := do
  let result ← body.translate (fun op => call (.statement op))
  Program.settle (← call (.commit result))
  return result

/-- `txRunner.run`: open a transaction, run the callback in it, and commit its result; a
rejection on the way rolls the transaction back.
-/
def txRunnerRun (body : TxProgram Value) : BusProgram Value := do
  Program.settle (← call .begin)
  tryCatch (runAndCommit body)
    (fun error => do
      let _ ← call (.rollback error)
      throw error)

/-- One attempt of a transactional command, and its hook once the attempt has committed. -/
def runTransactional (command : Command) (handler : TransactionalHandler)
    : BusProgram Value := do
  let result ← txRunnerRun (handler.execute command)
  if handler.afterCommit then
    tryCatch
      (do Program.settle (← call (.afterCommit command result)))
      (fun err => do
        let _ ← call
          (.log .error
            ("afterCommit threw for " ++ command.name
              ++ " — command already succeeded, not surfaced to caller")
            (some err)))
  return result

/-- Log the start and the end of a command; its error is passed on. -/
def withLogging (command : Command) (next : BusProgram Value) : BusProgram Value := do
  let _ ← call (.log .info ("Executing " ++ command.name ++ "...") none)
  let _ ← call (.log .debug ("Input for " ++ command.name) none)
  tryCatch
    (do
      let result ← next
      let _ ← call (.log .info ("Successfully executed " ++ command.name) none)
      return result)
    (fun error => do
      let _ ← call (.log .error ("Failed to execute " ++ command.name) (some error))
      throw error)

namespace CommandBus

variable (bus : CommandBus)

/-- Wait before the next attempt: full jitter over an exponential ceiling. -/
def backOff (command : Command) (attempt : Nat) : BusProgram Unit := do
  let backoffCeiling :=
    bus.maxDelayMs.min (bus.baseDelayMs.mul (.ofRat (2 ^ (attempt - 1))))
  let random ← call .random
  let delay := (random.mul backoffCeiling).round
  let _ ← call
    (.log .warn
      ("Command " ++ command.name ++ " failed with transient error; retrying "
        ++ toString attempt ++ "/" ++ toString bus.maxRetries ++ " after " ++ delay.toText ++ "ms")
      none)
  call (.sleep delay)

/-- The retry loop from `attempt` failures on; `remaining` is `maxRetries + 1 - attempt`, so
that the loop condition `attempt <= maxRetries` says that it is not zero.
-/
def retryLoop (command : Command) (next : BusProgram Value) : Nat → Nat → BusProgram Value
  | _, 0 => throw (.error .unreachable "Unreachable state in CommandBus retry loop")
  | attempt, remaining + 1 =>
      tryCatch next (fun error => do
        let attempt := attempt + 1
        let willRetry := bus.isTransient error && attempt ≤ bus.maxRetries
        let _ ← call (.recordObservation error willRetry)
        if !willRetry then throw error
        bus.backOff command attempt
        retryLoop command next attempt remaining)

/-- Retry transient failures, up to the budget. -/
def withRetry (command : Command) (next : BusProgram Value) : BusProgram Value :=
  bus.retryLoop command next 0 (bus.maxRetries + 1)

/-- Execute a command whose handler is transactional. -/
def executeTransactional (command : Command) (handler : TransactionalHandler)
    : BusProgram Value :=
  withLogging command (bus.withRetry command (runTransactional command handler))

-----------------------------------------------------------------------------------------
-- Sagas
-----------------------------------------------------------------------------------------

/-- The handler registered for a command. -/
def handler? (command : Command) : Option CommandHandler :=
  bus.handlers.lookup command.name

/-- No handler is registered for the command. -/
def notFound (command : Command) : Thrown :=
  .error .commandHandlerNotFound ("Command handler not found for command: " ++ command.name)

/-- A saga dispatched another saga. -/
def nestedDispatch (outer inner : Command) : Thrown :=
  .error .nestedSagaDispatch
    ("Saga \"" ++ outer.name ++ "\" dispatched \"" ++ inner.name
      ++ "\", which is itself a saga handler. "
      ++ "A saga may only dispatch 'transactional' commands via ctx.dispatch — nest orchestration "
      ++ "by having one saga own the whole flow, not by calling another saga.")

/-- `ctx.dispatch` of the saga handling `outer`. -/
def dispatch (outer inner : Command) : BusProgram Value :=
  match bus.handler? inner with
  | some (.saga _) => throw (nestedDispatch outer inner)
  | some (.transactional handler) => bus.executeTransactional inner handler
  | none => throw (notFound inner)

/-- A registered compensation: its description and its undo closure. -/
structure Compensation where
  action : CompensationAction
  undo : Nat

/-- Run a saga handler on its context: dispatches go to the bus, registrations onto the
stack. Returns how the handler ended and the stack it left.
-/
def runHandler (command : Command)
    : SagaProgram Value → List Compensation
      → BusProgram (Except Thrown Value × List Compensation)
  | .done result, compensations => return (.ok result, compensations)
  | .fail error, compensations => return (.error error, compensations)
  | .await (.dispatch inner) resume, compensations => do
      let reply ← (bus.dispatch command inner).attempt
      runHandler command (resume reply) compensations
  | .await (.onCompensate action undo) resume, compensations =>
      runHandler command (resume ()) (compensations ++ [{ action, undo }])

/-- Undo a list of compensations in its order; a failing undo is logged and, where a store
is wired, recorded.
-/
def compensate (command : Command) : List Compensation → BusProgram Unit
  | [] => return ()
  | { action, undo } :: rest => do
      tryCatch
        (do Program.settle (← call (.undo undo)))
        (fun compensationError => do
          let _ ← call
            (.log .error
              ("Compensation step failed for " ++ command.name
                ++ " — manual cleanup may be needed")
              (some compensationError))
          if bus.compensationStore then
            Program.settle (← call (.recordFailed command.name action compensationError)))
      compensate command rest

/-- Run a saga; where its handler rejects, undo its steps latest first and pass the error
on.
-/
def runSaga (command : Command) (handler : SagaHandler) : BusProgram Value := do
  let (ended, compensations) ← bus.runHandler command (handler.execute command) []
  match ended with
  | .ok result => return result
  | .error error =>
      bus.compensate command compensations.reverse
      throw error

/-- Execute a command through the pipeline of its handler's kind. -/
def execute (command : Command) : BusProgram Value :=
  match bus.handler? command with
  | none => throw (notFound command)
  | some (.saga handler) => withLogging command (bus.runSaga command handler)
  | some (.transactional handler) => bus.executeTransactional command handler

end CommandBus

-----------------------------------------------------------------------------------------
-- The pipeline around a handler
-----------------------------------------------------------------------------------------

/-- A call of the logger. -/
def IsLog (event : BusEvent) : Prop :=
  ∃ level message err, event.op = .log level message err

/-- What is logged before a command is handled. -/
def executing (command : Command) : List BusEvent :=
  [
    ⟨.log .info ("Executing " ++ command.name ++ "...") none, ()⟩,
    ⟨.log .debug ("Input for " ++ command.name) none, ()⟩
  ]

/-- A logged run is surrounded by two calls of the logger and one, and keeps its outcome. -/
theorem withLogging_calls {command : Command} {next : BusProgram Value}
    {events : List BusEvent} {outcome : Except Thrown Value}
    (run : Finishes (withLogging command next) events outcome)
    : ∃ inner closing,
        events = executing command ++ (inner ++ [closing])
        ∧ IsLog closing
        ∧ Finishes next inner outcome := by
  simp only [withLogging, call, Program.bind_eq, Program.perform_eq, Program.await_bind,
    Program.done_bind, finishes_await, Program.tryCatch_eq] at run
  obtain ⟨_, _, rfl, _, rest, rfl, run⟩ := run
  rw [finishes_handle] at run
  rcases run with ⟨result, rfl, ran⟩ | ⟨error, head, tail, rfl, failed, caught⟩
  · rw [finishes_bind] at ran
    rcases ran with ⟨_, absurd, _⟩ | ⟨value, inner, closing, rfl, ran, logged⟩
    · cases absurd
    · simp only [Program.pure_eq, finishes_await, finishes_done] at logged
      obtain ⟨_, _, rfl, rfl, same⟩ := logged
      cases same
      exact ⟨inner, _, rfl, ⟨_, _, _, rfl⟩, ran⟩
  · simp only [Program.throw_eq, finishes_await, finishes_fail] at caught
    obtain ⟨_, _, rfl, rfl, rfl⟩ := caught
    rw [finishes_bind] at failed
    rcases failed with ⟨_, same, failed⟩ | ⟨_, _, _, _, _, logged⟩
    · cases same
      exact ⟨head, _, rfl, ⟨_, _, _, rfl⟩, failed⟩
    · simp at logged

/-- Logging surrounds a run with calls of the logger and keeps its outcome. -/
theorem withLogging_runs {command : Command} {next : BusProgram Value}
    {events : List BusEvent} {outcome : Except Thrown Value}
    (run : Finishes (withLogging command next) events outcome)
    : ∃ opening inner closing,
        events = opening ++ inner ++ closing
        ∧ (∀ event ∈ opening, IsLog event)
        ∧ (∀ event ∈ closing, IsLog event)
        ∧ Finishes next inner outcome := by
  obtain ⟨inner, closing, rfl, logged, ran⟩ := withLogging_calls run
  refine ⟨executing command, inner, [closing], by simp, ?_, by simpa using logged, ran⟩
  simp [executing, IsLog]

/-- The constructor accepts every natural number of retries. -/
theorem CommandBus.create_natural (isTransient : Thrown → Bool) (maxRetries : Nat)
    (baseDelayMs maxDelayMs : Number) (compensationStore : Bool)
    : CommandBus.create isTransient { maxRetries := .ofNat maxRetries, baseDelayMs, maxDelayMs }
        compensationStore
      = .ok
          { handlers := [], isTransient, maxRetries, baseDelayMs, maxDelayMs,
            compensationStore } := by
  simp [create, Number.natural?, Number.ofNat]

end SharedKernel.Cqrs
