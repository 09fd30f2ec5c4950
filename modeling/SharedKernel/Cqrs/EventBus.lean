import SharedKernel.Cqrs.CommandBus
import SharedKernel.Foundation.Pool

/-! The in-process event bus over Node's event emitter: listeners are called one after another,
the promises of their handlers settle later.
-/

namespace SharedKernel.Cqrs

open Foundation Js

-----------------------------------------------------------------------------------------
-- Events and listeners
-----------------------------------------------------------------------------------------

/-- An event: its name, and the event as a thrown value where it is an instance of `Error`. -/
structure IEvent where
  name : String
  error? : Option Thrown

/-- What a listener is called with: the event of an emission, or for 'newListener' the type
that a listener is being added for.
-/
inductive Argument where
  | event (event : IEvent)
  | type (name : String)

/-- The closure that `register` creates, known by the two values it closes over. -/
structure Listener where
  eventName : String
  handler : Nat
deriving DecidableEq

/-- The calls of the bus: the emitter's listeners of a type as they are then, adding one,
the synchronous part of a handler, the next handler promise to settle, and the logger.
-/
inductive EventBusOp where
  | listeners (type : String)
  | addListener (type : String) (listener : Listener)
  | handle (listener : Listener) (argument : Argument)
  | settled
  | log (level : LogLevel) (eventName message : String) (err : Option Thrown)

/-- A handler throws at once or returns a promise, which settles with a result or an error. -/
abbrev EventBusOp.Reply : EventBusOp → Type
  | .listeners _ => List Listener
  | .addListener _ _ | .log _ _ _ _ => Unit
  | .handle _ _ => Except Thrown Unit
  | .settled => Listener × Except Thrown Unit

abbrev EventBusEffects : Signature where
  Op := EventBusOp
  Reply := EventBusOp.Reply

abbrev EventBusProgram (α : Type) := Program EventBusEffects Thrown α
abbrev EventBusEvent := Event EventBusEffects

/-- Await one call. -/
def callBus (op : EventBusOp) : EventBusProgram op.Reply :=
  Program.perform (F := EventBusEffects) op

/-- A bus; `inspect` is the text that the runtime shows of a value. -/
structure EventBus where
  inspect : Argument → String

namespace EventBus

variable (self : EventBus)

-----------------------------------------------------------------------------------------
-- The emitter
-----------------------------------------------------------------------------------------

/-- A listener runs up to its `await`: what its handler throws at once is logged. -/
def listen (argument : Argument) (listener : Listener) : EventBusProgram Unit := do
  let _ ← callBus (.log .debug listener.eventName ("Handling " ++ listener.eventName) none)
  match ← callBus (.handle listener argument) with
  | .ok _ => pure ()
  | .error error =>
      callBus (.log .error listener.eventName "Error handling event" (some error))

/-- A listener after its `await`, once its handler's promise has settled. -/
def settlement : EventBusProgram Unit := do
  let (listener, outcome) ← callBus .settled
  match outcome with
  | .ok _ => callBus (.log .debug listener.eventName ("Handled " ++ listener.eventName) none)
  | .error error =>
      callBus (.log .error listener.eventName "Error handling event" (some error))

/-- Call the listeners in order. -/
def listenAll (argument : Argument) : List Listener → EventBusProgram Unit
  | [] => pure ()
  | listener :: rest => do
      listen argument listener
      listenAll argument rest

/-- What `emit` throws for an 'error' event without a listener. -/
def unhandled (argument : Argument) : Thrown :=
  let wrapped : Thrown :=
    .value 0
      (some ("Error [ERR_UNHANDLED_ERROR]: Unhandled error. (" ++ self.inspect argument ++ ")"))
  match argument with
  | .event event => event.error?.getD wrapped
  | .type _ => wrapped

/-- The rest of `emit`, for the listeners it found: whether there were any. -/
def emitTo (type : String) (argument : Argument) (listeners : List Listener)
    : EventBusProgram Bool :=
  if listeners.isEmpty then
    if type = "error" then throw (self.unhandled argument)
    else pure false
  else do
    listenAll argument listeners
    pure true

/-- `EventEmitter.emit`: the listeners called are those there are at its start. -/
def emit (type : String) (argument : Argument) : EventBusProgram Bool := do
  self.emitTo type argument (← callBus (.listeners type))

/-- `EventEmitter.on`: 'newListener' is emitted before the listener is added. -/
def on (type : String) (listener : Listener) : EventBusProgram Unit := do
  let watchers ← callBus (.listeners "newListener")
  if !watchers.isEmpty then
    let _ ← self.emit "newListener" (.type type)
  callBus (.addListener type listener)

-----------------------------------------------------------------------------------------
-- The bus
-----------------------------------------------------------------------------------------

/-- Register a handler of an event name. -/
def register (eventName : String) (handler : Nat) : EventBusProgram Unit :=
  self.on eventName { eventName, handler }

/-- Warn of an event that had no listeners. -/
def warnUnheard (event : IEvent) (hadListeners : Bool) : EventBusProgram Unit :=
  if hadListeners then pure ()
  else
    callBus
      (.log .warn event.name "No handler registered — event published with zero listeners" none)

/-- Publish an event; its handlers are not awaited. -/
def publish (event : IEvent) : EventBusProgram Unit := do
  let hadListeners ← self.emit event.name (.event event)
  warnUnheard event hadListeners

end EventBus

/-- The calls on a bus; a settlement is the rest of a listener. -/
inductive EventBusCall where
  | register (eventName : String) (handler : Nat)
  | publish (event : IEvent)
  | settlement

/-- The program of a call. -/
def EventBus.program (self : EventBus) : EventBusCall → EventBusProgram Unit
  | .register eventName handler => self.register eventName handler
  | .publish event => self.publish event
  | .settlement => settlement

-----------------------------------------------------------------------------------------
-- The world of the bus
-----------------------------------------------------------------------------------------

/-- The listeners of each type in the order they were added, and the listeners whose handler's
promise has not settled.
-/
structure EventBusWorld where
  listeners : String → List Listener
  pending : List Listener

/-- Before the first registration. -/
def EventBusWorld.empty : EventBusWorld where
  listeners := fun _ => []
  pending := []

/-- Add a listener of a type. -/
def EventBusWorld.add (self : EventBusWorld) (type : String) (listener : Listener)
    : EventBusWorld :=
  {
    self with
    listeners := fun other =>
      if other = type then self.listeners other ++ [listener] else self.listeners other
  }

/-- How the emitter, the handlers, their promises and the logger may answer. -/
inductive EventBusAnswers : EventBusWorld → EventBusEvent → EventBusWorld → Prop
  | listeners (world : EventBusWorld) (type : String)
    : EventBusAnswers world ⟨.listeners type, world.listeners type⟩ world
  | addListener (world : EventBusWorld) (type : String) (listener : Listener)
    : EventBusAnswers world ⟨.addListener type listener, ()⟩ (world.add type listener)
  | promised (world : EventBusWorld) (listener : Listener) (argument : Argument)
    : EventBusAnswers world ⟨.handle listener argument, .ok ()⟩
        { world with pending := world.pending ++ [listener] }
  | threw (world : EventBusWorld) (listener : Listener) (argument : Argument) (error : Thrown)
    : EventBusAnswers world ⟨.handle listener argument, .error error⟩ world
  | settled (world : EventBusWorld) {listener : Listener} (outcome : Except Thrown Unit)
    (waiting : listener ∈ world.pending)
    : EventBusAnswers world ⟨.settled, (listener, outcome)⟩
        { world with pending := world.pending.erase listener }
  | log (world : EventBusWorld) (level : LogLevel) (eventName message : String)
    (err : Option Thrown)
    : EventBusAnswers world ⟨.log level eventName message err, ()⟩ world

abbrev EventBusPool := Pool EventBusEffects Thrown Unit EventBusCall EventBusWorld
abbrev EventBusLabel := PoolLabel EventBusEffects EventBusCall

/-- Any number of calls on one bus: they start at any time, and a handler that has not returned
lets other calls run, which may be its own.
-/
abbrev EventBus.Step (self : EventBus) : EventBusPool → EventBusLabel → EventBusPool → Prop :=
  PoolStep self.program (fun _ => True) EventBusAnswers Eq

end SharedKernel.Cqrs
