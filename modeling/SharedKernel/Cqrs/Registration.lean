import Mathlib.Data.List.Perm.Basic
import SharedKernel.Cqrs.CommandBus
import SharedKernel.Foundation.Atomic

/-! Registering handlers on a command bus: a saga that declares another saga is rejected by the
call that brings the second of the two, whatever the order of the calls.
-/

namespace SharedKernel.Cqrs

open Foundation Js

/-- What is given to `register`: a handler of one of the kinds, or a value of another kind, known
by `String(kind)`, which may throw.
-/
inductive AnyHandler where
  | known (handler : CommandHandler)
  | unknown (kind : Except Thrown String)

/-- The handler of a command is registered already. -/
def duplicateCommandHandler (commandName : String) : Thrown :=
  .error .duplicateCommandHandler
    ("Two handlers registered for command: " ++ commandName
      ++ ". A command is 1:1 with its handler.")

/-- The handler has neither kind; building the message converts the kind. -/
def unknownHandlerKind (commandName : String) : Except Thrown String → Thrown
  | .ok kind =>
      .error .unknownHandlerKind
        ("Handler for \"" ++ commandName ++ "\" has kind \"" ++ kind
          ++ "\" — must be 'transactional' or 'saga'. "
          ++ "Did the handler class forget \"readonly kind = 'transactional' as const\" "
          ++ "(or 'saga')?")
  | .error error => error

/-- One saga declares another. -/
def nestedSagaDispatch (outerCommand innerCommand : String) : Thrown :=
  .error .nestedSagaDispatch
    ("Saga \"" ++ outerCommand ++ "\" dispatched \"" ++ innerCommand
      ++ "\", which is itself a saga handler. "
      ++ "A saga may only dispatch 'transactional' commands via ctx.dispatch — nest orchestration "
      ++ "by having one saga own the whole flow, not by calling another saga.")

namespace CommandBus

variable (bus : CommandBus)

/-- The kind of the handler registered under a name is `'saga'`. -/
def isSaga (name : String) : Bool :=
  match bus.handlers.lookup name with
  | some (.saga _) => true
  | _ => false

/-- One round of the outer loop: the names that a saga declares, in turn. -/
def validateSaga (outerName : String) : CommandHandler → Except Thrown PUnit
  | .transactional _ => return ()
  | .saga outer =>
      outer.dispatches.forM (fun innerName =>
        if bus.isSaga innerName then throw (nestedSagaDispatch outerName innerName)
        else return ())

/-- Check every registered saga against the kinds that are registered. -/
def validateSagaDispatches : Except Thrown PUnit :=
  bus.handlers.forM (fun entry => bus.validateSaga entry.1 entry.2)

/-- The bus with one more handler. -/
def set (commandName : String) (handler : CommandHandler) : CommandBus :=
  { bus with handlers := bus.handlers ++ [(commandName, handler)] }

/-- Register a handler: the map is written before the sagas are checked. -/
def register (commandName : String) (handler : AnyHandler) : Atomic CommandBus Thrown PUnit := do
  let bus ← get
  if (bus.handlers.lookup commandName).isSome then throw (duplicateCommandHandler commandName)
  else
    match handler with
    | .unknown kind => throw (unknownHandlerKind commandName kind)
    | .known handler =>
        modify (fun bus => bus.set commandName handler)
        let bus ← get
        MonadExcept.ofExcept bus.validateSagaDispatches

/-- The results of consecutive calls of `register`, continued after a throw, and the bus they
leave.
-/
def registerAll : CommandBus → List (String × AnyHandler)
    → List (Except Thrown PUnit) × CommandBus
  | bus, [] => ([], bus)
  | bus, (commandName, handler) :: rest =>
      let (result, next) := Atomic.on bus (register commandName handler)
      let (results, last) := registerAll next rest
      (result :: results, last)

end CommandBus

/-- A handler is a saga that declares the name of a saga among the handlers, perhaps its own. -/
def Nests (handlers : List (String × CommandHandler)) : Prop :=
  ∃ outerName outer innerName inner,
    (outerName, CommandHandler.saga outer) ∈ handlers
    ∧ innerName ∈ outer.dispatches
    ∧ (innerName, CommandHandler.saga inner) ∈ handlers

/-- The call has thrown `NestedSagaDispatchError`. -/
def NestedThrown (result : Except Thrown PUnit) : Prop :=
  ∃ outerName innerName, result = .error (nestedSagaDispatch outerName innerName)

/-- The handlers of a bus have distinct names, as the keys of a map. -/
def Distinct (handlers : List (String × CommandHandler)) : Prop :=
  (handlers.map Prod.fst).Nodup

-----------------------------------------------------------------------------------------
-- The check of the whole map
-----------------------------------------------------------------------------------------

/-- Looking a name up in a map finds its only entry, by induction on the entries. -/
theorem lookup_eq_some_iff_mem {handlers : List (String × CommandHandler)}
    (distinct : Distinct handlers) (name : String) (handler : CommandHandler)
    : handlers.lookup name = some handler ↔ (name, handler) ∈ handlers := by
  induction handlers with
  | nil => simp
  | cons first rest ih =>
      obtain ⟨other, held⟩ := first
      obtain ⟨fresh, distinct⟩ := List.nodup_cons.mp distinct
      rw [List.lookup_cons, List.mem_cons]
      by_cases same : name = other
      · subst same
        have absent : (name, handler) ∉ rest := fun member =>
          fresh (List.mem_map.mpr ⟨_, member, rfl⟩)
        simp [absent, eq_comm]
      · have different : (name == other) = false := by simpa using same
        simp [different, same, ih distinct]

/-- A loop runs all its rounds, or throws what the first round to throw throws; witness:
induction on the list.
-/
theorem forM_ends {α : Type} (items : List α) (round : α → Except Thrown PUnit)
    : items.forM round = .ok () ∧ (∀ item ∈ items, round item = .ok ())
      ∨ ∃ item ∈ items, ∃ error, round item = .error error ∧ items.forM round = .error error := by
  induction items with
  | nil => exact Or.inl ⟨rfl, by simp⟩
  | cons item rest ih =>
      have first : (item :: rest).forM round = (round item >>= fun _ => rest.forM round) := rfl
      rw [first]
      cases ended : round item with
      | error error => exact Or.inr ⟨item, .head _, error, ended, rfl⟩
      | ok _ =>
          rcases ih with ⟨ran, rounds⟩ | ⟨other, member, error, thrown, ran⟩
          · exact Or.inl ⟨ran, by simpa [ended] using rounds⟩
          · exact Or.inr ⟨other, .tail _ member, error, thrown, ran⟩

/-- A name is that of a registered saga. -/
theorem CommandBus.isSaga_iff {bus : CommandBus} (distinct : Distinct bus.handlers)
    (name : String)
    : bus.isSaga name = true ↔ ∃ inner, (name, CommandHandler.saga inner) ∈ bus.handlers := by
  simp only [isSaga, ← lookup_eq_some_iff_mem distinct]
  constructor
  · intro saga
    split at saga
    · rename_i inner found
      exact ⟨inner, found⟩
    · cases saga
  · intro found
    obtain ⟨inner, found⟩ := found
    rw [found]

/-- A round accepts a saga whose declared names are no sagas, and otherwise throws for one of
them; witness: the inner loop.
-/
theorem CommandBus.validateSaga_ends (bus : CommandBus) (outerName : String)
    (outer : SagaHandler)
    : bus.validateSaga outerName (.saga outer) = .ok ()
        ∧ (∀ innerName ∈ outer.dispatches, bus.isSaga innerName = false)
      ∨ ∃ innerName ∈ outer.dispatches,
          bus.isSaga innerName = true
          ∧ bus.validateSaga outerName (.saga outer)
            = .error (nestedSagaDispatch outerName innerName) := by
  rcases forM_ends outer.dispatches (fun innerName =>
      if bus.isSaga innerName then throw (nestedSagaDispatch outerName innerName)
      else return ()) with ⟨ran, rounds⟩ | ⟨innerName, declared, error, thrown, ran⟩
  · refine Or.inl ⟨ran, fun innerName declared => ?_⟩
    have accepted := rounds innerName declared
    cases saga : bus.isSaga innerName with
    | false => rfl
    | true =>
        rw [saga] at accepted
        cases accepted
  · refine Or.inr ⟨innerName, declared, ?_⟩
    cases saga : bus.isSaga innerName with
    | false =>
        rw [saga] at thrown
        cases thrown
    | true =>
        rw [saga] at thrown
        cases thrown
        exact ⟨rfl, ran⟩

/-- The check accepts a map without nested sagas, and otherwise throws for one of them;
witness: the rounds of the outer loop.
-/
theorem CommandBus.validateSagaDispatches_ends {bus : CommandBus}
    (distinct : Distinct bus.handlers)
    : bus.validateSagaDispatches = .ok () ∧ ¬ Nests bus.handlers
      ∨ NestedThrown bus.validateSagaDispatches ∧ Nests bus.handlers := by
  rcases forM_ends bus.handlers (fun entry => bus.validateSaga entry.1 entry.2) with
    ⟨ran, rounds⟩ | ⟨⟨outerName, handler⟩, member, error, thrown, ran⟩
  · refine Or.inl ⟨ran, fun nests => ?_⟩
    obtain ⟨outerName, outer, innerName, inner, outside, declared, inside⟩ := nests
    have saga := (isSaga_iff distinct innerName).mpr ⟨inner, inside⟩
    rcases bus.validateSaga_ends outerName outer with ⟨_, names⟩ | ⟨_, _, _, failed⟩
    · rw [names innerName declared] at saga
      cases saga
    · rw [rounds _ outside] at failed
      cases failed
  · cases handler with
    | transactional handler => cases thrown
    | saga outer =>
        rcases bus.validateSaga_ends outerName outer with
          ⟨accepted, _⟩ | ⟨innerName, declared, saga, failed⟩
        · rw [accepted] at thrown
          cases thrown
        · rw [failed] at thrown
          cases thrown
          obtain ⟨inner, inside⟩ := (isSaga_iff distinct innerName).mp saga
          exact Or.inr ⟨⟨outerName, innerName, ran⟩,
            outerName, outer, innerName, inner, member, declared, inside⟩

-----------------------------------------------------------------------------------------
-- One call, and all of them
-----------------------------------------------------------------------------------------

namespace CommandBus

variable {bus : CommandBus} {commandName : String}

/-- A name that is registered is refused at once. -/
theorem register_duplicate (handler : AnyHandler)
    (taken : (bus.handlers.lookup commandName).isSome = true)
    : Atomic.on bus (register commandName handler)
      = (.error (duplicateCommandHandler commandName), bus) := by
  simp [register, taken]

/-- A handler of another kind is refused before the map is written. -/
theorem register_unknown (kind : Except Thrown String)
    (free : (bus.handlers.lookup commandName).isSome = false)
    : Atomic.on bus (register commandName (.unknown kind))
      = (.error (unknownHandlerKind commandName kind), bus) := by
  simp [register, free]

/-- A handler of one of the kinds is in the map when the sagas are checked, and stays there
whatever comes of that.
-/
theorem register_known (handler : CommandHandler)
    (free : (bus.handlers.lookup commandName).isSome = false)
    : Atomic.on bus (register commandName (.known handler))
      = ((bus.set commandName handler).validateSagaDispatches, bus.set commandName handler) := by
  simp [register, free]

/-- A name is free exactly where no entry has it. -/
theorem free_iff (bus : CommandBus) (commandName : String)
    : (bus.handlers.lookup commandName).isSome = false
      ↔ commandName ∉ bus.handlers.map Prod.fst := by
  rw [Bool.eq_false_iff, ne_eq, List.lookup_isSome_iff]
  simp

/-- A map stays one when a free name is added. -/
theorem distinct_set {handler : CommandHandler} (distinct : Distinct bus.handlers)
    (free : (bus.handlers.lookup commandName).isSome = false)
    : Distinct (bus.set commandName handler).handlers := by
  have absent := (free_iff bus commandName).mp free
  simp only [Distinct, set, List.map_append, List.nodup_append]
  refine ⟨distinct, by simp, ?_⟩
  intro name member other single same
  obtain rfl : other = commandName := by simpa using single
  exact absent (same ▸ member)

end CommandBus

/-- Fewer handlers nest less. -/
theorem Nests.mono {handlers more : List (String × CommandHandler)} (nests : Nests handlers)
    (within : ∀ entry ∈ handlers, entry ∈ more)
    : Nests more := by
  obtain ⟨outerName, outer, innerName, inner, outside, declared, inside⟩ := nests
  exact ⟨outerName, outer, innerName, inner, within _ outside, declared, within _ inside⟩

@[simp] theorem not_nests_nil : ¬ Nests [] := by
  simp [Nests]

/-- The call for a handler of one of the kinds. -/
def knownCall (entry : String × CommandHandler) : String × AnyHandler :=
  (entry.1, .known entry.2)

/-- Registering handlers under distinct names: all of them are in the map in the end, and each
call checks those it has found there with its own; witness: induction on the calls.
-/
theorem registerAll_known {bus : CommandBus} {order : List (String × CommandHandler)}
    (distinct : Distinct (bus.handlers ++ order))
    : (bus.registerAll (order.map knownCall)).2.handlers = bus.handlers ++ order
      ∧ ∀ k,
          (bus.registerAll (order.map knownCall)).1[k]?
          = if k < order.length then
              some { bus with
                handlers := bus.handlers ++ order.take (k + 1) }.validateSagaDispatches
            else none := by
  induction order generalizing bus with
  | nil => simp [CommandBus.registerAll]
  | cons entry rest ih =>
      obtain ⟨name, handler⟩ := entry
      have free : (bus.handlers.lookup name).isSome = false := by
        rw [CommandBus.free_iff]
        intro member
        simp only [Distinct, List.map_append, List.map_cons, List.nodup_append] at distinct
        exact distinct.2.2 name member name (.head _) rfl
      have shifted : (bus.set name handler).handlers ++ rest
          = bus.handlers ++ (name, handler) :: rest := by
        simp [CommandBus.set]
      obtain ⟨last, results⟩ := @ih (bus.set name handler) (shifted ▸ distinct)
      simp only [List.map_cons, knownCall, CommandBus.registerAll,
        CommandBus.register_known handler free]
      refine ⟨last.trans shifted, fun k => ?_⟩
      cases k with
      | zero => simp [CommandBus.set]
      | succ k =>
          rw [List.getElem?_cons_succ, results k]
          simp [CommandBus.set]

-----------------------------------------------------------------------------------------
-- Nested sagas at boot and at run time
-----------------------------------------------------------------------------------------

/-- The `k`th call has thrown `NestedSagaDispatchError`. -/
def NestedAt (results : List (Except Thrown PUnit)) (k : Nat) : Prop :=
  ∃ result, results[k]? = some result ∧ NestedThrown result

/-- The calls for the handlers in some order report a nested saga exactly where there is one,
and first at the call that brings the second of the two.
-/
structure CaughtAtBoot (handlers order : List (String × CommandHandler))
    (results : List (Except Thrown PUnit))
    : Prop where
  caught : (∃ k, NestedAt results k) ↔ Nests handlers
  first
    : ∀ k,
        NestedAt results k ∧ (∀ j, j < k → ¬ NestedAt results j)
        ↔ k < order.length ∧ Nests (order.take (k + 1)) ∧ ¬ Nests (order.take k)

/-- The bus with other sagas in the place of its own, by name. -/
def CommandBus.replaceSagas (bus : CommandBus) (other : String → SagaHandler → SagaHandler)
    : CommandBus :=
  {
    bus with
    handlers := bus.handlers.map (fun entry =>
      (entry.1, match entry.2 with
        | .saga handler => .saga (other entry.1 handler)
        | .transactional handler => .transactional handler))
  }

/-- A saga that dispatches never starts another: the dispatch of a saga fails with no call made,
and what a handler does with its context is the same whatever the sagas of the bus are.
-/
structure NeverStartsSaga (bus : CommandBus) : Prop where
  rejected
    : ∀ (outer inner : Command) (handler : SagaHandler) (events : List BusEvent)
        (outcome : Except Thrown Value),
        bus.handler? inner = some (.saga handler)
        → Finishes (bus.dispatch outer inner) events outcome
        → events = [] ∧ outcome = .error (nestedSagaDispatch outer.name inner.name)
  unused
    : ∀ (other : String → SagaHandler → SagaHandler) (command : Command)
        (body : SagaProgram Value) (stack : List CommandBus.Compensation),
        (bus.replaceSagas other).runHandler command body stack
        = bus.runHandler command body stack

/-- The check of a map throws for a nested saga exactly where there is one. -/
theorem nestedThrown_iff {bus : CommandBus} (distinct : Distinct bus.handlers)
    : NestedThrown bus.validateSagaDispatches ↔ Nests bus.handlers := by
  rcases CommandBus.validateSagaDispatches_ends distinct with ⟨accepted, sound⟩ | ⟨thrown, nests⟩
  · refine iff_of_false ?_ sound
    intro thrown
    obtain ⟨outerName, innerName, thrown⟩ := thrown
    rw [accepted] at thrown
    cases thrown
  · exact iff_of_true thrown nests

/-- On an empty bus a call throws for a nested saga exactly where there is one among the
handlers up to its own.
-/
theorem nestedAt_iff {bus : CommandBus} (empty : bus.handlers = [])
    {order : List (String × CommandHandler)} (distinct : Distinct order) (k : Nat)
    : NestedAt (bus.registerAll (order.map knownCall)).1 k
      ↔ k < order.length ∧ Nests (order.take (k + 1)) := by
  have whole : Distinct (bus.handlers ++ order) := by
    rw [empty]
    exact distinct
  rw [NestedAt, (registerAll_known whole).2 k]
  by_cases within : k < order.length
  · have part : Distinct (order.take (k + 1)) :=
      distinct.sublist ((List.take_sublist (k + 1) order).map Prod.fst)
    have checked := @nestedThrown_iff { bus with handlers := order.take (k + 1) } part
    simpa [within, empty] using checked
  · simp [within]

/-- A handler of a map with other sagas is the one of the map, or another saga in the place of a
saga; witness: induction on the map.
-/
theorem lookup_replaceSagas (other : String → SagaHandler → SagaHandler)
    (handlers : List (String × CommandHandler)) (name : String)
    : (handlers.map (fun entry =>
          (entry.1, match entry.2 with
            | .saga handler => CommandHandler.saga (other entry.1 handler)
            | .transactional handler => .transactional handler))).lookup name
      = (handlers.lookup name).map (fun
          | .saga handler => .saga (other name handler)
          | .transactional handler => .transactional handler) := by
  induction handlers with
  | nil => rfl
  | cons entry rest ih =>
      obtain ⟨held, handler⟩ := entry
      rw [List.map_cons, List.lookup_cons, List.lookup_cons]
      by_cases same : name = held
      · subst same
        cases handler <;> simp
      · have different : (name == held) = false := by simpa using same
        simp only [different]
        exact ih

/-- A transactional command does not depend on the sagas, by induction on its attempts. -/
theorem retryLoop_replaceSagas (bus : CommandBus) (other : String → SagaHandler → SagaHandler)
    (command : Command) (next : BusProgram Value) (attempt remaining : Nat)
    : (bus.replaceSagas other).retryLoop command next attempt remaining
      = bus.retryLoop command next attempt remaining := by
  induction remaining generalizing attempt with
  | zero => rfl
  | succ remaining ih =>
      simp only [CommandBus.retryLoop, ih]
      rfl

/-- A bus is created without handlers. -/
theorem CommandBus.create_handlers {bus : CommandBus} {isTransient : Thrown → Bool}
    {retryPolicy : RetryPolicy} {compensationStore : Bool}
    (created : CommandBus.create isTransient retryPolicy compensationStore = .ok bus)
    : bus.handlers = [] := by
  unfold CommandBus.create at created
  split at created
  · cases created
  · cases created
    rfl

/-- Replacing sagas leaves what a dispatch does; witness: a saga is refused by its kind, and
only a transactional handler is run.
-/
theorem dispatch_replaceSagas (bus : CommandBus) (other : String → SagaHandler → SagaHandler)
    (outer inner : Command)
    : (bus.replaceSagas other).dispatch outer inner = bus.dispatch outer inner := by
  have found : (bus.replaceSagas other).handler? inner
      = (bus.handler? inner).map (fun
          | .saga handler => .saga (other inner.name handler)
          | .transactional handler => .transactional handler) :=
    lookup_replaceSagas other bus.handlers inner.name
  simp only [CommandBus.dispatch, found]
  cases held : bus.handler? inner with
  | none => rfl
  | some handler =>
      cases handler with
      | saga handler => rfl
      | transactional handler =>
          exact congrArg (withLogging inner) (retryLoop_replaceSagas bus other inner _ 0 _)

/-- Replacing sagas leaves what a handler does with its context, by induction on the handler. -/
theorem runHandler_replaceSagas (bus : CommandBus)
    (other : String → SagaHandler → SagaHandler) (command : Command)
    (body : SagaProgram Value) (stack : List CommandBus.Compensation)
    : (bus.replaceSagas other).runHandler command body stack
      = bus.runHandler command body stack := by
  induction body generalizing stack with
  | done result => rfl
  | fail error => rfl
  | await op resume ih =>
      cases op with
      | dispatch inner =>
          simp only [CommandBus.runHandler, dispatch_replaceSagas, ih]
      | onCompensate action undo => exact ih () _

/-- No bus starts a saga from a saga. -/
theorem neverStartsSaga (bus : CommandBus) : NeverStartsSaga bus where
  rejected := by
    intro outer inner handler events outcome saga run
    rw [CommandBus.dispatch, saga] at run
    exact (finishes_fail ..).mp run
  unused := runHandler_replaceSagas bus

/-- Nested sagas are caught at boot, whatever the order of the calls, and never run: the first
call to report one is the first after which there is one, and a dispatch goes by the kind of
the handler it finds; witness: each call checks the whole map.
-/
theorem register_catchesNestedSagas {bus : CommandBus} {isTransient : Thrown → Bool}
    {retryPolicy : RetryPolicy} {compensationStore : Bool}
    (created : CommandBus.create isTransient retryPolicy compensationStore = .ok bus)
    {handlers order : List (String × CommandHandler)} (distinct : Distinct handlers)
    (permuted : order.Perm handlers)
    : CaughtAtBoot handlers order (bus.registerAll (order.map knownCall)).1
      ∧ ∀ other : CommandBus, NeverStartsSaga other := by
  have empty := CommandBus.create_handlers created
  have distinct' : Distinct order := (permuted.map Prod.fst).nodup_iff.mpr distinct
  have thrown_iff := nestedAt_iff empty distinct'
  refine ⟨⟨?_, fun k => ?_⟩, neverStartsSaga⟩
  · constructor
    · intro thrown
      obtain ⟨k, thrown⟩ := thrown
      exact ((thrown_iff k).mp thrown).2.mono
        (fun entry member => permuted.mem_iff.mp (List.mem_of_mem_take member))
    · intro nests
      have nests' : Nests order := nests.mono (fun entry => permuted.mem_iff.mpr)
      cases order with
      | nil => exact (not_nests_nil nests').elim
      | cons first rest =>
          refine ⟨rest.length, (thrown_iff rest.length).mpr ⟨by simp, ?_⟩⟩
          simpa using nests'
  · rw [thrown_iff k]
    constructor
    · intro first
      obtain ⟨⟨within, nests⟩, earlier⟩ := first
      refine ⟨within, nests, fun before => ?_⟩
      cases k with
      | zero => exact not_nests_nil before
      | succ k => exact earlier k (Nat.lt_succ_self k) ((thrown_iff k).mpr ⟨by omega, before⟩)
    · intro first
      obtain ⟨within, nests, before⟩ := first
      refine ⟨⟨within, nests⟩, fun j earlier thrown => before ?_⟩
      exact ((thrown_iff j).mp thrown).2.mono
        (fun entry member => (List.take_subset_take_left order earlier) member)

/-- A saga that does nothing, with the names it declares. -/
def idleSaga (dispatches : List String) : CommandHandler :=
  .saga { dispatches, execute := fun _ => .done none }

/-- A bus without handlers. -/
def emptyBus : CommandBus where
  handlers := []
  isTransient := fun _ => false
  maxRetries := 3
  baseDelayMs := .ofNat 100
  maxDelayMs := .ofNat 2000
  compensationStore := false

theorem emptyBus_created
    : CommandBus.create (fun _ => false)
        { maxRetries := .ofNat 3, baseDelayMs := .ofNat 100, maxDelayMs := .ofNat 2000 } false
      = .ok emptyBus :=
  CommandBus.create_natural ..

/-- The inner saga first and the outer one second: the second call reports them. -/
theorem register_catchesNestedSagas_pair
    : CaughtAtBoot [("Outer", idleSaga ["Inner"]), ("Inner", idleSaga [])]
          [("Inner", idleSaga []), ("Outer", idleSaga ["Inner"])]
          (emptyBus.registerAll
            [("Inner", .known (idleSaga [])), ("Outer", .known (idleSaga ["Inner"]))]).1
      ∧ ∀ other : CommandBus, NeverStartsSaga other :=
  register_catchesNestedSagas emptyBus_created (by simp [Distinct]) (.swap ..)

end SharedKernel.Cqrs
