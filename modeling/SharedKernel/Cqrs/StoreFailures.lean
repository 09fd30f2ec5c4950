import SharedKernel.Cqrs.Saga

/-! A saga whose compensation store rejects: the loop ends there, so a store that breaks its
contract costs the steps that are still to be undone and masks the error of the saga.
-/

namespace SharedKernel.Cqrs

open Foundation Js

variable {bus : CommandBus} {command : Command} {events : List BusEvent} {error : Thrown}

/-- The undo and recording calls of a loop that attempts every step once, in its order, and
offers each one that fails to the store, which may reply anything.
-/
inductive Offered (bus : CommandBus) (command : Command)
    : List CommandBus.Compensation → List BusEvent → Prop
  | nil : Offered bus command [] []
  | undone {step rest events} (later : Offered bus command rest events)
    : Offered bus command (step :: rest) (⟨.undo step.undo, .ok ()⟩ :: events)
  | dropped {step rest err events} (unwired : bus.compensationStore = false)
    (later : Offered bus command rest events)
    : Offered bus command (step :: rest) (⟨.undo step.undo, .error err⟩ :: events)
  | recorded {step rest err reply events} (wired : bus.compensationStore = true)
    (later : Offered bus command rest events)
    : Offered bus command (step :: rest)
        (⟨.undo step.undo, .error err⟩ :: ⟨.recordFailed command.name step.action err, reply⟩
          :: events)

/-- The compensations of a saga that rejected with `error` after registering `stack` survive
its store: all of them are attempted, latest first, each failure is offered to the store, and
the caller sees the error of the saga.
-/
structure SurvivesStore (bus : CommandBus) (command : Command)
    (stack : List CommandBus.Compensation) (error : Thrown) (events : List BusEvent)
    (outcome : Except Thrown Value)
    : Prop where
  attempted : Offered bus command stack.reverse (compensations events)
  rejected : outcome = .error error

/-- The number of undo calls in a history. -/
def undone (events : List BusEvent) : Nat :=
  events.countP (fun event => match event.op with | .undo _ => true | _ => false)

/-- Where the store rejects, all `steps` have been attempted before, and it rejects with the
error that the caller is about to see.
-/
def StoreKept (steps : Nat) (error : Thrown) (before : List BusEvent) (event : BusEvent) : Prop :=
  ∀ saga action err thrown,
    event = ⟨.recordFailed saga action err, .error thrown⟩
    → undone before = steps ∧ thrown = error

section StoreKept

variable {steps : Nat}

/-- A call of the undo closure is one of the steps. -/
@[simp] theorem throughout_storeKept_undo (closure : Nat) (reply : Except Thrown Unit)
    : Throughout (StoreKept (steps + 1) error) (⟨.undo closure, reply⟩ :: events)
      ↔ Throughout (StoreKept steps error) events := by
  rw [throughout_cons]
  have same : (fun before => StoreKept (steps + 1) error (⟨.undo closure, reply⟩ :: before))
      = StoreKept steps error := by
    funext before event
    simp [StoreKept, undone]
  simp [same, StoreKept]

/-- A call of the logger is no step. -/
@[simp] theorem throughout_storeKept_log (level : LogLevel) (message : String)
    (err : Option Thrown)
    : Throughout (StoreKept steps error) (⟨.log level message err, ()⟩ :: events)
      ↔ Throughout (StoreKept steps error) events := by
  rw [throughout_cons]
  have same : (fun before => StoreKept steps error (⟨.log level message err, ()⟩ :: before))
      = StoreKept steps error := by
    funext before event
    simp [StoreKept, undone]
  simp [same, StoreKept]

/-- A step that the store records is one of the steps already. -/
@[simp] theorem throughout_storeKept_recorded (saga : String) (action : CompensationAction)
    (err : Thrown)
    : Throughout (StoreKept steps error) (⟨.recordFailed saga action err, .ok ()⟩ :: events)
      ↔ Throughout (StoreKept steps error) events := by
  rw [throughout_cons]
  have same
      : (fun before => StoreKept steps error (⟨.recordFailed saga action err, .ok ()⟩ :: before))
        = StoreKept steps error := by
    funext before event
    simp [StoreKept, undone]
  simp [same, StoreKept]

/-- A store that rejects has to be the last to be called, and has to reject with the error. -/
@[simp] theorem throughout_storeKept_failed (saga : String) (action : CompensationAction)
    (err thrown : Thrown)
    : Throughout (StoreKept steps error) [⟨.recordFailed saga action err, .error thrown⟩]
      ↔ steps = 0 ∧ thrown = error := by
  rw [throughout_cons]
  constructor
  · intro kept
    obtain ⟨last, same⟩ := kept.1 saga action err thrown rfl
    exact ⟨last.symm, same⟩
  · intro last
    refine ⟨?_, throughout_nil _⟩
    intro _ _ _ other same
    cases same
    exact ⟨last.1.symm, last.2⟩

end StoreKept

@[simp] theorem compensations_undo (closure : Nat) (reply : Except Thrown Unit)
    : compensations (⟨.undo closure, reply⟩ :: events)
      = ⟨.undo closure, reply⟩ :: compensations events :=
  rfl

@[simp] theorem compensations_log (level : LogLevel) (message : String) (err : Option Thrown)
    : compensations (⟨.log level message err, ()⟩ :: events) = compensations events :=
  rfl

@[simp] theorem compensations_recorded (saga : String) (action : CompensationAction)
    (err : Thrown) (reply : Except Thrown Unit)
    : compensations (⟨.recordFailed saga action err, reply⟩ :: events)
      = ⟨.recordFailed saga action err, reply⟩ :: compensations events :=
  rfl

/-- Steps leave no calls exactly where there are none. -/
theorem offered_nil_iff {steps : List CommandBus.Compensation}
    : Offered bus command steps [] ↔ steps = [] := by
  constructor
  · intro offered
    cases offered
    rfl
  · intro same
    subst same
    exact .nil

/-- A loop attempts and offers every step and masks nothing exactly where the store is kept;
witness: induction on the ways a stack is undone.
-/
theorem Undoing.offered_iff {steps : List CommandBus.Compensation}
    {outcome : Except Thrown Unit} (undoing : Undoing bus command steps events outcome)
    (error : Thrown)
    : Offered bus command steps (compensations events)
        ∧ (outcome = .ok () ∨ outcome = .error error)
      ↔ Throughout (StoreKept steps.length error) events := by
  induction undoing with
  | nil => simp [compensations, offered_nil_iff]
  | @undone step rest events outcome later ih =>
      rw [List.length_cons, throughout_storeKept_undo, ← ih, compensations_undo]
      refine and_congr_left' ⟨fun offered => ?_, fun offered => .undone offered⟩
      cases offered with
      | undone offered => exact offered
  | @dropped step rest err message events outcome unwired later ih =>
      rw [List.length_cons, throughout_storeKept_undo, throughout_storeKept_log, ← ih,
        compensations_undo, compensations_log]
      refine and_congr_left' ⟨fun offered => ?_, fun offered => .dropped unwired offered⟩
      generalize compensations events = calls at offered
      cases offered with
      | dropped _ offered => exact offered
      | recorded wired _ =>
          rw [unwired] at wired
          cases wired
  | @recorded step rest err message events outcome wired later ih =>
      rw [List.length_cons, throughout_storeKept_undo, throughout_storeKept_log,
        throughout_storeKept_recorded, ← ih, compensations_undo, compensations_log,
        compensations_recorded]
      refine and_congr_left' ⟨fun offered => ?_, fun offered => .recorded wired offered⟩
      generalize compensations events = calls at offered
      cases offered with
      | dropped unwired _ =>
          rw [wired] at unwired
          cases unwired
      | recorded _ offered => exact offered
  | @unrecorded step rest err message thrown wired =>
      rw [List.length_cons, throughout_storeKept_undo, throughout_storeKept_log,
        compensations_undo, compensations_log, compensations_recorded]
      rw [throughout_storeKept_failed, List.length_eq_zero_iff]
      constructor
      · intro survived
        obtain ⟨offered, ended⟩ := survived
        cases offered with
        | dropped unwired _ =>
            rw [wired] at unwired
            cases unwired
        | recorded _ offered => exact ⟨offered_nil_iff.mp offered, by simpa using ended⟩
      · intro last
        obtain ⟨rfl, rfl⟩ := last
        exact ⟨.recorded wired .nil, Or.inr rfl⟩

/-- Executing a saga whose handler rejects: the calls of the handler, then those of the loop
over what it registered, and the error of the saga unless the loop rejects.
-/
theorem execute_rejected {handler : SagaHandler} {stack : List CommandBus.Compensation}
    {handled rest : List BusEvent} {outcome : Except Thrown Value}
    (registered : bus.handler? command = some (.saga handler))
    (rejected
      : Finishes (bus.runHandler command (handler.execute command) []) handled
          (.ok (.error error, stack)))
    (run : Finishes (bus.execute command) (executing command ++ (handled ++ rest)) outcome)
    : ∃ undos closing ended,
        rest = undos ++ [closing]
        ∧ IsLog closing
        ∧ Undoing bus command stack.reverse undos ended
        ∧ outcome = (ended.bind (fun _ => .error error)) := by
  simp only [CommandBus.execute, registered] at run
  obtain ⟨inner, closing, same, logged, ran⟩ := withLogging_calls run
  have calls := List.append_cancel_left same
  rw [CommandBus.runSaga, Program.bind_eq, finishes_bind] at ran
  rcases ran with ⟨thrown, _, failed⟩ | ⟨⟨ended, stack'⟩, head, tail, rfl, handled', ran⟩
  · obtain ⟨_, _, _, absurd, _⟩ := runHandler_runs failed
    cases absurd
  · rw [List.append_assoc] at calls
    obtain ⟨rfl, ended_eq, rfl⟩ := rejected.cancel handled' calls
    cases ended_eq
    simp only [Program.bind_eq, Program.throw_eq] at ran
    rw [finishes_bind] at ran
    rcases ran with ⟨thrown, rfl, stopped⟩ | ⟨_, undos, last, rfl, undone, thrown⟩
    · exact ⟨tail, closing, _, rfl, logged, compensate_runs stopped, rfl⟩
    · obtain ⟨rfl, rfl⟩ := (finishes_fail ..).mp thrown
      exact ⟨undos, closing, _, by simp, logged, compensate_runs undone, rfl⟩

/-- The compensations of a saga survive its store exactly where the store is kept: it never
rejects, or only for the step undone last and with the error of the saga itself; witness: the
ways the stack is undone.
-/
theorem execute_survivesStore_iff {handler : SagaHandler}
    {stack : List CommandBus.Compensation} {handled rest : List BusEvent}
    {outcome : Except Thrown Value}
    (registered : bus.handler? command = some (.saga handler))
    (rejected
      : Finishes (bus.runHandler command (handler.execute command) []) handled
          (.ok (.error error, stack)))
    (run : Finishes (bus.execute command) (executing command ++ (handled ++ rest)) outcome)
    : SurvivesStore bus command stack error rest outcome
      ↔ Throughout (StoreKept stack.length error) rest := by
  obtain ⟨undos, closing, ended, rfl, logged, undoing, rfl⟩ :=
    execute_rejected registered rejected run
  have quiet : compensations (undos ++ [closing]) = compensations undos := by
    have closes : compensations [closing] = [] := compensations_logs (by simpa using logged)
    rw [compensations_append, closes, List.append_nil]
  have closed : StoreKept stack.length error undos closing := by
    obtain ⟨level, message, err, same⟩ := logged
    intro saga action err' thrown absurd
    subst absurd
    cases same
  have masked : ended.bind (fun _ => (.error error : Except Thrown Value)) = .error error
      ↔ ended = .ok () ∨ ended = .error error := by
    cases ended <;> simp [Except.bind]
  have kept := undoing.offered_iff error
  rw [List.length_reverse] at kept
  rw [throughout_snoc, and_iff_left closed, ← kept]
  constructor
  · intro survives
    exact ⟨quiet ▸ survives.attempted, masked.mp survives.rejected⟩
  · intro survives
    exact ⟨quiet.symm ▸ survives.1, masked.mpr survives.2⟩

-----------------------------------------------------------------------------------------
-- The sample saga
-----------------------------------------------------------------------------------------

/-- What the sample saga registers. -/
def sampleStack : List CommandBus.Compensation :=
  [
    { action := sampleAction "remove-user", undo := 1 },
    { action := sampleAction "remove-org", undo := 2 }
  ]

def quotaExceeded : Thrown := .error .error "quota exceeded"

def sampleCommand : Command := ⟨"ProvisionOrg", .null⟩

/-- Undoing the later step of the sample saga fails, and the store replies to that. -/
def laterStepFails (reply : Except Thrown Unit) : List BusEvent :=
  [
    ⟨.undo 2, .error .undefined⟩,
    ⟨.log .error "Compensation step failed for ProvisionOrg — manual cleanup may be needed"
      (some .undefined), ()⟩,
    ⟨.recordFailed "ProvisionOrg" (sampleAction "remove-org") .undefined, reply⟩
  ]

theorem sampleSaga_rejected
    : Finishes (sagaBus.runHandler sampleCommand (sampleSaga.execute sampleCommand) []) []
        (.ok (.error quotaExceeded, sampleStack)) :=
  .refl _

/-- Where the store records the failure, the earlier step is undone as well. -/
theorem execute_survivesStore_iff_recorded
    : SurvivesStore sagaBus sampleCommand sampleStack quotaExceeded
        (laterStepFails (.ok ()) ++
          [
            ⟨.undo 1, .ok ()⟩,
            ⟨.log .error "Failed to execute ProvisionOrg" (some quotaExceeded), ()⟩
          ])
        (.error quotaExceeded) := by
  have run : Finishes (sagaBus.execute sampleCommand)
      (executing sampleCommand ++ ([] ++ (laterStepFails (.ok ()) ++
        [
          ⟨.undo 1, .ok ()⟩,
          ⟨.log .error "Failed to execute ProvisionOrg" (some quotaExceeded), ()⟩
        ])))
      (.error quotaExceeded) :=
    .step _ (.step _ (.step _ (.step _ (.step _ (.step _ (.step _ (.refl _)))))))
  apply (execute_survivesStore_iff rfl sampleSaga_rejected run).mpr
  simp [laterStepFails, StoreKept]

/-- Where the store rejects, the earlier step is never undone, and the caller sees the error of
the store.
-/
theorem execute_maskedByStore
    : ¬ ∀ (bus : CommandBus) (command : Command) (handler : SagaHandler)
          (stack : List CommandBus.Compensation) (error : Thrown) (handled rest : List BusEvent)
          (outcome : Except Thrown Value),
          bus.handler? command = some (.saga handler)
          → Finishes (bus.runHandler command (handler.execute command) []) handled
              (.ok (.error error, stack))
          → Finishes (bus.execute command) (executing command ++ (handled ++ rest)) outcome
          → SurvivesStore bus command stack error rest outcome := by
  intro claimed
  have run : Finishes (sagaBus.execute sampleCommand)
      (executing sampleCommand ++ ([] ++ (laterStepFails (.error .undefined) ++
        [⟨.log .error "Failed to execute ProvisionOrg" (some .undefined), ()⟩])))
      (.error .undefined) :=
    .step _ (.step _ (.step _ (.step _ (.step _ (.step _ (.refl _))))))
  have survives := claimed sagaBus sampleCommand sampleSaga sampleStack quotaExceeded [] _ _ rfl
    sampleSaga_rejected run
  cases survives.rejected

end SharedKernel.Cqrs
