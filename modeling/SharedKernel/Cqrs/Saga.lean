import SharedKernel.Cqrs.CommandBus

/-! Sagas: the steps a failed saga registered are undone latest first, each once, and the
caller sees the saga's own error.
-/

namespace SharedKernel.Cqrs

open Foundation Js

variable {bus : CommandBus} {command : Command} {events : List BusEvent}

/-- The call undoes a step or records that undoing it failed. -/
def compensating : BusOp → Bool
  | .undo _ | .recordFailed _ _ _ => true
  | _ => false

/-- The undo and recording calls of a history, in order. -/
def compensations (events : List BusEvent) : List BusEvent :=
  events.filter (fun event => compensating event.op)

/-- The compensations a handler registered, in order. -/
def registrations (calls : List (Event SagaEffects)) : List CommandBus.Compensation :=
  calls.filterMap fun
    | ⟨.onCompensate action undo, _⟩ => some { action, undo }
    | _ => none

/-- The store rejected recording a failed compensation, against its contract. -/
def storeFails : BusEvent → Bool
  | ⟨.recordFailed _ _ _, .error _⟩ => true
  | _ => false

/-- Undoing one step: its closure is called, and where it throws and a store is wired, that
step is recorded with that error.
-/
def undoSteps (bus : CommandBus) (command : Command)
    : CommandBus.Compensation × Except Thrown Unit → List BusEvent
  | ({ undo, .. }, .ok _) => [⟨.undo undo, .ok ()⟩]
  | ({ action, undo }, .error err) =>
      ⟨.undo undo, .error err⟩
      :: if bus.compensationStore then [⟨.recordFailed command.name action err, .ok ()⟩] else []

@[simp] theorem compensations_append (head tail : List BusEvent)
    : compensations (head ++ tail) = compensations head ++ compensations tail :=
  List.filter_append ..

/-- Calls of other kinds compensate nothing. -/
theorem compensations_none (others : ∀ event ∈ events, compensating event.op = false)
    : compensations events = [] := by
  rw [compensations, List.filter_eq_nil_iff]
  intro event member
  simp [others event member]

/-- Calls of the logger compensate nothing. -/
theorem compensations_logs (logs : ∀ event ∈ events, IsLog event)
    : compensations events = [] := by
  apply compensations_none
  intro event member
  obtain ⟨level, message, err, same⟩ := logs event member
  simp [same, compensating]

-----------------------------------------------------------------------------------------
-- Transactional commands compensate nothing
-----------------------------------------------------------------------------------------

/-- The call neither undoes a step nor records one. -/
abbrev Other (op : BusOp) : Prop := compensating op = false

theorem call_uses {op : BusOp} (other : Other op) : Uses (F := BusEffects) Other (call op) :=
  ⟨other, fun _ => trivial⟩

theorem txRunnerRun_uses (body : TxProgram Value)
    : Uses (F := BusEffects) Other (txRunnerRun body) := by
  refine (call_uses rfl).bind (fun opened => ?_)
  refine (Uses.settle _).bind (fun _ => Uses.handle ?_ (fun error => ?_))
  · apply (Uses.translate (F := TxEffects) (fun op => call_uses rfl) body).bind
    intro result
    refine (call_uses rfl).bind (fun committed => ?_)
    exact (Uses.settle _).bind (fun _ => trivial)
  · exact (call_uses rfl).bind (fun _ => trivial)

theorem runTransactional_uses (handler : TransactionalHandler)
    : Uses (F := BusEffects) Other (runTransactional command handler) := by
  refine (txRunnerRun_uses _).bind (fun result => ?_)
  split
  · refine Uses.bind (Uses.handle ?_ (fun err => ?_)) (fun _ => trivial)
    · exact (call_uses rfl).bind (fun _ => Uses.settle _)
    · exact (call_uses rfl).bind (fun _ => trivial)
  · trivial

theorem backOff_uses (attempt : Nat)
    : Uses (F := BusEffects) Other (bus.backOff command attempt) := by
  refine (call_uses rfl).bind (fun random => ?_)
  refine (call_uses rfl).bind (fun _ => ?_)
  exact call_uses rfl

theorem retryLoop_uses {next : BusProgram Value}
    (uses : Uses (F := BusEffects) Other next) (attempt remaining : Nat)
    : Uses (F := BusEffects) Other (bus.retryLoop command next attempt remaining) := by
  induction remaining generalizing attempt with
  | zero => trivial
  | succ remaining ih =>
      refine Uses.handle uses (fun error => ?_)
      refine (call_uses rfl).bind (fun _ => ?_)
      split
      · trivial
      · exact (backOff_uses _).bind (fun _ => ih _)

theorem withLogging_uses {next : BusProgram Value}
    (uses : Uses (F := BusEffects) Other next)
    : Uses (F := BusEffects) Other (withLogging command next) := by
  refine (call_uses rfl).bind (fun _ => ?_)
  refine (call_uses rfl).bind (fun _ => ?_)
  refine Uses.handle (uses.bind (fun result => ?_)) (fun error => ?_)
  · exact (call_uses rfl).bind (fun _ => trivial)
  · exact (call_uses rfl).bind (fun _ => trivial)

/-- What a saga dispatches undoes and records nothing; witness: the operations of each stage
of the pipeline.
-/
theorem dispatch_uses (inner : Command)
    : Uses (F := BusEffects) Other (bus.dispatch command inner) := by
  unfold CommandBus.dispatch
  split
  · trivial
  · exact withLogging_uses (retryLoop_uses (runTransactional_uses _) _ _)
  · trivial

-----------------------------------------------------------------------------------------
-- The handler and its compensations
-----------------------------------------------------------------------------------------

/-- The calls of a handler, as the bus carries them out: each dispatch runs to its end, which
is its reply, before the next call; a registration calls nothing.
-/
inductive CarriedOut (bus : CommandBus) (command : Command)
    : List (Event SagaEffects) → List BusEvent → Prop
  | nil : CarriedOut bus command [] []
  | dispatched {inner reply calls events later}
    (ran : Finishes (bus.dispatch command inner) events reply)
    (rest : CarriedOut bus command calls later)
    : CarriedOut bus command (⟨.dispatch inner, reply⟩ :: calls) (events ++ later)
  | registered {action undo calls later} (rest : CarriedOut bus command calls later)
    : CarriedOut bus command (⟨.onCompensate action undo, ()⟩ :: calls) later

/-- The calls of a handler compensate nothing, by induction on them. -/
theorem CarriedOut.silent {calls : List (Event SagaEffects)}
    (carriedOut : CarriedOut bus command calls events)
    : compensations events = [] := by
  induction carriedOut with
  | nil => rfl
  | @dispatched inner reply calls head tail ran rest ih =>
      have quiet := compensations_none ((dispatch_uses inner).of_run ran)
      rw [compensations_append, quiet, ih]
      rfl
  | registered rest ih => exact ih

/-- A handler runs to its own end, with its calls carried out and its registrations left on
the stack; witness: induction on the handler.
-/
theorem runHandler_runs {handler : SagaProgram Value}
    {stack : List CommandBus.Compensation} {outcome}
    (run : Finishes (bus.runHandler command handler stack) events outcome)
    : ∃ calls ended,
        Finishes handler calls ended
        ∧ outcome = .ok (ended, stack ++ registrations calls)
        ∧ CarriedOut bus command calls events := by
  induction handler generalizing stack events with
  | done result =>
      simp only [CommandBus.runHandler, Program.pure_eq, finishes_done] at run
      obtain ⟨rfl, rfl⟩ := run
      exact ⟨[], .ok result, .refl _, by simp [registrations], .nil⟩
  | fail error =>
      simp only [CommandBus.runHandler, Program.pure_eq, finishes_done] at run
      obtain ⟨rfl, rfl⟩ := run
      exact ⟨[], .error error, .refl _, by simp [registrations], .nil⟩
  | await op resume ih =>
      cases op with
      | dispatch inner =>
          rw [CommandBus.runHandler, Program.bind_eq, finishes_bind] at run
          rcases run with ⟨error, rfl, ran⟩ | ⟨reply, head, tail, rfl, ran, later⟩
          · rw [finishes_attempt] at ran
            obtain ⟨_, absurd, _⟩ := ran
            cases absurd
          · obtain ⟨calls, ended, finished, rfl, rest⟩ := ih reply later
            obtain ⟨replied, same, ran⟩ := (finishes_attempt ..).mp ran
            obtain rfl : reply = replied := Except.ok.inj same
            exact ⟨⟨.dispatch inner, reply⟩ :: calls, ended,
              (finishes_await ..).mpr ⟨reply, calls, rfl, finished⟩,
              by simp [registrations], .dispatched ran rest⟩
      | onCompensate action undo =>
          obtain ⟨calls, ended, finished, rfl, rest⟩ := ih () run
          exact ⟨⟨.onCompensate action undo, ()⟩ :: calls, ended,
            (finishes_await ..).mpr ⟨(), calls, rfl, finished⟩,
            by simp [registrations], .registered rest⟩

/-- The ways a stack is undone: each step in turn is undone, or fails and is recorded, or
fails with no store to record it; a store that rejects ends the loop.
-/
inductive Undoing (bus : CommandBus) (command : Command)
    : List CommandBus.Compensation → List BusEvent → Except Thrown Unit → Prop
  | nil : Undoing bus command [] [] (.ok ())
  | undone {step rest events outcome} (later : Undoing bus command rest events outcome)
    : Undoing bus command (step :: rest) (⟨.undo step.undo, .ok ()⟩ :: events) outcome
  | dropped {step rest err message events outcome} (unwired : bus.compensationStore = false)
    (later : Undoing bus command rest events outcome)
    : Undoing bus command (step :: rest)
        (⟨.undo step.undo, .error err⟩ :: ⟨.log .error message (some err), ()⟩ :: events)
        outcome
  | recorded {step rest err message events outcome} (wired : bus.compensationStore = true)
    (later : Undoing bus command rest events outcome)
    : Undoing bus command (step :: rest)
        (⟨.undo step.undo, .error err⟩ :: ⟨.log .error message (some err), ()⟩
          :: ⟨.recordFailed command.name step.action err, .ok ()⟩ :: events)
        outcome
  | unrecorded {step rest err message thrown} (wired : bus.compensationStore = true)
    : Undoing bus command (step :: rest)
        [⟨.undo step.undo, .error err⟩, ⟨.log .error message (some err), ()⟩,
          ⟨.recordFailed command.name step.action err, .error thrown⟩]
        (.error thrown)

/-- Every complete run of the compensation loop is one of these, by induction on the stack.
-/
theorem compensate_runs {stack : List CommandBus.Compensation}
    {outcome : Except Thrown Unit}
    (run : Finishes (bus.compensate command stack) events outcome)
    : Undoing bus command stack events outcome := by
  induction stack generalizing events with
  | nil =>
      simp only [CommandBus.compensate, Program.pure_eq, finishes_done] at run
      obtain ⟨rfl, rfl⟩ := run
      exact .nil
  | cons first rest ih =>
      obtain ⟨action, undo⟩ := first
      simp [CommandBus.compensate, call] at run
      obtain ⟨undone, later, rfl, run⟩ := run
      cases undone with
      | ok _ => exact .undone (ih (by simpa using run))
      | error err =>
          simp at run
          obtain ⟨_, later, rfl, run⟩ := run
          cases wired : bus.compensationStore with
          | false => exact .dropped wired (ih (by simpa [wired] using run))
          | true =>
              simp [wired] at run
              obtain ⟨stored, later, rfl, run⟩ := run
              cases stored with
              | ok _ => exact .recorded wired (ih (by simpa using run))
              | error thrown =>
                  simp at run
                  obtain ⟨rfl, rfl⟩ := run
                  exact .unrecorded wired

/-- A stack whose store keeps its contract is undone completely, whatever its closures
throw; witness: induction on the ways it is undone.
-/
theorem Undoing.complete {stack : List CommandBus.Compensation}
    {outcome : Except Thrown Unit} (undoing : Undoing bus command stack events outcome)
    (kept : ∀ event ∈ events, storeFails event = false)
    : outcome = .ok ()
      ∧ ∃ replies : List (Except Thrown Unit),
          replies.length = stack.length
          ∧ compensations events = (stack.zip replies).flatMap (undoSteps bus command) := by
  induction undoing with
  | nil => exact ⟨rfl, [], rfl, rfl⟩
  | @undone step rest events outcome later ih =>
      obtain ⟨ended, replies, sized, trace⟩ :=
        ih (fun event member => kept event (by simp [member]))
      refine ⟨ended, .ok () :: replies, by simp [sized], ?_⟩
      simp [compensations, compensating, undoSteps, ← trace]
  | @dropped step rest err message events outcome unwired later ih =>
      obtain ⟨ended, replies, sized, trace⟩ :=
        ih (fun event member => kept event (by simp [member]))
      refine ⟨ended, .error err :: replies, by simp [sized], ?_⟩
      simp [compensations, compensating, undoSteps, unwired, ← trace]
  | @recorded step rest err message events outcome wired later ih =>
      obtain ⟨ended, replies, sized, trace⟩ :=
        ih (fun event member => kept event (by simp [member]))
      refine ⟨ended, .error err :: replies, by simp [sized], ?_⟩
      simp [compensations, compensating, undoSteps, wired, ← trace]
  | unrecorded wired => simp [storeFails] at kept

-----------------------------------------------------------------------------------------
-- The saga as its caller sees it
-----------------------------------------------------------------------------------------

/-- A saga behaves as its handler did, whose calls the bus has carried out at the start of the
run: it settles as the handler did, undoes nothing where that resolved, and otherwise undoes
the registered steps latest first, each once, recording exactly those whose closure threw.
-/
def CompensatesInReverse (bus : CommandBus) (command : Command) (handler : SagaHandler)
    (events : List BusEvent) (outcome : Except Thrown Value)
    : Prop :=
  ∃ calls handled later,
    Finishes (handler.execute command) calls outcome
    ∧ CarriedOut bus command calls handled
    ∧ events = executing command ++ (handled ++ later)
    ∧ match outcome with
      | .ok _ => compensations events = []
      | .error _ =>
          ∃ replies : List (Except Thrown Unit),
            replies.length = (registrations calls).length
            ∧ compensations events
              = ((registrations calls).reverse.zip replies).flatMap (undoSteps bus command)

/-- Executing a saga compensates in reverse and passes its own error on, as long as the
store keeps its contract; witness: the handler's run and then the ways its stack is undone.
-/
theorem execute_compensatesInReverse {handler : SagaHandler}
    {outcome : Except Thrown Value}
    (registered : bus.handler? command = some (.saga handler))
    (kept : ∀ event ∈ events, storeFails event = false)
    (run : Finishes (bus.execute command) events outcome)
    : CompensatesInReverse bus command handler events outcome := by
  simp only [CommandBus.execute, registered] at run
  obtain ⟨inner, closing, rfl, logged, ran⟩ := withLogging_calls run
  have opens : compensations (executing command) = [] :=
    compensations_logs (by simp [executing, IsLog])
  have closes : compensations [closing] = [] := compensations_logs (by simpa using logged)
  rw [CommandBus.runSaga, Program.bind_eq, finishes_bind] at ran
  rcases ran with ⟨error, rfl, failed⟩ | ⟨⟨ended, stack⟩, handled, tail, rfl, head, ran⟩
  · obtain ⟨_, _, _, absurd, _⟩ := runHandler_runs failed
    cases absurd
  · obtain ⟨calls, ended', finished, same, carriedOut⟩ := runHandler_runs head
    cases same
    have silent := carriedOut.silent
    cases ended with
    | ok result =>
        simp only [Program.pure_eq, finishes_done] at ran
        obtain ⟨rfl, rfl⟩ := ran
        refine ⟨calls, handled, [closing], finished, carriedOut, by simp, ?_⟩
        simp [opens, closes, silent]
    | error error =>
        simp only [Program.bind_eq, Program.throw_eq] at ran
        rw [finishes_bind] at ran
        rcases ran with ⟨thrown, rfl, stopped⟩ | ⟨_, undos, rest, rfl, undone, thrown⟩
        · have undoing := compensate_runs stopped
          obtain ⟨absurd, _⟩ :=
            undoing.complete (fun event member => kept event (by simp [member]))
          cases absurd
        · simp only [finishes_fail] at thrown
          obtain ⟨rfl, rfl⟩ := thrown
          have undoing := compensate_runs undone
          obtain ⟨_, replies, sized, trace⟩ :=
            undoing.complete (fun event member => kept event (by simp [member]))
          refine ⟨calls, handled, undos ++ [closing], finished, carriedOut, by simp, replies,
            by simpa using sized, ?_⟩
          simpa [opens, closes, silent] using trace

/-- A description of a sample step. -/
def sampleAction (type : String) : CompensationAction :=
  { type, payload := .null }

/-- A saga that registers two steps and then fails. -/
def sampleSaga : SagaHandler :=
  {
    dispatches := []
    execute := fun _ =>
      .await (.onCompensate (sampleAction "remove-user") 1) (fun _ =>
        .await (.onCompensate (sampleAction "remove-org") 2) (fun _ =>
          .fail (.error .error "quota exceeded")))
  }

/-- A bus with one saga and a compensation store. -/
def sagaBus : CommandBus :=
  {
    handlers := [("ProvisionOrg", .saga sampleSaga)]
    isTransient := fun _ => false
    maxRetries := 3
    baseDelayMs := .ofNat 100
    maxDelayMs := .ofNat 2000
    compensationStore := true
  }

/-- The later step is undone first, its failure is recorded, and the earlier step is undone
all the same.
-/
theorem execute_compensatesInReverse_sample
    : let unreachable : Thrown := .error .error "auth-service unreachable"
      CompensatesInReverse sagaBus ⟨"ProvisionOrg", .null⟩ sampleSaga
        [⟨.log .info "Executing ProvisionOrg..." none, ()⟩,
          ⟨.log .debug "Input for ProvisionOrg" none, ()⟩,
          ⟨.undo 2, .error unreachable⟩,
          ⟨.log .error
            "Compensation step failed for ProvisionOrg — manual cleanup may be needed"
            (some unreachable), ()⟩,
          ⟨.recordFailed "ProvisionOrg" (sampleAction "remove-org") unreachable, .ok ()⟩,
          ⟨.undo 1, .ok ()⟩,
          ⟨.log .error "Failed to execute ProvisionOrg"
            (some (.error .error "quota exceeded")), ()⟩]
        (.error (.error .error "quota exceeded")) :=
  execute_compensatesInReverse rfl (by simp [storeFails])
    (.step _ (.step _ (.step _ (.step _ (.step _ (.step _ (.step _ (.refl _))))))))

end SharedKernel.Cqrs
