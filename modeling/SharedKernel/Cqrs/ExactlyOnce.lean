import SharedKernel.Cqrs.CommandBus

/-! A transactional command takes effect exactly once or not at all: the attempts, commits,
hooks and observations of every run of its pipeline.
-/

namespace SharedKernel.Cqrs

open Foundation Js

variable {bus : CommandBus} {command : Command} {handler : TransactionalHandler}
  {events : List BusEvent} {outcome : Except Thrown Value}

-----------------------------------------------------------------------------------------
-- An observer of the database and of the hooks
-----------------------------------------------------------------------------------------

/-- An attempt that has ended: whether its transaction was opened, the statements run in it,
each with its reply, the commit that was refused, and the result it committed or the error it
was rolled back with.
-/
structure Attempt where
  opened : Bool
  statements : List (Event TxEffects)
  refused : Option (Value × Thrown)
  ended : Except Thrown Value

/-- What a statement writes. -/
def written? : Event TxEffects → Option Json
  | ⟨.write statement, .ok _⟩ => some statement
  | _ => none

/-- The writes of the attempt. -/
def Attempt.writes (attempt : Attempt) : List Json :=
  attempt.statements.filterMap written?

/-- The attempt ran `body` once, in a transaction of its own, and asked to commit what `body`
returned: nothing ran where no transaction could be opened.
-/
inductive Attempt.Ran (body : TxProgram Value) : Attempt → Prop
  | unopened (error : Thrown) : Ran body ⟨false, [], none, .error error⟩
  | threw {statements error} (ran : Finishes body statements (.error error))
    : Ran body ⟨true, statements, none, .error error⟩
  | refused {statements result} (ran : Finishes body statements (.ok result)) (error : Thrown)
    : Ran body ⟨true, statements, some (result, error), .error error⟩
  | committed {statements result} (ran : Finishes body statements (.ok result))
    : Ran body ⟨true, statements, none, .ok result⟩

/-- A commit, or a call of the hook that runs after it. -/
inductive Milestone where
  | committed (result : Value)
  | afterCommit (command : Command) (result : Value)

/-- What a history did, in order: the transactions it opened and ended, all statements, those of
the open transaction and the commit of it that was refused, the commits and hooks, and the
observations of failed attempts.
-/
structure Ledger where
  opened : Nat
  issued : List (Event TxEffects)
  pending : List (Event TxEffects)
  refused : Option (Value × Thrown)
  ended : List Attempt
  milestones : List Milestone
  observations : List (Thrown × Bool)

namespace Ledger

/-- The ledger once a transaction is asked for. -/
def begun (ledger : Ledger) : Ledger :=
  { ledger with opened := ledger.opened + 1, pending := [], refused := none }

/-- The ledger once an attempt has ended. -/
def close (ledger : Ledger) (attempt : Attempt) : Ledger :=
  { ledger with pending := [], refused := none, ended := ledger.ended ++ [attempt] }

/-- The ledger once a failed attempt is observed. -/
def observe (ledger : Ledger) (error : Thrown) (retried : Bool) : Ledger :=
  { ledger with observations := ledger.observations ++ [(error, retried)] }

/-- The ledger after one more event. -/
def step (ledger : Ledger) : BusEvent → Ledger
  | ⟨.begin, .ok _⟩ => ledger.begun
  | ⟨.begin, .error error⟩ => ledger.begun.close ⟨false, [], none, .error error⟩
  | ⟨.statement op, reply⟩ =>
      {
        ledger with
        issued := ledger.issued ++ [⟨op, reply⟩]
        pending := ledger.pending ++ [⟨op, reply⟩]
      }
  | ⟨.commit result, .ok _⟩ =>
      {
        ledger.close ⟨true, ledger.pending, ledger.refused, .ok result⟩ with
        milestones := ledger.milestones ++ [.committed result]
      }
  | ⟨.commit result, .error error⟩ => { ledger with refused := some (result, error) }
  | ⟨.rollback error, _⟩ =>
      ledger.close ⟨true, ledger.pending, ledger.refused, .error error⟩
  | ⟨.afterCommit command result, _⟩ =>
      { ledger with milestones := ledger.milestones ++ [.afterCommit command result] }
  | ⟨.recordObservation error retried, _⟩ => ledger.observe error retried
  | _ => ledger

/-- The ledger after a history. -/
def after (ledger : Ledger) (events : List BusEvent) : Ledger :=
  events.foldl step ledger

/-- The ledger of a history from the start. -/
def of (events : List BusEvent) : Ledger :=
  after ⟨0, [], [], none, [], [], []⟩ events

@[simp] theorem after_nil (ledger : Ledger) : ledger.after [] = ledger := rfl

@[simp] theorem after_cons (ledger : Ledger) (event : BusEvent) (rest : List BusEvent)
    : ledger.after (event :: rest) = (ledger.step event).after rest :=
  rfl

@[simp] theorem step_recordObservation (ledger : Ledger) (error : Thrown) (retried : Bool)
    (reply : Unit)
    : ledger.step ⟨.recordObservation error retried, reply⟩ = ledger.observe error retried :=
  rfl

@[simp] theorem after_append (ledger : Ledger) (head tail : List BusEvent)
    : ledger.after (head ++ tail) = (ledger.after head).after tail :=
  List.foldl_append

/-- The writes that took effect: those of the committed transactions. -/
def committed (ledger : Ledger) : List Json :=
  ledger.ended.flatMap (fun attempt =>
    match attempt.ended with
    | .ok _ => attempt.writes
    | .error _ => [])

end Ledger

/-- The attempt failed with an error classified as transient. -/
def CommandBus.transientFailure (bus : CommandBus) (attempt : Attempt) : Bool :=
  match attempt.ended with
  | .ok _ => false
  | .error error => bus.isTransient error

/-- One observation for each failed attempt, retried where another attempt follows. -/
def observationsOf : List Attempt → List (Thrown × Bool)
  | [] => []
  | attempt :: rest =>
      match attempt.ended with
      | .ok _ => observationsOf rest
      | .error error => (error, !rest.isEmpty) :: observationsOf rest

/-- The commit of an outcome, and then the hook where it exists. -/
def reached (command : Command) (hook : Bool) : Except Thrown Value → List Milestone
  | .ok result => .committed result :: if hook then [.afterCommit command result] else []
  | .error _ => []

/-- A command takes effect once or not at all: every attempt has a transaction of its own and
runs the handler in it once, nothing is run besides, attempts stop at the first that is not a
transient failure or at the budget, the outcome is that of the last attempt, whose writes alone
are committed, the hook follows its commit once, and every failed attempt is observed once.
-/
structure TakesEffectOnce (bus : CommandBus) (command : Command) (handler : TransactionalHandler)
    (events : List BusEvent) (outcome : Except Thrown Value)
    : Prop where
  opened : (Ledger.of events).opened = (Ledger.of events).ended.length
  ran : ∀ attempt ∈ (Ledger.of events).ended, attempt.Ran (handler.execute command)
  issued : (Ledger.of events).issued = (Ledger.of events).ended.flatMap Attempt.statements
  budget
    : (Ledger.of events).ended.length
      = min (bus.maxRetries + 1)
          ((Ledger.of events).ended.findIdx (fun attempt => !bus.transientFailure attempt) + 1)
  resolves
    : ∀ result,
        outcome = .ok result ↔ ∃ attempt ∈ (Ledger.of events).ended, attempt.ended = .ok result
  last
    : ∃ earlier last,
        (Ledger.of events).ended = earlier ++ [last]
        ∧ outcome = last.ended
        ∧ (∀ attempt ∈ earlier, ∃ error, attempt.ended = .error error)
        ∧ (Ledger.of events).committed
          = match last.ended with
            | .ok _ => last.writes
            | .error _ => []
  hooked : (Ledger.of events).milestones = reached command handler.afterCommit outcome
  observed : (Ledger.of events).observations = observationsOf (Ledger.of events).ended

-----------------------------------------------------------------------------------------
-- One attempt
-----------------------------------------------------------------------------------------

/-- The calls of statements. -/
def statementCalls (statements : List (Event TxEffects)) : List BusEvent :=
  statements.map (fun event => ⟨.statement event.op, event.reply⟩)

/-- A body carried out in the open transaction calls its own statements, by induction on it. -/
theorem finishes_statements {body : TxProgram Value}
    (run : Finishes (body.translate (fun op => call (.statement op))) events outcome)
    : ∃ statements, Finishes body statements outcome ∧ events = statementCalls statements := by
  induction body generalizing events with
  | done value =>
      obtain ⟨rfl, rfl⟩ := (finishes_done ..).mp run
      exact ⟨[], (finishes_done ..).mpr ⟨rfl, rfl⟩, rfl⟩
  | fail error =>
      obtain ⟨rfl, rfl⟩ := (finishes_fail ..).mp run
      exact ⟨[], (finishes_fail ..).mpr ⟨rfl, rfl⟩, rfl⟩
  | await op resume ih =>
      simp only [Program.translate, call, Program.perform_eq, Program.await_bind,
        Program.done_bind, finishes_await] at run
      obtain ⟨reply, rest, rfl, run⟩ := run
      obtain ⟨statements, ran, rfl⟩ := ih reply run
      exact ⟨⟨op, reply⟩ :: statements, (finishes_await ..).mpr ⟨reply, _, rfl, ran⟩, rfl⟩

/-- Statements are issued and pending, by induction on them. -/
theorem Ledger.after_statements (statements : List (Event TxEffects)) (ledger : Ledger)
    : ledger.after (statementCalls statements)
      = {
          ledger with
          issued := ledger.issued ++ statements
          pending := ledger.pending ++ statements
        } := by
  induction statements generalizing ledger with
  | nil => simp [statementCalls]
  | cons event rest ih =>
      have here : ledger.step ⟨.statement event.op, event.reply⟩
          = {
              ledger with
              issued := ledger.issued ++ [event]
              pending := ledger.pending ++ [event]
            } :=
        rfl
      rw [statementCalls, List.map_cons, Ledger.after_cons, here]
      exact (ih _).trans (by simp)

/-- The ledger after one attempt: one transaction opened and ended, with its milestones. -/
def Ledger.attempted (ledger : Ledger) (attempt : Attempt) (milestones : List Milestone)
    : Ledger :=
  {
    ledger.begun.close attempt with
    issued := ledger.issued ++ attempt.statements
    milestones := ledger.milestones ++ milestones
  }

/-- The ledger after a body in a new transaction, committed if it returned. -/
def Ledger.carriedOut (ledger : Ledger) (statements : List (Event TxEffects))
    (refused : Option (Value × Thrown))
    : Except Thrown Value → Ledger
  | .ok result => ledger.attempted ⟨true, statements, refused, .ok result⟩ [.committed result]
  | .error _ =>
      { ledger.begun with issued := ledger.issued ++ statements, pending := statements, refused }

/-- A body in the open transaction, and then its commit if it returns. -/
theorem runAndCommit_ledger {body : TxProgram Value}
    (run : Finishes (runAndCommit body) events outcome)
    : ∃ statements refused,
        Attempt.Ran body ⟨true, statements, refused, outcome⟩
        ∧ ∀ ledger : Ledger,
            ledger.begun.after events = ledger.carriedOut statements refused outcome := by
  rw [runAndCommit, Program.bind_eq, finishes_bind] at run
  rcases run with ⟨error, rfl, ran⟩ | ⟨result, head, tail, rfl, ran, run⟩
  · obtain ⟨statements, threw, rfl⟩ := finishes_statements ran
    exact ⟨statements, none, .threw threw, fun ledger => Ledger.after_statements ..⟩
  · obtain ⟨statements, returned, rfl⟩ := finishes_statements ran
    simp only [call, Program.bind_eq, Program.perform_eq, Program.await_bind,
      Program.done_bind, finishes_await] at run
    obtain ⟨committed, rest, rfl, run⟩ := run
    cases committed with
    | error error =>
        simp only [Program.settle_error, Program.fail_bind, finishes_fail] at run
        obtain ⟨rfl, rfl⟩ := run
        refine ⟨statements, some (result, error), .refused returned error, fun ledger => ?_⟩
        simp [Ledger.after_statements, Ledger.step, Ledger.begun, Ledger.carriedOut]
    | ok _ =>
        simp only [Program.settle_ok, Program.done_bind, Program.pure_eq, finishes_done] at run
        obtain ⟨rfl, rfl⟩ := run
        refine ⟨statements, none, .committed returned, fun ledger => ?_⟩
        simp [Ledger.after_statements, Ledger.step, Ledger.begun, Ledger.attempted, Ledger.close,
          Ledger.carriedOut]

/-- `txRunner.run` is one attempt, and it resolves exactly when its transaction commits. -/
theorem txRunnerRun_ledger {body : TxProgram Value} (command : Command)
    (run : Finishes (txRunnerRun body) events outcome)
    : ∃ attempt : Attempt,
        attempt.Ran body
        ∧ attempt.ended = outcome
        ∧ ∀ ledger : Ledger,
            ledger.after events = ledger.attempted attempt (reached command false outcome) := by
  simp only [txRunnerRun, call, Program.bind_eq, Program.perform_eq, Program.await_bind,
    Program.done_bind, finishes_await] at run
  obtain ⟨opened, rest, rfl, run⟩ := run
  cases opened with
  | error error =>
      simp only [Program.settle_error, Program.fail_bind, finishes_fail] at run
      obtain ⟨rfl, rfl⟩ := run
      refine ⟨_, .unopened error, rfl, fun ledger => ?_⟩
      simp [Ledger.step, Ledger.attempted, Ledger.begun, Ledger.close, reached]
  | ok _ =>
      simp only [Program.settle_ok, Program.done_bind, Program.tryCatch_eq,
        finishes_handle] at run
      rcases run with ⟨result, rfl, ran⟩ | ⟨error, head, tail, rfl, failed, caught⟩
      · obtain ⟨statements, refused, ran, known⟩ := runAndCommit_ledger ran
        exact ⟨_, ran, rfl, known⟩
      · obtain ⟨statements, refused, ran, known⟩ := runAndCommit_ledger failed
        simp only [finishes_await, Program.throw_eq, finishes_fail] at caught
        obtain ⟨_, _, rfl, rfl, rfl⟩ := caught
        refine ⟨_, ran, rfl, fun ledger => ?_⟩
        rw [Ledger.after_cons, Ledger.after_append]
        exact (congrArg (Ledger.after · _) (known ledger)).trans
          (by simp [Ledger.step, Ledger.attempted, Ledger.begun, Ledger.close, Ledger.carriedOut,
            reached])

/-- One attempt of the command, followed by its hook where it has committed. -/
theorem runTransactional_ledger
    (run : Finishes (runTransactional command handler) events outcome)
    : ∃ attempt : Attempt,
        attempt.Ran (handler.execute command)
        ∧ attempt.ended = outcome
        ∧ ∀ ledger : Ledger,
            ledger.after events
            = ledger.attempted attempt (reached command handler.afterCommit outcome) := by
  simp only [runTransactional, Program.bind_eq, finishes_bind] at run
  rcases run with ⟨error, rfl, ran⟩ | ⟨result, head, tail, rfl, ran, run⟩
  · exact txRunnerRun_ledger command ran
  · obtain ⟨attempt, once, ended, known⟩ := txRunnerRun_ledger command ran
    cases hook : handler.afterCommit with
    | false =>
        simp [hook] at run
        obtain ⟨rfl, rfl⟩ := run
        exact ⟨attempt, once, ended, fun ledger => by simp [known]⟩
    | true =>
        simp [hook, call] at run
        obtain ⟨hooked, rest, rfl, run⟩ := run
        cases hooked with
        | ok _ =>
            simp at run
            obtain ⟨rfl, rfl⟩ := run
            refine ⟨attempt, once, ended, fun ledger => ?_⟩
            simp [known, Ledger.step, Ledger.attempted, Ledger.close, reached]
        | error err =>
            simp at run
            obtain ⟨⟨_, rfl⟩, rfl⟩ := run
            refine ⟨attempt, once, ended, fun ledger => ?_⟩
            simp [known, Ledger.step, Ledger.attempted, Ledger.close, reached]

-----------------------------------------------------------------------------------------
-- The retry loop
-----------------------------------------------------------------------------------------

/-- The law of the retry loop: a committed attempt ends it, a failed one ends it unless the
failure is transient and a retry remains.
-/
inductive Retries (bus : CommandBus) : Nat → List Attempt → Except Thrown Value → Prop
  | committed {remaining attempt result} (ended : attempt.ended = .ok result)
    : Retries bus remaining [attempt] (.ok result)
  | rejected {remaining attempt error} (ended : attempt.ended = .error error)
    (final : bus.isTransient error = false ∨ remaining = 0)
    : Retries bus remaining [attempt] (.error error)
  | retried {remaining attempt error rest outcome} (ended : attempt.ended = .error error)
    (transient : bus.isTransient error = true) (later : Retries bus remaining rest outcome)
    : Retries bus (remaining + 1) (attempt :: rest) outcome

/-- Some attempt is always made. -/
theorem Retries.ne_nil {remaining : Nat} {attempts : List Attempt}
    (retries : Retries bus remaining attempts outcome)
    : attempts ≠ [] := by
  cases retries <;> simp

/-- The attempts are as many as the budget allows, or end at the first that is not a
transient failure, by induction on the retries.
-/
theorem Retries.length {remaining : Nat} {attempts : List Attempt}
    (retries : Retries bus remaining attempts outcome)
    : attempts.length
      = min (remaining + 1)
          (attempts.findIdx (fun attempt => !bus.transientFailure attempt) + 1) := by
  induction retries with
  | committed ended => simp [CommandBus.transientFailure, ended]
  | rejected ended final =>
      rcases final with lasting | rfl
      · simp [CommandBus.transientFailure, ended, lasting]
      · simp
  | retried ended transient later ih =>
      simp only [CommandBus.transientFailure, ended, transient, List.findIdx_cons,
        List.length_cons, Bool.not_true, cond_false] at ih ⊢
      omega

/-- The outcome is that of the last attempt, after failed ones, by induction on the retries.
-/
theorem Retries.last {remaining : Nat} {attempts : List Attempt}
    (retries : Retries bus remaining attempts outcome)
    : ∃ earlier last,
        attempts = earlier ++ [last]
        ∧ outcome = last.ended
        ∧ ∀ attempt ∈ earlier, ∃ error, attempt.ended = .error error := by
  induction retries with
  | committed ended => exact ⟨[], _, rfl, ended.symm, by simp⟩
  | rejected ended final => exact ⟨[], _, rfl, ended.symm, by simp⟩
  | @retried remaining attempt error rest outcome ended transient later ih =>
      obtain ⟨earlier, last, rfl, same, failed⟩ := ih
      refine ⟨attempt :: earlier, last, rfl, same, ?_⟩
      intro other member
      rcases List.mem_cons.mp member with rfl | old
      · exact ⟨error, ended⟩
      · exact failed other old

/-- The wait between two attempts is only a wait. -/
theorem backOff_ledger {attempt : Nat} {outcome : Except Thrown Unit}
    (run : Finishes (bus.backOff command attempt) events outcome)
    : outcome = .ok () ∧ ∀ ledger : Ledger, ledger.after events = ledger := by
  simp only [CommandBus.backOff, call, Program.bind_eq, Program.perform_eq,
    Program.await_bind, Program.done_bind, finishes_await, finishes_done] at run
  obtain ⟨_, _, rfl, _, _, rfl, _, _, rfl, rfl, rfl⟩ := run
  exact ⟨rfl, fun ledger => by simp [Ledger.step]⟩

/-- A ledger after all attempts of a command. -/
def Ledger.settled (ledger : Ledger) (attempts : List Attempt) (milestones : List Milestone)
    : Ledger :=
  {
    opened := ledger.opened + attempts.length
    issued := ledger.issued ++ attempts.flatMap Attempt.statements
    pending := []
    refused := none
    ended := ledger.ended ++ attempts
    milestones := ledger.milestones ++ milestones
    observations := ledger.observations ++ observationsOf attempts
  }

/-- A ledger after one attempt that ends the loop: the failed one is observed. -/
theorem Ledger.settled_single (ledger : Ledger) {attempt : Attempt} (milestones : List Milestone)
    : ledger.settled [attempt] milestones
      = match attempt.ended with
        | .ok _ => ledger.attempted attempt milestones
        | .error error => (ledger.attempted attempt milestones).observe error false := by
  cases ended : attempt.ended <;>
    simp [settled, attempted, begun, close, observe, observationsOf, ended]

/-- A ledger after an attempt that is retried, observed as such, and the later ones. -/
theorem Ledger.settled_retried (ledger : Ledger) {attempt : Attempt} {error : Thrown}
    {rest : List Attempt} (ended : attempt.ended = .error error) (more : rest ≠ [])
    (milestones : List Milestone)
    : ledger.settled (attempt :: rest) milestones
      = ((ledger.attempted attempt []).observe error true).settled rest milestones := by
  simp [settled, attempted, begun, close, observe, observationsOf, ended, more, Nat.add_assoc,
    Nat.add_comm 1]

/-- The retry loop follows its law, one attempt a round; witness: induction on the retries
that remain, where the round that fails transiently leaves one less.
-/
theorem retryLoop_ledger {hook : Bool} {next : BusProgram Value} {kind : Attempt → Prop}
    (single
      : ∀ events outcome,
          Finishes next events outcome
          → ∃ attempt,
              kind attempt
              ∧ attempt.ended = outcome
              ∧ ∀ ledger : Ledger,
                  ledger.after events = ledger.attempted attempt (reached command hook outcome))
    {attempt remaining : Nat} (within : attempt + remaining = bus.maxRetries)
    (run : Finishes (bus.retryLoop command next attempt (remaining + 1)) events outcome)
    : ∃ attempts,
        Retries bus remaining attempts outcome
        ∧ (∀ attempt ∈ attempts, kind attempt)
        ∧ ∀ ledger : Ledger,
            ledger.after events = ledger.settled attempts (reached command hook outcome) := by
  induction remaining generalizing attempt events with
  | zero =>
      rw [CommandBus.retryLoop, Program.tryCatch_eq, finishes_handle] at run
      rcases run with ⟨result, rfl, ran⟩ | ⟨error, head, tail, rfl, failed, caught⟩
      · obtain ⟨made, ofKind, ended, known⟩ := single _ _ ran
        refine ⟨[made], .committed ended, by simpa using ofKind, fun ledger => ?_⟩
        simp [known, Ledger.settled_single, ended]
      · obtain ⟨made, ofKind, ended, known⟩ := single _ _ failed
        have exhausted : ¬ attempt + 1 ≤ bus.maxRetries := by omega
        have stays : (bus.isTransient error && decide (attempt + 1 ≤ bus.maxRetries)) = false := by
          simp only [exhausted, decide_false, Bool.and_false]
        simp only [call, stays, Program.bind_eq, Program.perform_eq, Program.await_bind,
          Program.done_bind, Bool.not_false, if_true, Program.throw_eq, Program.fail_bind,
          finishes_await, finishes_fail] at caught
        obtain ⟨_, _, rfl, rfl, rfl⟩ := caught
        refine ⟨[made], .rejected ended (Or.inr rfl), by simpa using ofKind, fun ledger => ?_⟩
        simp [known, Ledger.settled_single, ended, exhausted]
  | succ remaining ih =>
      rw [CommandBus.retryLoop, Program.tryCatch_eq, finishes_handle] at run
      rcases run with ⟨result, rfl, ran⟩ | ⟨error, head, tail, rfl, failed, caught⟩
      · obtain ⟨made, ofKind, ended, known⟩ := single _ _ ran
        refine ⟨[made], .committed ended, by simpa using ofKind, fun ledger => ?_⟩
        simp [known, Ledger.settled_single, ended]
      · obtain ⟨made, ofKind, ended, known⟩ := single _ _ failed
        have remains : attempt + 1 ≤ bus.maxRetries := by omega
        cases transient : bus.isTransient error with
        | false =>
            simp only [call, transient, Bool.false_and, Program.bind_eq, Program.perform_eq,
              Program.await_bind, Program.done_bind, Bool.not_false, if_true,
              Program.throw_eq, Program.fail_bind, finishes_await, finishes_fail] at caught
            obtain ⟨_, _, rfl, rfl, rfl⟩ := caught
            refine ⟨[made], .rejected ended (Or.inl transient), by simpa using ofKind,
              fun ledger => ?_⟩
            simp [known, Ledger.settled_single, ended, transient]
        | true =>
            simp [call, transient, remains] at caught
            obtain ⟨_, rest, rfl, caught⟩ := caught
            rw [finishes_bind] at caught
            rcases caught with ⟨_, rfl, waited⟩ | ⟨_, waits, later, rfl, waited, again⟩
            · exact absurd (backOff_ledger waited).1 (by simp)
            · obtain ⟨attempts, retries, ofKinds, counted⟩ := ih (by omega) again
              refine ⟨made :: attempts, .retried ended transient retries, ?_, ?_⟩
              · simpa [ofKind] using ofKinds
              · intro ledger
                rw [Ledger.settled_retried ledger ended retries.ne_nil, Ledger.after_append, known,
                  Ledger.after_cons, Ledger.after_append, (backOff_ledger waited).2, counted]
                simp [transient, remains, reached]

-----------------------------------------------------------------------------------------
-- The whole pipeline
-----------------------------------------------------------------------------------------

/-- Calls of the logger leave the ledger as it is, by induction on them. -/
theorem Ledger.after_logs {events : List BusEvent} (logs : ∀ event ∈ events, IsLog event)
    (ledger : Ledger)
    : ledger.after events = ledger := by
  induction events with
  | nil => rfl
  | cons event rest ih =>
      obtain ⟨op, reply⟩ := event
      obtain ⟨level, message, err, same⟩ := logs ⟨op, reply⟩ (by simp)
      simp only at same
      subst same
      exact ih (fun event member => logs event (by simp [member]))

/-- The pipeline makes the attempts of the retry law and settles on the last of them. -/
theorem executeTransactional_ledger
    (run : Finishes (bus.executeTransactional command handler) events outcome)
    : ∃ attempts,
        Retries bus bus.maxRetries attempts outcome
        ∧ (∀ attempt ∈ attempts, attempt.Ran (handler.execute command))
        ∧ ∀ ledger : Ledger,
            ledger.after events
            = ledger.settled attempts (reached command handler.afterCommit outcome) := by
  obtain ⟨opening, inner, closing, rfl, opens, closes, ran⟩ := withLogging_runs run
  obtain ⟨attempts, retries, handled, counted⟩ :=
    retryLoop_ledger (fun _ _ ran => runTransactional_ledger ran) (Nat.zero_add _) ran
  refine ⟨attempts, retries, handled, fun ledger => ?_⟩
  simp only [Ledger.after_append, Ledger.after_logs opens, Ledger.after_logs closes, counted]

/-- Failed attempts leave nothing committed. -/
theorem flatMap_writes_failed {attempts : List Attempt}
    (failed : ∀ attempt ∈ attempts, ∃ error, attempt.ended = .error error)
    : attempts.flatMap (fun attempt =>
        match attempt.ended with
        | .ok _ => attempt.writes
        | .error _ => []) = [] := by
  rw [List.flatMap_eq_nil_iff]
  intro attempt member
  obtain ⟨error, ended⟩ := failed attempt member
  simp [ended]

/-- Executing a command with a transactional handler takes effect once or not at all;
witness: the retry law of its attempts, read off the ledger.
-/
theorem execute_takesEffectOnce
    (registered : bus.handler? command = some (.transactional handler))
    (run : Finishes (bus.execute command) events outcome)
    : TakesEffectOnce bus command handler events outcome := by
  simp only [CommandBus.execute, registered] at run
  obtain ⟨attempts, retries, handled, counted⟩ := executeTransactional_ledger run
  obtain ⟨earlier, last, rfl, ended, failed⟩ := retries.last
  have ledger
      : Ledger.of events
        = Ledger.settled ⟨0, [], [], none, [], [], []⟩ (earlier ++ [last])
            (reached command handler.afterCommit outcome) :=
    counted _
  constructor
  · simp [ledger, Ledger.settled]
  · intro attempt member
    rw [ledger] at member
    exact handled attempt member
  · simp [ledger, Ledger.settled]
  · simpa [ledger, Ledger.settled] using retries.length
  · intro result
    simp only [ledger, Ledger.settled, List.nil_append, List.mem_append, List.mem_singleton,
      ended]
    constructor
    · intro resolved
      exact ⟨last, Or.inr rfl, resolved⟩
    · rintro ⟨attempt, old | rfl, committed⟩
      · obtain ⟨error, rejected⟩ := failed attempt old
        simp [rejected] at committed
      · exact committed
  · refine ⟨earlier, last, by simp [ledger, Ledger.settled], ended, failed, ?_⟩
    simp [ledger, Ledger.settled, Ledger.committed, flatMap_writes_failed failed]
  · simp [ledger, Ledger.settled]
  · simp [ledger, Ledger.settled]

/-- A handler that writes once and has a hook. -/
def sampleHandler : TransactionalHandler :=
  {
    execute := fun _ => .await (.write .null) (fun reply => Program.settle reply)
    afterCommit := true
  }

/-- A bus with one transactional handler. -/
def sampleBus : CommandBus :=
  {
    handlers := [("CreateItem", .transactional sampleHandler)]
    isTransient := fun _ => true
    maxRetries := 3
    baseDelayMs := .ofNat 100
    maxDelayMs := .ofNat 2000
    compensationStore := false
  }

/-- A deadlock. -/
def deadlock : Thrown := .value 0 (some "deadlock")

/-- The wait after the first attempt, where the random number is zero. -/
def deadlockDelay : Number :=
  ((Number.ofNat 0).mul
    (sampleBus.maxDelayMs.min (sampleBus.baseDelayMs.mul (.ofRat (2 ^ (0 + 1 - 1)))))).round

/-- A command whose first attempt deadlocks and whose second commits. -/
def deadlockEvents : List BusEvent :=
  executing ⟨"CreateItem", .null⟩
  ++ [⟨.begin, .ok ()⟩, ⟨.statement (.write .null), .error deadlock⟩, ⟨.rollback deadlock, ()⟩,
    ⟨.recordObservation deadlock true, ()⟩, ⟨.random, .ofNat 0⟩,
    ⟨.log .warn
      ("Command CreateItem failed with transient error; retrying 1/3 after "
        ++ deadlockDelay.toText ++ "ms")
      none, ()⟩,
    ⟨.sleep deadlockDelay, ()⟩,
    ⟨.begin, .ok ()⟩, ⟨.statement (.write .null), .ok none⟩, ⟨.commit none, .ok ()⟩,
    ⟨.afterCommit ⟨"CreateItem", .null⟩ none, .ok ()⟩,
    ⟨.log .info "Successfully executed CreateItem" none, ()⟩]

/-- A command that deadlocks takes effect once, by its second attempt. -/
theorem execute_takesEffectOnce_deadlock
    : TakesEffectOnce sampleBus ⟨"CreateItem", .null⟩ sampleHandler deadlockEvents (.ok none) :=
  execute_takesEffectOnce rfl
    (.step _ (.step _ (.step _ (.step _ (.step _ (.step _ (.step _ (.step _ (.step _ (.step _
      (.step _ (.step _ (.step _ (.step _ (.refl _)))))))))))))))

end SharedKernel.Cqrs
