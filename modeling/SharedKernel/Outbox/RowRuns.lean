import SharedKernel.Outbox.Publisher

/-! The runs of one row of the outbox loop: every way its `try` and its `catch` can end,
and the calls made on the way.
-/

namespace SharedKernel.Outbox

open Foundation Js Messaging

variable {opts : OutboxPublisherOptions} {row : ClaimedOutboxEvent}
  {result : OutboxPollResult} {events : List OutboxEvent}

-----------------------------------------------------------------------------------------
-- Reading a history
-----------------------------------------------------------------------------------------

/-- The events handed to the publisher with what became of each, in order. -/
def handovers (events : List OutboxEvent) : List (CloudEvent × Except Thrown Unit) :=
  events.filterMap fun
    | ⟨.publish envelope, reply⟩ => some (envelope, reply)
    | _ => none

/-- The events handed to the publisher, in order. -/
def attempts (events : List OutboxEvent) : List CloudEvent :=
  (handovers events).map Prod.fst

/-- The rows marked failed, each by its id and attempt count, in order. -/
def failures (events : List OutboxEvent) : List (String × Int) :=
  events.filterMap fun
    | ⟨.markFailed id currentAttempts _ _, _⟩ => some (id, currentAttempts)
    | _ => none

/-- A rejection that leaves the `catch` of its row: recording the failure fails in turn. -/
def escapes : OutboxEvent → Bool
  | ⟨.markFailed _ _ _ _, .error _⟩ | ⟨.onDeadLetter _, .error _⟩ => true
  | ⟨.publish _, .error err⟩ | ⟨.markProcessed _, .error err⟩ => !err.printable
  | _ => false

@[simp] theorem handovers_append (head tail : List OutboxEvent)
    : handovers (head ++ tail) = handovers head ++ handovers tail :=
  List.filterMap_append

@[simp] theorem attempts_append (head tail : List OutboxEvent)
    : attempts (head ++ tail) = attempts head ++ attempts tail := by
  simp [attempts]

@[simp] theorem failures_append (head tail : List OutboxEvent)
    : failures (head ++ tail) = failures head ++ failures tail :=
  List.filterMap_append

-----------------------------------------------------------------------------------------
-- The try block
-----------------------------------------------------------------------------------------

/-- The ways the `try` of a row fails, with the calls made until then. -/
inductive TryFails (opts : OutboxPublisherOptions) (row : ClaimedOutboxEvent)
    : List OutboxEvent → Thrown → Prop
  | unmapped {err} (invalid : toCloudEvent opts row = .error err) : TryFails opts row [] err
  | unpublished {envelope err} (mapped : toCloudEvent opts row = .ok envelope)
    : TryFails opts row [⟨.publish envelope, .error err⟩] err
  | unmarked {envelope err} (mapped : toCloudEvent opts row = .ok envelope)
    : TryFails opts row
        [⟨.publish envelope, .ok ()⟩, ⟨.markProcessed row.id, .error err⟩] err

/-- The `try` publishes the row's envelope and then marks the row, or fails on the way. -/
theorem publishAndMark_runs {outcome : Except Thrown Unit}
    (run : Finishes (publishAndMark opts row) events outcome)
    : (∃ envelope,
        toCloudEvent opts row = .ok envelope
        ∧ events = [⟨.publish envelope, .ok ()⟩, ⟨.markProcessed row.id, .ok ()⟩]
        ∧ outcome = .ok ())
      ∨ ∃ err, TryFails opts row events err ∧ outcome = .error err := by
  cases mapped : toCloudEvent opts row with
  | error err =>
      simp only [publishAndMark, mapped, Program.bind_eq, Program.settle_error,
        Program.fail_bind, finishes_fail] at run
      obtain ⟨rfl, rfl⟩ := run
      exact Or.inr ⟨err, .unmapped mapped, rfl⟩
  | ok envelope =>
      simp [publishAndMark, mapped, call] at run
      obtain ⟨published, rest, rfl, run⟩ := run
      cases published with
      | error err =>
          simp at run
          obtain ⟨rfl, rfl⟩ := run
          exact Or.inr ⟨err, .unpublished mapped, rfl⟩
      | ok _ =>
          simp at run
          subst run
          cases outcome with
          | error err => exact Or.inr ⟨err, .unmarked mapped, rfl⟩
          | ok _ => exact Or.inl ⟨envelope, rfl, rfl, rfl⟩

-----------------------------------------------------------------------------------------
-- The catch block
-----------------------------------------------------------------------------------------

/-- The call that marks a row failed after the thrown value printed as `error`. -/
abbrev OutboxOp.fails (opts : OutboxPublisherOptions) (row : ClaimedOutboxEvent)
    (error : String)
    : OutboxOp :=
  .markFailed row.id row.attempts error opts.maxAttempts

/-- One more failed row in the counters. -/
def OutboxPollResult.withFailure (result : OutboxPollResult) : OutboxPollResult :=
  { result with failed := result.failed + 1 }

/-- One more failed and dead-lettered row in the counters. -/
def OutboxPollResult.withDeadLetter (result : OutboxPollResult) : OutboxPollResult :=
  { result with failed := result.failed + 1, deadLettered := result.deadLettered + 1 }

/-- The `catch` records the failure and returns the counters, for a row whose retry budget
lasts, for one whose budget is exhausted, and for one whose exhaustion is reported.
-/
inductive Recorded (opts : OutboxPublisherOptions) (row : ClaimedOutboxEvent)
    : List OutboxEvent → (OutboxPollResult → OutboxPollResult) → Prop
  | retried {error message err} (alive : isNowDead opts row = false)
    : Recorded opts row
        [⟨.fails opts row error, .ok ()⟩, ⟨.warn message row.id (row.attempts + 1) err, ()⟩]
        OutboxPollResult.withFailure
  | dead {error message err} (dead : isNowDead opts row = true)
    : Recorded opts row
        [⟨.fails opts row error, .ok ()⟩, ⟨.warn message row.id (row.attempts + 1) err, ()⟩]
        OutboxPollResult.withDeadLetter
  | reported {error message err} (dead : isNowDead opts row = true)
    : Recorded opts row
        [⟨.fails opts row error, .ok ()⟩, ⟨.onDeadLetter row.eventType, .ok ()⟩,
          ⟨.warn message row.id (row.attempts + 1) err, ()⟩]
        OutboxPollResult.withDeadLetter

/-- The `catch` throws in turn: the thrown value does not print, `markFailed` rejects, or
the metrics hook throws.
-/
inductive Unrecorded (opts : OutboxPublisherOptions) (row : ClaimedOutboxEvent)
    (err : Thrown)
    : List OutboxEvent → Prop
  | unprintable (silent : err.printable = false) : Unrecorded opts row err []
  | unmarked {error thrown} (printed : err.printable = true)
    : Unrecorded opts row err [⟨.fails opts row error, .error thrown⟩]
  | unreported {error thrown} (printed : err.printable = true)
    : Unrecorded opts row err
        [⟨.fails opts row error, .ok ()⟩, ⟨.onDeadLetter row.eventType, .error thrown⟩]

/-- The `catch` records the failure or throws, by following its calls. -/
theorem recordFailure_runs {err : Thrown} {outcome : Except Thrown OutboxPollResult}
    (run : Finishes (recordFailure opts row result err) events outcome)
    : (err.printable = true
        ∧ ∃ count, Recorded opts row events count ∧ outcome = .ok (count result))
      ∨ Unrecorded opts row err events ∧ ∃ thrown, outcome = .error thrown := by
  cases text : err.toText with
  | error thrown =>
      simp only [recordFailure, text, Program.bind_eq, Program.settle_error,
        Program.fail_bind, finishes_fail] at run
      obtain ⟨rfl, rfl⟩ := run
      exact Or.inr
        ⟨.unprintable (by simp [Thrown.printable, text, Except.isOk, Except.toBool]), thrown, rfl⟩
  | ok error =>
      have printed : err.printable = true := err.printable_iff.mpr ⟨error, text⟩
      simp [recordFailure, text, call] at run
      obtain ⟨marked, rest, rfl, run⟩ := run
      cases marked with
      | error thrown =>
          simp at run
          obtain ⟨rfl, rfl⟩ := run
          exact Or.inr ⟨.unmarked printed, thrown, rfl⟩
      | ok _ =>
          cases dead : isNowDead opts row with
          | false =>
              simp [dead] at run
              obtain ⟨⟨_, rfl⟩, rfl⟩ := run
              exact Or.inl ⟨printed, _, .retried dead, rfl⟩
          | true =>
              cases wired : opts.onDeadLetter with
              | false =>
                  simp [dead, wired] at run
                  obtain ⟨⟨_, rfl⟩, rfl⟩ := run
                  exact Or.inl ⟨printed, _, .dead dead, rfl⟩
              | true =>
                  simp [dead, wired] at run
                  obtain ⟨hook, rest, rfl, run⟩ := run
                  cases hook with
                  | error thrown =>
                      simp at run
                      obtain ⟨rfl, rfl⟩ := run
                      exact Or.inr ⟨.unreported printed, thrown, rfl⟩
                  | ok _ =>
                      simp at run
                      obtain ⟨⟨_, rfl⟩, rfl⟩ := run
                      exact Or.inl ⟨printed, _, .reported dead, rfl⟩

-----------------------------------------------------------------------------------------
-- One row, and the whole batch
-----------------------------------------------------------------------------------------

/-- One more published row in the counters. -/
def OutboxPollResult.withPublished (result : OutboxPollResult) : OutboxPollResult :=
  { result with published := result.published + 1 }

/-- The ways one row of the batch ends: published, failed and recorded, or escaping. -/
inductive RowRun (opts : OutboxPublisherOptions) (row : ClaimedOutboxEvent)
    (result : OutboxPollResult)
    : List OutboxEvent → Except Thrown OutboxPollResult → Prop
  | published {envelope} (mapped : toCloudEvent opts row = .ok envelope)
    : RowRun opts row result
        [⟨.publish envelope, .ok ()⟩, ⟨.markProcessed row.id, .ok ()⟩]
        (.ok result.withPublished)
  | failed {head tail err count} (cause : TryFails opts row head err)
    (printed : err.printable = true) (recorded : Recorded opts row tail count)
    : RowRun opts row result (head ++ tail) (.ok (count result))
  | escaped {head tail err thrown} (cause : TryFails opts row head err)
    (unrecorded : Unrecorded opts row err tail)
    : RowRun opts row result (head ++ tail) (.error thrown)

/-- Every complete run of one row is one of these, by its `try` and then its `catch`. -/
theorem publishRow_runs {outcome : Except Thrown OutboxPollResult}
    (run : Finishes (publishRow opts row result) events outcome)
    : RowRun opts row result events outcome := by
  simp only [publishRow, Program.bind_eq, Program.pure_eq, Program.tryCatch_eq,
    finishes_handle, finishes_bind, finishes_done] at run
  rcases run with ⟨value, rfl, ⟨_, absurd, _⟩ | ⟨_, head, _, rfl, tried, rfl, settled⟩⟩ |
    ⟨err, head, tail, rfl, ⟨_, same, tried⟩ | ⟨_, _, _, _, _, _, absurd⟩, caught⟩
  · cases absurd
  · rcases publishAndMark_runs tried with ⟨envelope, mapped, rfl, _⟩ | ⟨_, _, absurd⟩
    · cases settled
      exact RowRun.published mapped
    · cases absurd
  · cases same
    rcases publishAndMark_runs tried with ⟨_, _, _, absurd⟩ | ⟨_, cause, same⟩
    · cases absurd
    · cases same
      rcases recordFailure_runs caught with ⟨printed, count, recorded, rfl⟩ |
        ⟨unrecorded, thrown, rfl⟩
      · exact .failed cause printed recorded
      · exact .escaped cause unrecorded
  · cases absurd

/-- The rows of a batch in order, until the batch ends or a failure escapes. -/
inductive RowsRun (opts : OutboxPublisherOptions)
    : List ClaimedOutboxEvent → OutboxPollResult → List OutboxEvent
      → Except Thrown OutboxPollResult → Prop
  | nil {start : OutboxPollResult} : RowsRun opts [] start [] (.ok start)
  | cons {first : ClaimedOutboxEvent} {rest start head next tail outcome}
    (run : RowRun opts first start head (.ok next))
    (later : RowsRun opts rest next tail outcome)
    : RowsRun opts (first :: rest) start (head ++ tail) outcome
  | escaped {first : ClaimedOutboxEvent} {rest start head thrown}
    (run : RowRun opts first start head (.error thrown))
    : RowsRun opts (first :: rest) start head (.error thrown)

/-- Every complete run of the loop goes row by row, by induction on the batch. -/
theorem publishRows_runs {batch : List ClaimedOutboxEvent}
    {outcome : Except Thrown OutboxPollResult}
    (run : Finishes (publishRows opts batch result) events outcome)
    : RowsRun opts batch result events outcome := by
  induction batch generalizing result events with
  | nil =>
      simp only [publishRows, Program.pure_eq, finishes_done] at run
      obtain ⟨rfl, rfl⟩ := run
      exact .nil
  | cons row rest ih =>
      simp only [publishRows, Program.bind_eq, finishes_bind] at run
      rcases run with ⟨thrown, rfl, first⟩ | ⟨next, head, tail, rfl, first, later⟩
      · exact .escaped (publishRow_runs first)
      · exact .cons (publishRow_runs first) (ih later)

/-- The counters of a poll before its first row. -/
def OutboxPollResult.start (claimed : Nat) : OutboxPollResult :=
  { claimed, published := 0, failed := 0, deadLettered := 0 }

/-- A complete poll fails to claim its batch, or runs the rows of the batch it claimed. -/
theorem pollOnce_runs {outcome : Except Thrown OutboxPollResult}
    (run : Finishes (pollOnce opts) events outcome)
    : (∃ err, events = [⟨.claimPendingBatch opts.batchSize, .error err⟩] ∧ outcome = .error err)
      ∨ ∃ batch later,
          events = ⟨.claimPendingBatch opts.batchSize, .ok batch⟩ :: later
          ∧ RowsRun opts batch (.start batch.length) later outcome := by
  simp only [pollOnce, call, Program.bind_eq, Program.perform_eq, Program.await_bind,
    Program.done_bind, finishes_await] at run
  obtain ⟨claim, later, rfl, run⟩ := run
  cases claim with
  | error err =>
      simp only [Program.settle_error, Program.fail_bind, finishes_fail] at run
      obtain ⟨rfl, rfl⟩ := run
      exact Or.inl ⟨err, rfl, rfl⟩
  | ok batch =>
      refine Or.inr ⟨batch, later, rfl, publishRows_runs ?_⟩
      cases batch with
      | nil => simpa [OutboxPollResult.start, publishRows] using run
      | cons row rest => simpa [OutboxPollResult.start] using run

end SharedKernel.Outbox
