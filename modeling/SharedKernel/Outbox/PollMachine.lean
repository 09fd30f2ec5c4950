import SharedKernel.Outbox.Accounting

/-! A poll of the outbox as a state machine: which call it awaits, which rows it still holds,
and what the answer to the call makes of it, as long as nothing escapes from the loop.
-/

namespace SharedKernel.Outbox

open Foundation Js Messaging

/-- The call that the current row of a poll awaits. -/
inductive RowPhase where
  | publishing
  | marking
  | failing (err : Thrown)
  | reporting (err : Thrown)
  | logging (err : Thrown)

/-- Where a poll stands: before its claim, after a claim that rejected, at a row with the rows
after it and the counters so far, or at its end.
-/
inductive Poll where
  | claiming
  | unclaimed (err : Thrown)
  | working (phase : RowPhase) (row : ClaimedOutboxEvent) (rest : List ClaimedOutboxEvent)
      (result : OutboxPollResult)
  | ended (result : OutboxPollResult)

namespace Poll

variable (opts : OutboxPublisherOptions)

/-- The first of the remaining rows is next. -/
def next (rest : List ClaimedOutboxEvent) (result : OutboxPollResult) : Poll :=
  match rest with
  | [] => .ended result
  | row :: rest => .working .publishing row rest result

/-- The notice on a row that has failed. -/
def notice (row : ClaimedOutboxEvent) : String :=
  if isNowDead opts row then
    "Outbox event exhausted retry budget — permanently FAILED_DLQ, needs manual triage"
  else "Failed to publish outbox event — will retry"

/-- What is left of one row. -/
def rowProgram (row : ClaimedOutboxEvent) (result : OutboxPollResult)
    : RowPhase → OutboxProgram OutboxPollResult
  | .publishing => publishRow opts row result
  | .marking =>
      tryCatch
        (do
          Program.settle (← call (.markProcessed row.id))
          return result.withPublished)
        (recordFailure opts row result)
  | .failing err => recordFailure opts row result err
  | .reporting err => do
      Program.settle (← call (.onDeadLetter row.eventType))
      let _ ← call (.warn (notice opts row) row.id (row.attempts + 1) err)
      return result
  | .logging err => do
      let _ ← call (.warn (notice opts row) row.id (row.attempts + 1) err)
      return result

/-- What is left of a poll. -/
def program : Poll → OutboxProgram OutboxPollResult
  | .claiming => pollOnce opts
  | .unclaimed err => .fail err
  | .working phase row rest result =>
      (rowProgram opts row result phase).bind (publishRows opts rest)
  | .ended result => .done result

/-- The rows that a poll has claimed and not marked yet. -/
def held : Poll → List ClaimedOutboxEvent
  | .working .publishing row rest _ | .working .marking row rest _
  | .working (.failing _) row rest _ => row :: rest
  | .working (.reporting _) _ rest _ | .working (.logging _) _ rest _ => rest
  | .claiming | .unclaimed _ | .ended _ => []

/-- The row whose rejection a poll is about to record. -/
def failing? : Poll → Option String
  | .working (.failing _) row _ _ => some row.id
  | _ => none

/-- The row whose delivery a poll is about to record. -/
def marking? : Poll → Option String
  | .working .marking row _ _ => some row.id
  | _ => none

/-- The row that a poll is about to report. -/
def reporting? : Poll → Option ClaimedOutboxEvent
  | .working (.reporting _) row _ _ => some row
  | _ => none

/-- The dead letters that a poll has counted. -/
def deadLettered : Poll → Nat
  | .working _ _ _ result | .ended result => result.deadLettered
  | .claiming | .unclaimed _ => 0

/-- What an answered call makes of a poll. -/
inductive Answer (opts : OutboxPublisherOptions) : Poll → OutboxEvent → Poll → Prop
  | claimed (batch : List ClaimedOutboxEvent)
    : Answer opts .claiming ⟨.claimPendingBatch opts.batchSize, .ok batch⟩
        (next batch (.start batch.length))
  | unclaimed (err : Thrown)
    : Answer opts .claiming ⟨.claimPendingBatch opts.batchSize, .error err⟩ (.unclaimed err)
  | published {row rest result envelope} (mapped : toCloudEvent opts row = .ok envelope)
    : Answer opts (.working .publishing row rest result) ⟨.publish envelope, .ok ()⟩
        (.working .marking row rest result)
  | rejected {row rest result envelope} (mapped : toCloudEvent opts row = .ok envelope)
    (err : Thrown)
    : Answer opts (.working .publishing row rest result) ⟨.publish envelope, .error err⟩
        (.working (.failing err) row rest result)
  | marked {row rest} {result : OutboxPollResult}
    : Answer opts (.working .marking row rest result) ⟨.markProcessed row.id, .ok ()⟩
        (next rest result.withPublished)
  | retried {row rest err error} {result : OutboxPollResult}
    (alive : isNowDead opts row = false)
    : Answer opts (.working (.failing err) row rest result) ⟨.fails opts row error, .ok ()⟩
        (.working (.logging err) row rest result.withFailure)
  | exhausted {row rest err error} {result : OutboxPollResult}
    (dead : isNowDead opts row = true)
    : Answer opts (.working (.failing err) row rest result) ⟨.fails opts row error, .ok ()⟩
        (.working (.reporting err) row rest result.withDeadLetter)
  | reported {row rest err} {result : OutboxPollResult}
    : Answer opts (.working (.reporting err) row rest result)
        ⟨.onDeadLetter row.eventType, .ok ()⟩ (.working (.logging err) row rest result)
  | logged {row rest err} {result : OutboxPollResult}
    : Answer opts (.working (.logging err) row rest result)
        ⟨.warn (notice opts row) row.id (row.attempts + 1) err, ()⟩ (next rest result)

end Poll

/-- Nothing escapes at this answer: the claimed rows have valid dates, a rejection of the
publisher can be printed, and the metrics hook does not throw.
-/
def Unobstructed : OutboxEvent → Prop
  | ⟨.claimPendingBatch _, .ok batch⟩ => Dated batch
  | ⟨.publish _, .error err⟩ => err.printable = true
  | ⟨.onDeadLetter _, reply⟩ => reply = .ok ()
  | _ => True

/-- The store marks a row where it is asked to. -/
def Marks : OutboxEvent → Prop
  | ⟨.markProcessed _, reply⟩ | ⟨.markFailed _ _ _ _, reply⟩ => reply = .ok ()
  | _ => True

namespace Poll

variable {opts : OutboxPublisherOptions} {poll : Poll}

/-- The rows ahead of a poll have valid dates, and the rejection at hand can be printed. -/
def Clear : Poll → Prop
  | .working .publishing row rest _ => row.createdAt ≠ .invalid ∧ Dated rest
  | .working (.failing err) _ rest _ => err.printable = true ∧ Dated rest
  | .working _ _ rest _ => Dated rest
  | .claiming | .unclaimed _ | .ended _ => True

theorem clear_next {rest : List ClaimedOutboxEvent} (dated : Dated rest)
    (result : OutboxPollResult)
    : (next rest result).Clear := by
  cases rest with
  | nil => trivial
  | cons row rest =>
      exact ⟨dated row (List.mem_cons_self ..),
        fun other member => dated other (List.mem_cons_of_mem _ member)⟩

@[simp] theorem held_next (rest : List ClaimedOutboxEvent) (result : OutboxPollResult)
    : (next rest result).held = rest := by
  cases rest <;> rfl

@[simp] theorem failing?_next (rest : List ClaimedOutboxEvent) (result : OutboxPollResult)
    : (next rest result).failing? = none := by
  cases rest <;> rfl

@[simp] theorem marking?_next (rest : List ClaimedOutboxEvent) (result : OutboxPollResult)
    : (next rest result).marking? = none := by
  cases rest <;> rfl

@[simp] theorem reporting?_next (rest : List ClaimedOutboxEvent) (result : OutboxPollResult)
    : (next rest result).reporting? = none := by
  cases rest <;> rfl

@[simp] theorem deadLettered_next (rest : List ClaimedOutboxEvent) (result : OutboxPollResult)
    : (next rest result).deadLettered = result.deadLettered := by
  cases rest <;> rfl

theorem program_next (rest : List ClaimedOutboxEvent) (result : OutboxPollResult)
    : (next rest result).program opts = publishRows opts rest result := by
  cases rest with
  | nil => rfl
  | cons row rest => rfl

theorem notice_dead {row : ClaimedOutboxEvent} (dead : isNowDead opts row = true)
    : notice opts row
      = "Outbox event exhausted retry budget — permanently FAILED_DLQ, needs manual triage" :=
  if_pos dead

theorem notice_alive {row : ClaimedOutboxEvent} (alive : isNowDead opts row = false)
    : notice opts row = "Failed to publish outbox event — will retry" := by
  simp [notice, alive]

/-- A row with an envelope is published, and then marked processed or recorded as failed. -/
theorem program_publishing {row : ClaimedOutboxEvent} {envelope : CloudEvent}
    (mapped : toCloudEvent opts row = .ok envelope) (rest : List ClaimedOutboxEvent)
    (result : OutboxPollResult)
    : ∃ resume : Except Thrown Unit → OutboxProgram OutboxPollResult,
        program opts (.working .publishing row rest result) = .await (.publish envelope) resume
        ∧ resume (.ok ()) = program opts (.working .marking row rest result)
        ∧ ∀ err,
            resume (.error err) = program opts (.working (.failing err) row rest result) := by
  simp only [program, rowProgram, publishRow, publishAndMark, mapped, call,
    Program.settle_ok, Program.bind_eq, Program.done_bind, Program.perform_eq,
    Program.await_bind, Program.tryCatch_eq, Program.await_handle]
  exact ⟨_, rfl, rfl, fun err => rfl⟩

/-- A failure whose error prints is marked, and then reported, if it was the last, and logged.
-/
theorem program_failing {row : ClaimedOutboxEvent} {err : Thrown} {error : String}
    (wired : opts.onDeadLetter = true) (text : err.toText = .ok error)
    (rest : List ClaimedOutboxEvent) (result : OutboxPollResult)
    : ∃ resume : Except Thrown Unit → OutboxProgram OutboxPollResult,
        program opts (.working (.failing err) row rest result)
          = .await (.fails opts row error) resume
        ∧ (isNowDead opts row = false
            → resume (.ok ())
              = program opts (.working (.logging err) row rest result.withFailure))
        ∧ (isNowDead opts row = true
            → resume (.ok ())
              = program opts (.working (.reporting err) row rest result.withDeadLetter)) := by
  simp only [program, rowProgram, recordFailure, text, call, Program.settle_ok,
    Program.bind_eq, Program.done_bind, Program.perform_eq, Program.await_bind]
  refine ⟨_, rfl, fun alive => ?_, fun dead => ?_⟩
  · rw [notice_alive alive, alive]
    rfl
  · simp only [wired, Program.settle_ok, Program.done_bind, dead, if_true]
    rw [notice_dead dead]
    rfl

/-- One answered call takes a clear poll to its next state; witness: one case for each call
that the poll can await.
-/
theorem Clear.answer {op : OutboxOp} {resume : op.Reply → OutboxProgram OutboxPollResult}
    {reply : op.Reply} (clear : poll.Clear) (wired : opts.onDeadLetter = true)
    (awaiting : poll.program opts = .await op resume) (unobstructed : Unobstructed ⟨op, reply⟩)
    (marks : Marks ⟨op, reply⟩)
    : ∃ later : Poll,
        Answer opts poll ⟨op, reply⟩ later
        ∧ resume reply = later.program opts
        ∧ later.Clear := by
  cases poll with
  | claiming =>
      cases awaiting
      cases reply with
      | error err => exact ⟨_, .unclaimed err, rfl, trivial⟩
      | ok batch =>
          refine ⟨_, .claimed batch, ?_, clear_next unobstructed _⟩
          rw [program_next]
          cases batch with
          | nil => rfl
          | cons row rest => rfl
  | unclaimed err => cases awaiting
  | ended result => cases awaiting
  | working phase row rest result =>
      cases phase with
      | publishing =>
          obtain ⟨valid, dated⟩ := clear
          obtain ⟨envelope, mapped⟩ := toCloudEvent_dated opts valid
          obtain ⟨_, same, sent, rejected⟩ := program_publishing mapped rest result
          rw [same] at awaiting
          cases awaiting
          cases reply with
          | error err => exact ⟨_, .rejected mapped err, rejected err, unobstructed, dated⟩
          | ok _ => exact ⟨_, .published mapped, sent, dated⟩
      | marking =>
          cases awaiting
          obtain rfl : reply = .ok () := marks
          exact ⟨_, .marked, (program_next rest _).symm, clear_next clear _⟩
      | failing err =>
          obtain ⟨printable, dated⟩ := clear
          obtain ⟨error, text⟩ := err.printable_iff.mp printable
          obtain ⟨_, same, retried, exhausted⟩ :=
            @program_failing opts row err error wired text rest result
          rw [same] at awaiting
          cases awaiting
          obtain rfl : reply = .ok () := marks
          cases dead : isNowDead opts row with
          | false => exact ⟨_, .retried dead, retried dead, dated⟩
          | true => exact ⟨_, .exhausted dead, exhausted dead, dated⟩
      | reporting err =>
          cases awaiting
          obtain rfl : reply = .ok () := unobstructed
          exact ⟨_, .reported, rfl, clear⟩
      | logging err =>
          cases awaiting
          exact ⟨_, .logged, (program_next rest _).symm, clear_next clear _⟩

end Poll
end SharedKernel.Outbox
