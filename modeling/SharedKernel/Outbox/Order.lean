import SharedKernel.Outbox.Accounting

/-! The order in which a sequence of polls hands the claimed rows to the publisher. -/

namespace SharedKernel.Outbox

open Foundation Js Messaging

variable {opts : OutboxPublisherOptions} {row : ClaimedOutboxEvent}
  {events : List OutboxEvent}

-----------------------------------------------------------------------------------------
-- Sequences of polls
-----------------------------------------------------------------------------------------

/-- Ticks one after another, by a caller that catches what a poll throws. -/
def polls (opts : OutboxPublisherOptions) : Nat → OutboxProgram Unit
  | 0 => return ()
  | ticks + 1 => do
      tryCatch (do let _ ← pollOnce opts) (fun _ => return ())
      polls opts ticks

/-- The rows claimed so far, in claim order. -/
def claimedRows (events : List OutboxEvent) : List ClaimedOutboxEvent :=
  events.flatMap fun
    | ⟨.claimPendingBatch _, .ok batch⟩ => batch
    | _ => []

/-- The event of a row has been handed to the publisher successfully. -/
def Published (id : String) (events : List OutboxEvent) : Prop :=
  ∃ envelope : CloudEvent, envelope.id = id ∧ ⟨.publish envelope, .ok ()⟩ ∈ events

/-- A failure of a row has been recorded: the row is retried or dead-lettered. -/
def FailureRecorded (id : String) (events : List OutboxEvent) : Prop :=
  ∃ currentAttempts error maxAttempts,
    ⟨.markFailed id currentAttempts error maxAttempts, .ok ()⟩ ∈ events

/-- A failure of a row has been recorded that exhausted its budget. -/
def DeadLettered (id : String) (events : List OutboxEvent) : Prop :=
  ∃ currentAttempts error maxAttempts,
    ⟨.markFailed id currentAttempts error maxAttempts, .ok ()⟩ ∈ events
    ∧ currentAttempts + 1 ≥ maxAttempts

/-- Where the event of a row is handed over successfully, every row of its aggregate that
was claimed before the row was first claimed is `settled`.
-/
def HandedInOrder (settled : String → List OutboxEvent → Prop)
    (before : List OutboxEvent) (event : OutboxEvent)
    : Prop :=
  ∀ envelope : CloudEvent,
    event = ⟨.publish envelope, .ok ()⟩
    → ∀ earlier row later,
        claimedRows before = earlier ++ row :: later
        → (∀ first ∈ earlier, first.id ≠ row.id)
        → envelope.id = row.id
        → ∀ first ∈ earlier,
            first.aggregateId = row.aggregateId → settled first.id before

@[simp] theorem claimedRows_append (head tail : List OutboxEvent)
    : claimedRows (head ++ tail) = claimedRows head ++ claimedRows tail :=
  List.flatMap_append

-----------------------------------------------------------------------------------------
-- Every row claimed before the current one has been attempted
-----------------------------------------------------------------------------------------

/-- No call of an error path has escaped its row. -/
def Contained (events : List OutboxEvent) : Prop :=
  ∀ event ∈ events, escapes event = false

/-- A row has been attempted: it was published or its failure was recorded. -/
def Attempted (id : String) (events : List OutboxEvent) : Prop :=
  Published id events ∨ FailureRecorded id events

theorem Contained.before {head tail : List OutboxEvent} (contained : Contained (head ++ tail))
    : Contained head :=
  fun event member => contained event (List.mem_append_left _ member)

theorem Contained.after {head tail : List OutboxEvent} (contained : Contained (head ++ tail))
    : Contained tail :=
  fun event member => contained event (List.mem_append_right _ member)

theorem Attempted.later {id : String} {head : List OutboxEvent} (attempted : Attempted id head)
    (tail : List OutboxEvent)
    : Attempted id (head ++ tail) := by
  rcases attempted with ⟨envelope, same, member⟩ | ⟨currentAttempts, error, maxAttempts, member⟩
  · exact Or.inl ⟨envelope, same, List.mem_append_left _ member⟩
  · exact Or.inr ⟨currentAttempts, error, maxAttempts, List.mem_append_left _ member⟩

theorem Attempted.earlier {id : String} {tail : List OutboxEvent} (attempted : Attempted id tail)
    (head : List OutboxEvent)
    : Attempted id (head ++ tail) := by
  rcases attempted with ⟨envelope, same, member⟩ | ⟨currentAttempts, error, maxAttempts, member⟩
  · exact Or.inl ⟨envelope, same, List.mem_append_right _ member⟩
  · exact Or.inr ⟨currentAttempts, error, maxAttempts, List.mem_append_right _ member⟩

/-- The event handed over is that of the next claimed row, and the rows claimed before it
have been attempted.
-/
def NextInOrder (opts : OutboxPublisherOptions) (before : List OutboxEvent) (op : OutboxOp)
    : Prop :=
  ∀ envelope,
    op = .publish envelope
    → ∃ earlier row later,
        claimedRows before = earlier ++ row :: later
        ∧ toCloudEvent opts row = .ok envelope
        ∧ (Contained before → ∀ first ∈ earlier, Attempted first.id before)

/-- A row that has run claimed nothing and was attempted, unless something escaped. -/
theorem RowRun.attempted {result : OutboxPollResult}
    {outcome : Except Thrown OutboxPollResult}
    (run : RowRun opts row result events outcome)
    : claimedRows events = [] ∧ (Contained events → Attempted row.id events) := by
  cases run with
  | published mapped =>
      refine ⟨rfl, fun _ => Or.inl ⟨_, (toCloudEvent_fields mapped).1, List.mem_cons_self⟩⟩
  | @failed head tail _ _ cause printed recorded =>
      have unclaimed : claimedRows head = [] := by cases cause <;> rfl
      refine ⟨?_, fun _ => Or.inr ?_⟩
      · rw [claimedRows_append, unclaimed]
        cases recorded <;> rfl
      · cases recorded <;> exact ⟨_, _, _, List.mem_append_right _ List.mem_cons_self⟩
  | @escaped head tail err thrown cause unrecorded =>
      have unclaimed : claimedRows head = [] := by cases cause <;> rfl
      refine ⟨?_, fun contained => ?_⟩
      · rw [claimedRows_append, unclaimed]
        cases unrecorded <;> rfl
      · have run : RowRun opts row result (head ++ tail) (.error thrown) :=
          .escaped cause unrecorded
        obtain ⟨event, member, loud⟩ := run.escape
        simp [contained event member] at loud

/-- The rows of a loop that has run were all attempted, unless something escaped, by
induction on the batch.
-/
theorem RowsRun.attempted {batch : List ClaimedOutboxEvent} {result : OutboxPollResult}
    {outcome : Except Thrown OutboxPollResult}
    (run : RowsRun opts batch result events outcome)
    : claimedRows events = []
      ∧ (Contained events → ∀ row ∈ batch, Attempted row.id events) := by
  induction run with
  | nil => exact ⟨rfl, by simp⟩
  | @cons first rest start head next tail outcome run later ih =>
      obtain ⟨unclaimed, here⟩ := run.attempted
      obtain ⟨unclaimed', there⟩ := ih
      refine ⟨by simp [unclaimed, unclaimed'], fun contained => ?_⟩
      simp only [List.mem_cons, forall_eq_or_imp]
      refine ⟨(here contained.before).later tail, fun row member => ?_⟩
      exact (there contained.after row member).earlier head
  | escaped run =>
      obtain ⟨event, member, loud⟩ := run.escape
      refine ⟨run.attempted.1, fun contained => ?_⟩
      simp [contained event member] at loud

/-- Every row claimed so far has been attempted, unless something escaped. -/
def Settled (events : List OutboxEvent) : Prop :=
  Contained events → ∀ first ∈ claimedRows events, Attempted first.id events

/-- A call that hands nothing over is in order. -/
theorem nextInOrder_other {before : List OutboxEvent} {op : OutboxOp}
    (other : ∀ envelope, op ≠ .publish envelope)
    : NextInOrder opts before op :=
  fun envelope same => absurd same (other envelope)

/-- Recording a failure hands nothing to the publisher. -/
theorem recordFailure_inOrder {result : OutboxPollResult} {err : Thrown}
    {history : List OutboxEvent}
    : Safe (NextInOrder opts) (fun _ _ => True) history
        (recordFailure opts row result err) := by
  cases text : err.toText with
  | error thrown => simp [recordFailure, text]
  | ok error =>
      simp only [recordFailure, text, call, Program.bind_eq, Program.settle_ok,
        Program.done_bind, Program.perform_eq, Program.await_bind, Program.pure_eq]
      refine ⟨nextInOrder_other (by simp), fun marked => ?_⟩
      cases marked with
      | error thrown => trivial
      | ok _ =>
          simp only [Program.settle_ok, Program.done_bind]
          split
          · split
            · refine ⟨nextInOrder_other (by simp), fun reported => ?_⟩
              cases reported with
              | error thrown => trivial
              | ok _ => exact ⟨nextInOrder_other (by simp), fun _ => trivial⟩
            · exact ⟨nextInOrder_other (by simp), fun _ => trivial⟩
          · exact ⟨nextInOrder_other (by simp), fun _ => trivial⟩

/-- The row at the head of the rest of its batch is handed over in order. -/
theorem publishRow_inOrder {result : OutboxPollResult} {history : List OutboxEvent}
    {earlier later : List ClaimedOutboxEvent}
    (claimed : claimedRows history = earlier ++ row :: later)
    (attempted : Contained history → ∀ first ∈ earlier, Attempted first.id history)
    : Safe (NextInOrder opts) (fun _ _ => True) history (publishRow opts row result) := by
  simp only [publishRow, Program.tryCatch_eq, safe_handle]
  cases mapped : toCloudEvent opts row with
  | error err =>
      simpa only [publishAndMark, mapped, Program.bind_eq, Program.settle_error,
        Program.fail_bind, safe_fail] using recordFailure_inOrder
  | ok envelope =>
      simp only [publishAndMark, mapped, call, Program.bind_eq, Program.settle_ok,
        Program.done_bind, Program.perform_eq, Program.await_bind, Program.pure_eq]
      refine ⟨?_, fun published => ?_⟩
      · rintro _ ⟨⟩
        exact ⟨earlier, row, later, claimed, mapped, attempted⟩
      · cases published with
        | error err => exact recordFailure_inOrder
        | ok _ =>
            refine ⟨nextInOrder_other (by simp), fun marked => ?_⟩
            cases marked with
            | error err => exact recordFailure_inOrder
            | ok _ => trivial

/-- The rest of a batch is handed over in order, by induction on the rest. -/
theorem publishRows_inOrder {result : OutboxPollResult} {history : List OutboxEvent}
    {rest : List ClaimedOutboxEvent} (earlier : List ClaimedOutboxEvent)
    (claimed : claimedRows history = earlier ++ rest)
    (attempted : Contained history → ∀ first ∈ earlier, Attempted first.id history)
    : Safe (NextInOrder opts) (fun _ _ => True) history (publishRows opts rest result) := by
  induction rest generalizing earlier history result with
  | nil => trivial
  | cons row rest ih =>
      simp only [publishRows, Program.bind_eq, safe_bind]
      refine (publishRow_inOrder claimed attempted).and_finishes (fun events outcome run => ?_)
      obtain ⟨unclaimed, here⟩ := (publishRow_runs run).attempted
      cases outcome with
      | error thrown => trivial
      | ok next =>
          apply ih (earlier ++ [row]) (by simp [claimed, unclaimed])
          intro contained first member
          rcases List.mem_append.mp member with old | new
          · exact (attempted contained.before first old).later events
          · obtain rfl : first = row := by simpa using new
            exact (here contained.after).earlier history

/-- A poll hands its batch over in order, and leaves every claimed row attempted. -/
theorem pollOnce_inOrder {history : List OutboxEvent} (settled : Settled history)
    : Safe (NextInOrder opts) (fun later _ => Settled later) history (pollOnce opts) := by
  refine Safe.and_finishes ?_ (fun events outcome run => ?_)
  · simp only [pollOnce, call, Program.bind_eq, Program.perform_eq, Program.await_bind,
      Program.done_bind]
    refine ⟨nextInOrder_other (by simp), fun claim => ?_⟩
    cases claim with
    | error err => trivial
    | ok batch =>
        simp only [Program.settle_ok, Program.done_bind]
        split
        · trivial
        · refine publishRows_inOrder (claimedRows history) (by simp [claimedRows])
            (fun contained first member => ?_)
          exact (settled contained.before first member).later _
  · intro contained first member
    rcases pollOnce_runs run with ⟨err, rfl, rfl⟩ | ⟨batch, later, rfl, rows⟩
    · exact (settled contained.before first (by simpa [claimedRows] using member)).later _
    · obtain ⟨unclaimed, attempted⟩ := rows.attempted
      have split
          : claimedRows (history ++ ⟨.claimPendingBatch opts.batchSize, .ok batch⟩ :: later)
            = claimedRows history ++ batch ++ claimedRows later := by
        simp [claimedRows]
      rw [split, unclaimed, List.append_nil] at member
      rcases List.mem_append.mp member with old | new
      · exact (settled contained.before first old).later _
      · rw [List.append_cons] at contained ⊢
        exact (attempted contained.after first new).earlier _

/-- A sequence of polls hands the claimed rows over in order, by induction on the ticks. -/
theorem polls_inOrder {history : List OutboxEvent} (ticks : Nat) (settled : Settled history)
    : Safe (NextInOrder opts) (fun later _ => Settled later) history (polls opts ticks) := by
  induction ticks generalizing history with
  | zero => exact settled
  | succ ticks ih =>
      simp only [polls, Program.bind_eq, Program.pure_eq, Program.tryCatch_eq, safe_bind,
        safe_handle]
      refine (pollOnce_inOrder settled).mono (fun _ _ => id) (fun later outcome settled => ?_)
      cases outcome with
      | ok result => exact ih settled
      | error thrown => exact ih settled

-----------------------------------------------------------------------------------------
-- Per-aggregate order
-----------------------------------------------------------------------------------------

/-- Every event handed over is that of a claimed row, keyed by its aggregate, and while nothing
has escaped, all rows claimed before it have been attempted; and while nothing has escaped, a row's
event is handed over successfully only when every row of its aggregate claimed before it has been
attempted.
-/
def AttemptedInOrder (opts : OutboxPublisherOptions) (before : List OutboxEvent)
    (event : OutboxEvent)
    : Prop :=
  (∀ envelope,
    event.op = .publish envelope
    → ∃ earlier row later,
        claimedRows before = earlier ++ row :: later
        ∧ toCloudEvent opts row = .ok envelope
        ∧ envelope.partitionkey = row.aggregateId
        ∧ (Contained before → ∀ first ∈ earlier, Attempted first.id before))
  ∧ (Contained before → HandedInOrder Attempted before event)

/-- The rows before the first row of an id come before every row of that id. -/
theorem before_first_subset {earlier later earlier' later' : List ClaimedOutboxEvent}
    {first current : ClaimedOutboxEvent}
    (same : earlier ++ first :: later = earlier' ++ current :: later')
    (fresh : ∀ row ∈ earlier, row.id ≠ first.id) (sameId : current.id = first.id)
    : earlier ⊆ earlier' := by
  rcases List.append_eq_append_iff.mp same with ⟨middle, rfl, _⟩ | ⟨middle, rfl, tails⟩
  · exact List.subset_append_left ..
  · cases middle with
    | nil => simp
    | cons head rest =>
        obtain ⟨rfl, -⟩ := List.cons.inj tails
        exact absurd sameId (fresh current (by simp))

/-- In every run of a sequence of polls, complete or not, rows are attempted in claim order;
witness: the verified sequence, whose current row has an attempted prefix before it.
-/
theorem polls_attemptedInOrder (ticks : Nat) {rest : OutboxProgram Unit}
    (run : Run (polls opts ticks) events rest)
    : Throughout (AttemptedInOrder opts) events := by
  have settled : Settled [] := by simp [Settled, claimedRows]
  have guarded := (polls_inOrder ticks settled).throughout run
  refine guarded.mono (fun before event inOrder => ⟨?_, ?_⟩)
  · intro envelope handed
    obtain ⟨earlier, row, later, claimed, mapped, attempted⟩ := inOrder envelope handed
    exact ⟨earlier, row, later, claimed, mapped, (toCloudEvent_fields mapped).2.2, attempted⟩
  · rintro contained envelope rfl earlier row later claimed fresh sameId first member -
    obtain ⟨earlier', current, later', claimed', mapped, attempted⟩ := inOrder envelope rfl
    have reached : earlier ⊆ earlier' :=
      before_first_subset (claimed.symm.trans claimed') fresh
        ((toCloudEvent_fields mapped).1.symm.trans sameId)
    exact attempted contained first (reached member)

/-- The broker rejects row `a` once and accepts row `b` of the same aggregate: `b` is on the
wire while `a` waits for its retry.
-/
theorem polls_not_handedInOrder
    : let events : List OutboxEvent :=
        [⟨.claimPendingBatch 100, .ok [sampleRow "a", sampleRow "b"]⟩,
          ⟨.publish (sampleEnvelope "a"), .error boom⟩,
          ⟨.markFailed "a" 0 "Error: boom" 3, .ok ()⟩,
          ⟨.warn "Failed to publish outbox event — will retry" "a" 1 boom, ()⟩,
          ⟨.publish (sampleEnvelope "b"), .ok ()⟩,
          ⟨.markProcessed "b", .ok ()⟩]
      Run (polls sampleOptions 1) events (.done ())
      ∧ ¬ Throughout
          (HandedInOrder (fun id events => Published id events ∨ DeadLettered id events))
          events := by
  refine ⟨.step _ (.step _ (.step _ (.step _ (.step _ (.step _ (.refl _)))))), ?_⟩
  intro ordered
  have settled :=
    @ordered
      [⟨.claimPendingBatch 100, .ok [sampleRow "a", sampleRow "b"]⟩,
        ⟨.publish (sampleEnvelope "a"), .error boom⟩,
        ⟨.markFailed "a" 0 "Error: boom" 3, .ok ()⟩,
        ⟨.warn "Failed to publish outbox event — will retry" "a" 1 boom, ()⟩]
      _ _ rfl (sampleEnvelope "b") rfl [sampleRow "a"] (sampleRow "b") [] rfl
      (by simp [sampleRow]) rfl (sampleRow "a") (by simp) rfl
  simp [Published, DeadLettered] at settled

/-- One poll that publishes two rows of an aggregate hands them over in order. -/
theorem polls_attemptedInOrder_published
    : Throughout (AttemptedInOrder sampleOptions)
        [⟨.claimPendingBatch 100, .ok [sampleRow "a", sampleRow "b"]⟩,
          ⟨.publish (sampleEnvelope "a"), .ok ()⟩, ⟨.markProcessed "a", .ok ()⟩,
          ⟨.publish (sampleEnvelope "b"), .ok ()⟩, ⟨.markProcessed "b", .ok ()⟩] :=
  polls_attemptedInOrder 1 (.step _ (.step _ (.step _ (.step _ (.step _ (.refl (.done ())))))))

end SharedKernel.Outbox
