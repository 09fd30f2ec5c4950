import SharedKernel.Outbox.Balance

/-! The retry budget of the outbox over whole runs: any number of publishers poll one store,
in any interleaving, and the store's books agree with what was published and reported.
-/

namespace SharedKernel.Outbox

open Foundation Js Messaging

-----------------------------------------------------------------------------------------
-- What a run shows
-----------------------------------------------------------------------------------------

abbrev OutboxLabel := PoolLabel OutboxEffects OutboxPublisherOptions
abbrev OutboxPool :=
  Pool OutboxEffects Thrown OutboxPollResult OutboxPublisherOptions OutboxStore

/-- The answered calls of a run, of all its polls, in order. -/
def answered (labels : List OutboxLabel) : List OutboxEvent :=
  labels.filterMap fun
    | .answer _ event => some event
    | _ => none

/-- What a poll that resolved says about dead letters. -/
def deadLettersOf (rest : OutboxProgram OutboxPollResult) : Nat :=
  match rest with
  | .done result => result.deadLettered
  | _ => 0

/-- The poll has ended: it awaits no call. -/
def Ended (rest : OutboxProgram OutboxPollResult) : Prop :=
  ∀ op resume, rest ≠ .await op resume

/-- The retry budget is kept: by the rows, by what was published and by what was reported. -/
structure RetryBudget (maxAttempts : Int) (labels : List OutboxLabel) (pool : OutboxPool)
    : Prop where
  bounded
    : ∀ stored ∈ pool.world.rows,
        (failedPublishes (answered labels) stored.row.id : Int) ≤ maxAttempts
  counted
    : ∀ stored ∈ pool.world.rows,
        stored.row.attempts = failedPublishes (answered labels) stored.row.id
  notAgain : Throughout NotAgain (answered labels)
  reported
    : (pool.threads.flatMap (fun thread => reports none thread.history)).Perm
        ((pool.world.withStatus .failedDlq).map ClaimedOutboxEvent.reportKey)
  deadLettered
    : (pool.threads.map (fun thread => deadLettersOf thread.rest)).sum
      = (pool.world.withStatus .failedDlq).length

variable {store : OutboxStore} {row : ClaimedOutboxEvent} {maxAttempts : Int}

-----------------------------------------------------------------------------------------
-- Whole runs
-----------------------------------------------------------------------------------------

variable {opts : OutboxPublisherOptions} {poll next : Poll} {labels : List OutboxLabel}
  {pool : OutboxPool}

/-- Every thread is where a poll stands, and the polls are in balance. -/
def Kept (maxAttempts : Int) (labels : List OutboxLabel) (pool : OutboxPool) : Prop :=
  ∃ polls,
    List.Forall₂ (Tracked maxAttempts) pool.threads polls
    ∧ Balanced maxAttempts (answered labels) (reported pool.threads) pool.world polls

/-- The store marks where it is asked to. -/
theorem OutboxStore.Answers.marks {event : OutboxEvent} (answers : store.Answers event later)
    : Marks event := by
  cases answers <;> trivial

/-- A poll that is about to report a row has just marked it, or is about to report it still.
-/
theorem Poll.Answer.lastMarked {event : OutboxEvent} (answer : Poll.Answer opts poll event next)
    (reporting : next.reporting? = some row) (last : Option String)
    : SharedKernel.Outbox.lastMarked last [event] = some row.id := by
  cases answer with
  | exhausted dead =>
      cases reporting
      rfl
  | claimed | marked | logged => simp at reporting
  | _ => cases reporting

/-- The steps of a run. -/
abbrev OutboxStep (maxAttempts : Int) : OutboxPool → OutboxLabel → OutboxPool → Prop :=
  PoolStep pollOnce (Sharing maxAttempts) OutboxStore.Answers OutboxStore.Appends

/-- Every step of a run keeps the balance, by the kind of step. -/
theorem Kept.step {later : OutboxPool} {label : OutboxLabel}
    (kept : Kept maxAttempts labels pool) (positive : 0 < maxAttempts)
    (taken : OutboxStep maxAttempts pool label later)
    (unobstructed : ∀ event ∈ answered [label], Unobstructed event)
    : Kept maxAttempts (labels ++ [label]) later := by
  obtain ⟨polls, tracked, balanced⟩ := kept
  have extended : answered (labels ++ [label]) = answered labels ++ answered [label] :=
    List.filterMap_append
  cases taken with
  | start call admits =>
      have fresh
          : Tracked maxAttempts { call, history := [], rest := pollOnce call } .claiming :=
        ⟨admits, rfl, trivial, fun row reporting => by cases reporting⟩
      refine ⟨polls ++ [.claiming], List.rel_append tracked (.cons fresh .nil), ?_⟩
      rw [extended]
      simpa [answered, reported, reports] using balanced.start
  | @answer index call history op resume world reply waiting answers =>
      obtain ⟨before, after, early, poll, late, threads, rfl, rfl, one, ⟨sharing, rest, clear,
        marked⟩, others⟩ := forall₂_split tracked waiting
      obtain ⟨next, answer, resumed, clearNext⟩ :=
        clear.answer sharing.2 rest.symm (unobstructed _ (List.mem_singleton_self _))
          answers.marks
      have moved
          : Tracked maxAttempts { call, history := history ++ [⟨op, reply⟩], rest := resume reply }
              next := by
        refine ⟨sharing, resumed, clearNext, fun row reporting => ?_⟩
        rw [lastMarked_append]
        exact answer.lastMarked reporting _
      have after_answer := balanced.answer sharing answer answers marked
      rw [threads, List.set_append_right _ _ (Nat.le_refl _), Nat.sub_self, List.set_cons_zero]
      refine ⟨early ++ next :: late, List.rel_append one (.cons moved others), ?_⟩
      rw [extended]
      apply after_answer.perm
      rw [threads, reported, reported, flatMap_around, flatMap_around, reports_append]
      simp only [List.append_assoc]
      refine List.Perm.append_left _ (List.Perm.append_left _ ?_)
      exact List.perm_append_comm
  | drift moved =>
      refine ⟨polls, tracked, ?_⟩
      rw [extended]
      simpa [answered] using balanced.append positive moved

/-- A run of polls at which nothing escapes keeps the balance, by induction on the run. -/
theorem kept_of_run (positive : 0 < maxAttempts)
    (fresh : ∀ stored ∈ store.rows, OutboxStore.New stored)
    (run : Execution (OutboxStep maxAttempts) (.start store) labels pool)
    (unobstructed : ∀ event ∈ answered labels, Unobstructed event)
    : Kept maxAttempts labels pool := by
  induction run with
  | start => exact ⟨[], .nil, balanced_new positive fresh⟩
  | @snoc labels pool label next earlier taken ih =>
      have extended : answered (labels ++ [label]) = answered labels ++ answered [label] :=
        List.filterMap_append
      rw [extended] at unobstructed
      have kept := ih (fun event member => unobstructed event (List.mem_append_left _ member))
      exact kept.step positive taken
        (fun event member => unobstructed event (List.mem_append_right _ member))

/-- A poll that has ended is about to do nothing, and says what it has counted. -/
theorem Poll.Clear.ended (clear : poll.Clear) (wired : opts.onDeadLetter = true)
    (ended : Ended (poll.program opts))
    : poll.failing? = none ∧ poll.marking? = none ∧ poll.reporting? = none
      ∧ deadLettersOf (poll.program opts) = poll.deadLettered := by
  cases poll with
  | claiming => exact (ended _ _ rfl).elim
  | unclaimed err => exact ⟨rfl, rfl, rfl, rfl⟩
  | ended result => exact ⟨rfl, rfl, rfl, rfl⟩
  | working phase row rest result =>
      cases phase with
      | publishing =>
          obtain ⟨envelope, mapped⟩ := toCloudEvent_dated opts clear.1
          obtain ⟨_, awaiting, _⟩ := program_publishing mapped rest result
          exact (ended _ _ awaiting).elim
      | failing err =>
          obtain ⟨error, text⟩ := err.printable_iff.mp clear.1
          obtain ⟨_, awaiting, _⟩ := @program_failing opts row err error wired text rest result
          exact (ended _ _ awaiting).elim
      | marking | reporting err | logging err => exact (ended _ _ rfl).elim

/-- Polls that have all ended are about to do nothing, and have counted what they say; by
induction on the polls.
-/
theorem ended_of_tracked {threads : List OutboxThread} {polls : List Poll}
    (tracked : List.Forall₂ (Tracked maxAttempts) threads polls)
    (ended : ∀ thread ∈ threads, Ended thread.rest)
    : polls.filterMap Poll.failing? = [] ∧ polls.filterMap Poll.reporting? = []
      ∧ threads.map (fun thread => deadLettersOf thread.rest)
        = polls.map Poll.deadLettered := by
  induction tracked with
  | nil => exact ⟨rfl, rfl, rfl⟩
  | @cons thread poll threads polls first _ ih =>
      have here := ended thread (List.mem_cons_self ..)
      rw [first.rest] at here
      obtain ⟨failing, _, reporting, counted⟩ := first.clear.ended first.sharing.2 here
      obtain ⟨unfailing, unreporting, counts⟩ :=
        ih (fun other member => ended other (List.mem_cons_of_mem _ member))
      refine ⟨by simp [failing, unfailing], by simp [reporting, unreporting], ?_⟩
      rw [List.map_cons, List.map_cons, counts, first.rest, counted]

/-- Where no poll is in progress the retry budget is kept, in every run in which every claimed
row has a valid date, every value the publisher rejects with can be printed, and the metrics
hook does not throw.
-/
theorem retryBudget_kept (positive : 1 ≤ maxAttempts)
    (fresh : ∀ stored ∈ store.rows, OutboxStore.New stored)
    (run : Execution (OutboxStep maxAttempts) (.start store) labels pool)
    (unobstructed : ∀ event ∈ answered labels, Unobstructed event)
    (ended : ∀ thread ∈ pool.threads, Ended thread.rest)
    : RetryBudget maxAttempts labels pool := by
  obtain ⟨polls, tracked, balanced⟩ := kept_of_run positive fresh run unobstructed
  obtain ⟨unfailing, unreporting, counts⟩ := ended_of_tracked tracked ended
  obtain ⟨_, books, reports, dead, notAgain⟩ := balanced
  rw [unfailing] at books
  rw [unreporting] at reports
  have counted : ∀ stored ∈ pool.world.rows,
      stored.row.attempts = failedPublishes (answered labels) stored.row.id := by
    intro stored member
    simpa using books.charged stored member
  constructor
  · intro stored member
    rw [← counted stored member]
    by_cases buried : stored.status = .failedDlq
    · exact (books.dead stored member buried).le
    · exact (books.alive stored member buried).le
  · exact counted
  · exact notAgain
  · rw [List.map_nil, List.append_nil] at reports
    exact reports
  · rw [counts]
    exact dead

/-- A table of one row that has not failed. -/
def soleRow : OutboxStore where
  rows := [⟨sampleRow "a", .pending⟩]
  distinct := by simp

/-- Options with a retry budget of one and the metrics hook. -/
def strictOptions : OutboxPublisherOptions :=
  { sampleOptions with maxAttempts := 1, onDeadLetter := true }

/-- A row whose only attempt fails is reported once and counted once. -/
theorem retryBudget_kept_soleRow
    : let events : List OutboxEvent :=
        [⟨.claimPendingBatch 100, .ok [sampleRow "a"]⟩,
          ⟨.publish (sampleEnvelope "a"), .error boom⟩,
          ⟨.markFailed "a" 0 "Error: boom" 1, .ok ()⟩,
          ⟨.onDeadLetter "knowledge.item.created", .ok ()⟩,
          ⟨.warn
            "Outbox event exhausted retry budget — permanently FAILED_DLQ, needs manual triage"
            "a" 1 boom, ()⟩]
      RetryBudget 1 (.start strictOptions :: events.map (.answer 0))
        {
          threads :=
            [{ call := strictOptions, history := events, rest := .done ⟨1, 0, 1, 1⟩ }]
          world := (soleRow.update ["a"] id .inflight).update ["a"] (fun _ => 0 + 1) .failedDlq
        } := by
  refine retryBudget_kept (Int.le_refl 1) ?_
    (Pool.run_call ⟨rfl, rfl⟩ (.step _ (.step _ (.step _ (.step _ (.step _ (.refl _))))))
      (.cons (.claimed ?_ ?_ ?_)
        (.cons (.published _) (.cons .failed (.cons (.reported _) (.cons .logged (.nil _)))))))
    ?_ ?_
  · simp [OutboxStore.New, sampleRow]
  · simp [Pool.start]
  · simp
  · simp
  · simp [answered, Unobstructed, Dated, sampleRow, boom, Thrown.printable, Thrown.toText,
      Except.isOk, Except.toBool]
  · simp [Ended]

/-- The publisher rejects with a value that cannot be printed: recording the failure throws,
the poll ends, and its row stays claimed, with a failed publish that its attempts do not
count.
-/
theorem retryBudget_unprintable
    : let events : List OutboxEvent :=
        [⟨.claimPendingBatch 100, .ok [sampleRow "a"]⟩,
          ⟨.publish (sampleEnvelope "a"), .error (.value 0 none)⟩]
      let labels : List OutboxLabel := .start strictOptions :: events.map (.answer 0)
      ∃ pool : OutboxPool,
        Execution (OutboxStep 1) (.start soleRow) labels pool
        ∧ (∀ thread ∈ pool.threads, Ended thread.rest)
        ∧ ¬ RetryBudget 1 labels pool := by
  refine ⟨_, Pool.run_call ⟨rfl, rfl⟩ (.step _ (.step _ (.refl _)))
    (.cons (.claimed ?_ ?_ ?_) (.cons (.published _) (.nil _))), ?_, ?_⟩
  · simp [soleRow, Pool.start]
  · simp
  · simp
  · intro thread member
    obtain rfl := List.mem_singleton.mp member
    intro op resume absurd
    cases absurd
  · intro budget
    have counted := budget.counted ⟨sampleRow "a", .inflight⟩
      (by simp [soleRow, OutboxStore.update, Pool.start, StoredRow.mark])
    simp [answered, failedPublishes, rejections, handovers, sampleRow, sampleEnvelope] at counted

end SharedKernel.Outbox
