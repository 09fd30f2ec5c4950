import SharedKernel.Outbox.RowRuns

/-! What a poll of the outbox accounts for: which rows it attempts, which it charges with a
failure, and when its counters are those of the batch.
-/

namespace SharedKernel.Outbox

open Foundation Js Messaging

variable {opts : OutboxPublisherOptions} {row : ClaimedOutboxEvent}
  {batch : List ClaimedOutboxEvent} {result : OutboxPollResult} {events : List OutboxEvent}
  {outcome : Except Thrown OutboxPollResult}

/-- A row as its failures name it. -/
def ClaimedOutboxEvent.failureKey (row : ClaimedOutboxEvent) : String × Int :=
  (row.id, row.attempts)

/-- Every row has a valid creation date. -/
def Dated (batch : List ClaimedOutboxEvent) : Prop :=
  ∀ row ∈ batch, row.createdAt ≠ .invalid

/-- A row with a valid creation date has an envelope. -/
theorem toCloudEvent_dated (opts : OutboxPublisherOptions) (dated : row.createdAt ≠ .invalid)
    : ∃ envelope, toCloudEvent opts row = .ok envelope := by
  cases created : row.createdAt with
  | invalid => exact absurd created dated
  | valid time =>
      obtain ⟨text, printed⟩ := Date.toISOString_valid time
      simp [toCloudEvent, created, printed, Except.map]

/-- The envelope of a row has the text of its creation date. -/
theorem toCloudEvent_ok {envelope : CloudEvent} (mapped : toCloudEvent opts row = .ok envelope)
    : ∃ time,
        row.createdAt.toISOString = .ok time
        ∧ envelope
          = {
              specversion := "1.0"
              id := row.id
              source := opts.sourcePrefix ++ "/" ++ row.aggregateType
              type := row.eventType
              time
              subject := some row.aggregateId
              datacontenttype := some "application/json"
              data := row.payload
              orgid := row.orgId
              partitionkey := row.aggregateId
              traceparent := row.traceparent
            } := by
  cases printed : row.createdAt.toISOString with
  | error err => simp [toCloudEvent, printed, Except.map] at mapped
  | ok time =>
      simp only [toCloudEvent, printed, Except.map, Except.ok.injEq] at mapped
      exact ⟨time, rfl, mapped.symm⟩

/-- An envelope carries its row's id, event type and, as partition key, aggregate id. -/
theorem toCloudEvent_fields {envelope : CloudEvent}
    (mapped : toCloudEvent opts row = .ok envelope)
    : envelope.id = row.id ∧ envelope.type = row.eventType
      ∧ envelope.partitionkey = row.aggregateId := by
  obtain ⟨time, _, rfl⟩ := toCloudEvent_ok mapped
  exact ⟨rfl, rfl, rfl⟩

/-- The error of a row without an envelope prints. -/
theorem toCloudEvent_printable {err : Thrown} (unmapped : toCloudEvent opts row = .error err)
    : err.printable = true := by
  cases created : row.createdAt with
  | invalid =>
      simp only [toCloudEvent, created, Date.toISOString, Except.map, Except.error.injEq]
        at unmapped
      subst unmapped
      rfl
  | valid time =>
      obtain ⟨envelope, mapped⟩ :=
        toCloudEvent_dated opts (show row.createdAt ≠ .invalid by simp [created])
      simp [mapped] at unmapped

/-- Counters advanced by published rows and by a list of failed ones. -/
def OutboxPollResult.advance (opts : OutboxPublisherOptions) (result : OutboxPollResult)
    (published : Nat) (failed : List ClaimedOutboxEvent)
    : OutboxPollResult :=
  {
    claimed := result.claimed
    published := result.published + published
    failed := result.failed + failed.length
    deadLettered := result.deadLettered + (failed.filter (isNowDead opts)).length
  }

/-- Advancing twice advances by both counts and both lists. -/
theorem OutboxPollResult.advance_advance (result : OutboxPollResult)
    (published later : Nat) (failed rest : List ClaimedOutboxEvent)
    : (result.advance opts published failed).advance opts later rest
      = result.advance opts (published + later) (failed ++ rest) := by
  simp [advance, Nat.add_assoc]

-----------------------------------------------------------------------------------------
-- One row
-----------------------------------------------------------------------------------------

/-- A recorded failure calls no publisher, marks exactly its row and counts it. -/
theorem Recorded.effect {count} (recorded : Recorded opts row events count)
    : handovers events = []
      ∧ failures events = [row.failureKey]
      ∧ (∀ event ∈ events, escapes event = false)
      ∧ ∀ result, count result = result.advance opts 0 [row] := by
  cases recorded <;>
    simp_all [handovers, failures, ClaimedOutboxEvent.failureKey, escapes,
      OutboxPollResult.withFailure, OutboxPollResult.withDeadLetter,
      OutboxPollResult.advance]

/-- A `try` that fails on a dated row has handed its envelope over, once, and marked no
row failed.
-/
theorem TryFails.effect {err : Thrown} (dated : row.createdAt ≠ .invalid)
    (cause : TryFails opts row events err)
    : (attempts events).map .ok = [toCloudEvent opts row] ∧ failures events = [] := by
  obtain ⟨envelope, known⟩ := toCloudEvent_dated opts dated
  cases cause with
  | unmapped invalid => simp [known] at invalid
  | unpublished mapped => simp [attempts, handovers, failures, mapped]
  | unmarked mapped => simp [attempts, handovers, failures, mapped]

/-- The rejection that fails a `try` escapes only where the thrown value does not print. -/
theorem TryFails.escape_iff {err : Thrown} (cause : TryFails opts row events err)
    : (∃ event ∈ events, escapes event) ↔ err.printable = false := by
  cases cause with
  | unmapped invalid => simp [toCloudEvent_printable invalid]
  | unpublished mapped => simp [escapes]
  | unmarked mapped => simp [escapes]

/-- An unrecorded failure makes a call that escapes, unless the thrown value itself did. -/
theorem Unrecorded.effect {err : Thrown} (unrecorded : Unrecorded opts row err events)
    : err.printable = false ∨ ∃ event ∈ events, escapes event := by
  cases unrecorded with
  | unprintable silent => exact Or.inl silent
  | unmarked _ => exact Or.inr ⟨_, List.mem_singleton.mpr rfl, rfl⟩
  | unreported _ => exact Or.inr ⟨_, List.mem_cons_of_mem _ (List.mem_singleton.mpr rfl), rfl⟩

/-- The calls of some rows account for them: each row is attempted once, in order, and the
counters advance by the published rows and by the failed ones, which are those marked.
-/
structure Accounts (opts : OutboxPublisherOptions) (batch : List ClaimedOutboxEvent)
    (start final : OutboxPollResult) (events : List OutboxEvent)
    : Prop where
  attempted : (attempts events).map .ok = batch.map (toCloudEvent opts)
  counted
    : ∃ published failed,
        failed.Sublist batch
        ∧ published + failed.length = batch.length
        ∧ failures events = failed.map ClaimedOutboxEvent.failureKey
        ∧ final = start.advance opts published failed

/-- Consecutive accounts join: their counts add and their failed rows concatenate. -/
theorem Accounts.append {first later : List ClaimedOutboxEvent}
    {start middle final : OutboxPollResult} {head tail : List OutboxEvent}
    (hl : Accounts opts first start middle head) (hr : Accounts opts later middle final tail)
    : Accounts opts (first ++ later) start final (head ++ tail) := by
  obtain ⟨published, failed, sublist, total, marked, rfl⟩ := hl.counted
  obtain ⟨published', failed', sublist', total', marked', rfl⟩ := hr.counted
  refine ⟨by simp [hl.attempted, hr.attempted], published + published', failed ++ failed',
    sublist.append sublist', ?_, by simp [marked, marked'],
    OutboxPollResult.advance_advance ..⟩
  simp only [List.length_append]
  omega

/-- A row that ends without escaping is accounted for, whether published or failed. -/
theorem RowRun.accounts {next : OutboxPollResult} (dated : row.createdAt ≠ .invalid)
    (run : RowRun opts row result events (.ok next))
    : Accounts opts [row] result next events ∧ ∀ event ∈ events, escapes event = false := by
  cases run with
  | published mapped =>
      refine ⟨⟨by simp [attempts, handovers, mapped], 1, [], ?_⟩, by simp [escapes]⟩
      simp [failures, OutboxPollResult.withPublished, OutboxPollResult.advance]
  | @failed head tail err _ cause printed recorded =>
      obtain ⟨handed, unmarked⟩ := cause.effect dated
      obtain ⟨silent, marked, quiet, count⟩ := recorded.effect
      refine ⟨⟨?_, 0, [row], ?_⟩, ?_⟩
      · simpa [attempts, silent] using handed
      · simp [unmarked, marked, count]
      · intro event member
        rcases List.mem_append.mp member with early | late
        · by_contra loud
          have silent := cause.escape_iff.mp ⟨event, early, by simpa using loud⟩
          simp [silent] at printed
        · exact quiet event late

/-- A row that throws has made a call that escapes. -/
theorem RowRun.escape {thrown : Thrown} (run : RowRun opts row result events (.error thrown))
    : ∃ event ∈ events, escapes event := by
  cases run with
  | escaped cause unrecorded =>
      rcases unrecorded.effect with silent | ⟨event, member, loud⟩
      · obtain ⟨event, member, loud⟩ := cause.escape_iff.mpr silent
        exact ⟨event, List.mem_append_left _ member, loud⟩
      · exact ⟨event, List.mem_append_right _ member, loud⟩

-----------------------------------------------------------------------------------------
-- The whole batch
-----------------------------------------------------------------------------------------

/-- A loop that ends has accounted for its batch and made no call that escapes, by
induction on the batch.
-/
theorem RowsRun.accounts {final : OutboxPollResult} (dated : Dated batch)
    (run : RowsRun opts batch result events (.ok final))
    : Accounts opts batch result final events ∧ ∀ event ∈ events, escapes event = false := by
  generalize ended : Except.ok final = outcome at run
  induction run with
  | nil =>
      cases ended
      exact ⟨⟨rfl, 0, [], by simp [failures, OutboxPollResult.advance]⟩, by simp⟩
  | @cons first rest start head next tail outcome run later ih =>
      obtain ⟨here, quiet⟩ := run.accounts (dated first (by simp))
      obtain ⟨there, quieter⟩ := ih (fun row member => dated row (by simp [member])) ended
      refine ⟨here.append there, fun event member => ?_⟩
      rcases List.mem_append.mp member with early | late
      · exact quiet event early
      · exact quieter event late
  | escaped run => cases ended

/-- A loop that throws has made a call that escapes, by induction on the batch. -/
theorem RowsRun.escape {thrown : Thrown}
    (run : RowsRun opts batch result events (.error thrown))
    : ∃ event ∈ events, escapes event := by
  generalize ended : Except.error thrown = outcome at run
  induction run with
  | nil => cases ended
  | @cons first rest start head next tail outcome run later ih =>
      obtain ⟨event, member, loud⟩ := ih ended
      exact ⟨event, List.mem_append_right _ member, loud⟩
  | escaped run =>
      cases ended
      exact run.escape

/-- One poll isolates its rows: it resolves, every claimed row is attempted exactly once,
and the counters are those of the batch and of the rows marked failed.
-/
structure BatchIsolated (opts : OutboxPublisherOptions) (batch : List ClaimedOutboxEvent)
    (events : List OutboxEvent) (outcome : Except Thrown OutboxPollResult)
    : Prop where
  attempted : (attempts events).map .ok = batch.map (toCloudEvent opts)
  counted
    : ∃ (result : OutboxPollResult) (failed : List ClaimedOutboxEvent),
        outcome = .ok result
        ∧ failed.Sublist batch
        ∧ failures events = failed.map ClaimedOutboxEvent.failureKey
        ∧ result.claimed = batch.length
        ∧ result.published + result.failed = batch.length
        ∧ result.failed = failed.length
        ∧ result.deadLettered = (failed.filter (isNowDead opts)).length

/-- A poll isolates the rows of a dated batch exactly when no call of its error paths
escapes: no `markFailed` rejects, no metrics hook throws, and every value thrown at the
publisher or at `markProcessed` prints.
-/
theorem pollOnce_batchIsolated_iff (dated : Dated batch)
    (run
      : Finishes (pollOnce opts)
          (⟨.claimPendingBatch opts.batchSize, .ok batch⟩ :: events) outcome)
    : BatchIsolated opts batch events outcome ↔ ∀ event ∈ events, escapes event = false := by
  rcases pollOnce_runs run with ⟨_, absurd, _⟩ | ⟨claimed, later, same, rows⟩
  · simp at absurd
  · simp only [List.cons.injEq, Event.mk.injEq, heq_eq_eq, true_and, Except.ok.injEq] at same
    obtain ⟨rfl, rfl⟩ := same
    cases outcome with
    | ok final =>
        obtain ⟨accounts, quiet⟩ := rows.accounts dated
        obtain ⟨published, failed, sublist, total, marked, rfl⟩ := accounts.counted
        refine iff_of_true ⟨accounts.attempted, _, failed, rfl, sublist, marked, ?_⟩ quiet
        simpa [OutboxPollResult.advance, OutboxPollResult.start] using total
    | error thrown =>
        obtain ⟨event, member, loud⟩ := rows.escape
        refine iff_of_false (fun isolated => ?_) (fun quiet => ?_)
        · obtain ⟨_, _, absurd, _⟩ := isolated.counted
          cases absurd
        · simp [quiet event member] at loud

-----------------------------------------------------------------------------------------
-- A batch that is not isolated
-----------------------------------------------------------------------------------------

/-- Options with a retry budget of three and no metrics hook. -/
def sampleOptions : OutboxPublisherOptions :=
  { sourcePrefix := "/cortex/core-api", maxAttempts := 3, batchSize := 100, onDeadLetter := false }

/-- A row of the aggregate `item-1` that has not failed before. -/
def sampleRow (id : String) : ClaimedOutboxEvent :=
  {
    id
    aggregateType := "KnowledgeItem"
    aggregateId := "item-1"
    eventType := "knowledge.item.created"
    orgId := "org-1"
    payload := .null
    attempts := 0
    createdAt := .valid 0
    traceparent := none
  }

/-- The envelope of a sample row. -/
def sampleEnvelope (id : String) : CloudEvent :=
  {
    specversion := "1.0"
    id
    source := "/cortex/core-api/KnowledgeItem"
    type := "knowledge.item.created"
    time := "1970-01-01T00:00:00.000Z"
    subject := some "item-1"
    datacontenttype := some "application/json"
    data := .null
    orgid := "org-1"
    partitionkey := "item-1"
    traceparent := none
  }

/-- The error a sample publisher or store rejects with. -/
def boom : Thrown := .error .error "boom"

/-- The broker rejects row `a`, the store rejects recording that, and row `b` is claimed
but never attempted: the poll rejects although its batch was claimed.
-/
theorem pollOnce_not_batchIsolated
    : let batch := [sampleRow "a", sampleRow "b"]
      let events : List OutboxEvent :=
        [⟨.publish (sampleEnvelope "a"), .error boom⟩,
          ⟨.markFailed "a" 0 "Error: boom" 3, .error boom⟩]
      Dated batch
      ∧ Finishes (pollOnce sampleOptions) (⟨.claimPendingBatch 100, .ok batch⟩ :: events)
          (.error boom)
      ∧ ¬ BatchIsolated sampleOptions batch events (.error boom) := by
  refine ⟨by simp [Dated, sampleRow], .step _ (.step _ (.step _ (.refl _))), ?_⟩
  intro isolated
  obtain ⟨_, _, absurd, _⟩ := isolated.counted
  cases absurd

/-- The broker rejects row `b` and row `c`, which has spent its budget, and both failures are
recorded: the poll isolates them, and publishes row `a` and row `d`.
-/
theorem pollOnce_batchIsolated_iff_recorded
    : let batch :=
        [sampleRow "a", sampleRow "b", { sampleRow "c" with attempts := 2 }, sampleRow "d"]
      let events : List OutboxEvent :=
        [⟨.publish (sampleEnvelope "a"), .ok ()⟩, ⟨.markProcessed "a", .ok ()⟩,
          ⟨.publish (sampleEnvelope "b"), .error boom⟩,
          ⟨.markFailed "b" 0 "Error: boom" 3, .ok ()⟩,
          ⟨.warn "Failed to publish outbox event — will retry" "b" 1 boom, ()⟩,
          ⟨.publish (sampleEnvelope "c"), .error boom⟩,
          ⟨.markFailed "c" 2 "Error: boom" 3, .ok ()⟩,
          ⟨.warn
            "Outbox event exhausted retry budget — permanently FAILED_DLQ, needs manual triage"
            "c" 3 boom, ()⟩,
          ⟨.publish (sampleEnvelope "d"), .ok ()⟩, ⟨.markProcessed "d", .ok ()⟩]
      BatchIsolated sampleOptions batch events (.ok ⟨4, 2, 2, 1⟩) := by
  intro batch events
  have run
      : Finishes (pollOnce sampleOptions) (⟨.claimPendingBatch 100, .ok batch⟩ :: events)
          (.ok ⟨4, 2, 2, 1⟩) :=
    .step _ (.step _ (.step _ (.step _ (.step _ (.step _ (.step _ (.step _ (.step _ (.step _
      (.step _ (.refl _)))))))))))
  refine (pollOnce_batchIsolated_iff (by simp [Dated, batch, sampleRow]) run).mpr ?_
  simp [events, escapes, boom, Thrown.printable, Thrown.toText, Except.isOk, Except.toBool]

end SharedKernel.Outbox
