import SharedKernel.Outbox.Accounting

/-! The retry budget of the outbox: which calls charge a row with a failure, and when only
undelivered events are charged.
-/

namespace SharedKernel.Outbox

open Foundation Js Messaging

variable {opts : OutboxPublisherOptions} {row : ClaimedOutboxEvent}
  {batch : List ClaimedOutboxEvent} {result : OutboxPollResult} {events : List OutboxEvent}
  {outcome : Except Thrown OutboxPollResult}

-----------------------------------------------------------------------------------------
-- The rows charged with a failure
-----------------------------------------------------------------------------------------

/-- The events the publisher rejected, in order. -/
def rejections (events : List OutboxEvent) : List CloudEvent :=
  (handovers events).filterMap fun
    | (envelope, .error _) => some envelope
    | (_, .ok _) => none

/-- The latest event handed to the publisher was rejected, and it meets `described`. -/
def LastRejected (described : CloudEvent → Prop) (before : List OutboxEvent) : Prop :=
  ∃ envelope err,
    (handovers before).getLast? = some (envelope, .error err) ∧ described envelope

/-- A call that charges a row with a failure comes after the rejection of that row's own
event, with nothing handed to the publisher in between.
-/
def ChargesRejected (before : List OutboxEvent) (event : OutboxEvent) : Prop :=
  match event.op with
  | .markFailed id _ _ _ => LastRejected (fun envelope => envelope.id = id) before
  | .onDeadLetter eventType => LastRejected (fun envelope => envelope.type = eventType) before
  | _ => True

/-- Only undelivered events burn the retry budget: `markFailed` and the metrics hook are
called for rows the publisher rejected, and the counters count such rows only.
-/
structure OnlyUndeliveredBurn (opts : OutboxPublisherOptions)
    (batch : List ClaimedOutboxEvent) (events : List OutboxEvent)
    (outcome : Except Thrown OutboxPollResult)
    : Prop where
  charged : Throughout ChargesRejected events
  counted
    : ∀ result : OutboxPollResult,
        outcome = .ok result
        → ∃ failed : List ClaimedOutboxEvent,
            failed.Sublist batch
            ∧ (failed.map (toCloudEvent opts)).Sublist ((rejections events).map .ok)
            ∧ result.failed = failed.length
            ∧ result.deadLettered = (failed.filter (isNowDead opts)).length

/-- A row already on the wire is about to be charged with a failure: marking it processed
rejected, with a value that prints.
-/
def withdraws : OutboxEvent → Bool
  | ⟨.markProcessed _, .error err⟩ => err.printable
  | _ => false

@[simp] theorem rejections_append (head tail : List OutboxEvent)
    : rejections (head ++ tail) = rejections head ++ rejections tail := by
  simp [rejections]

/-- What was handed over last is not changed by what came before it. -/
theorem handovers_getLast?_prepend {last : CloudEvent × Except Thrown Unit}
    {tail : List OutboxEvent} (known : (handovers tail).getLast? = some last)
    (head : List OutboxEvent)
    : (handovers (head ++ tail)).getLast? = some last := by
  simp [List.getLast?_append, known]

/-- A justified charge stays justified after more history before it. -/
theorem ChargesRejected.prepend {before : List OutboxEvent} {event : OutboxEvent}
    (charges : ChargesRejected before event) (head : List OutboxEvent)
    : ChargesRejected (head ++ before) event := by
  obtain ⟨op, reply⟩ := event
  cases op with
  | markFailed | onDeadLetter =>
      obtain ⟨envelope, err, last, described⟩ := charges
      exact ⟨envelope, err, handovers_getLast?_prepend last head, described⟩
  | _ => trivial

/-- Justified charges of consecutive histories are justified in the joined one. -/
theorem throughout_chargesRejected_append {head tail : List OutboxEvent}
    (hl : Throughout ChargesRejected head) (hr : Throughout ChargesRejected tail)
    : Throughout ChargesRejected (head ++ tail) :=
  (throughout_append ..).mpr ⟨hl, hr.mono (fun _ _ charges => charges.prepend head)⟩

/-- Some row is marked failed although the publisher has just accepted its event. -/
def ChargesDelivered (events : List OutboxEvent) : Prop :=
  ∃ before event after envelope,
    events = before ++ event :: after
    ∧ (∃ id currentAttempts error maxAttempts,
        event.op = .markFailed id currentAttempts error maxAttempts)
    ∧ (handovers before).getLast? = some (envelope, .ok ())

/-- A delivered row marked failed is an unjustified charge. -/
theorem ChargesDelivered.not_throughout (charges : ChargesDelivered events)
    : ¬ Throughout ChargesRejected events := by
  obtain ⟨before, ⟨op, reply⟩, after, envelope, split, ⟨_, _, _, _, marks⟩, last⟩ := charges
  intro justified
  have here := justified split
  simp only at marks
  subst marks
  obtain ⟨_, _, rejected, _⟩ := here
  simp [last] at rejected

/-- More history on either side keeps an unjustified charge. -/
theorem ChargesDelivered.within (charges : ChargesDelivered events)
    (head tail : List OutboxEvent)
    : ChargesDelivered (head ++ events ++ tail) := by
  obtain ⟨before, event, after, envelope, rfl, marks, last⟩ := charges
  exact ⟨head ++ before, event, after ++ tail, envelope, by simp, marks,
    handovers_getLast?_prepend last head⟩

/-- What the `catch` calls after a rejection charges that row alone. -/
theorem throughout_rejected {envelope : CloudEvent} {err : Thrown} {tail : List OutboxEvent}
    (mapped : toCloudEvent opts row = .ok envelope)
    (caught
      : (∃ count, Recorded opts row tail count) ∨ Unrecorded opts row err tail)
    : Throughout ChargesRejected (⟨.publish envelope, .error err⟩ :: tail) := by
  obtain ⟨sameId, sameType, -⟩ := toCloudEvent_fields mapped
  rcases caught with ⟨count, recorded⟩ | unrecorded
  · cases recorded <;> simp [ChargesRejected, LastRejected, handovers, sameId, sameType]
  · cases unrecorded <;> simp [ChargesRejected, LastRejected, handovers, sameId, sameType]

/-- A row that is not withdrawn is charged only for its own rejection, and counted only
then.
-/
theorem RowRun.burns (dated : row.createdAt ≠ .invalid)
    (run : RowRun opts row result events outcome)
    (kept : ∀ event ∈ events, withdraws event = false)
    : Throughout ChargesRejected events
      ∧ ∀ next,
          outcome = .ok next
          → ∃ published failed,
              failed.Sublist [row]
              ∧ failed.map (toCloudEvent opts) = (rejections events).map .ok
              ∧ next = result.advance opts published failed := by
  obtain ⟨envelope, known⟩ := toCloudEvent_dated opts dated
  cases run with
  | published mapped =>
      refine ⟨by simp [ChargesRejected], ?_⟩
      rintro _ ⟨⟩
      exact ⟨1, [], by simp, by simp [rejections, handovers],
        by simp [OutboxPollResult.withPublished, OutboxPollResult.advance]⟩
  | failed cause printed recorded =>
      cases cause with
      | unmapped invalid => simp [known] at invalid
      | unpublished mapped =>
          obtain ⟨silent, -, -, count⟩ := recorded.effect
          refine ⟨throughout_rejected mapped (Or.inl ⟨_, recorded⟩), ?_⟩
          rintro _ ⟨⟩
          refine ⟨0, [row], by simp, ?_, count result⟩
          simp only [List.cons_append, List.nil_append, rejections, handovers] at silent ⊢
          simp [silent, mapped]
      | unmarked mapped => simp [withdraws, printed] at kept
  | escaped cause unrecorded =>
      refine ⟨?_, fun _ absurd => by cases absurd⟩
      cases cause with
      | unmapped invalid => simp [known] at invalid
      | unpublished mapped => exact throughout_rejected mapped (Or.inr unrecorded)
      | unmarked mapped =>
          cases unrecorded with
          | unprintable silent => simp [ChargesRejected]
          | unmarked printed | unreported printed => simp [withdraws, printed] at kept

/-- A withdrawn row is marked failed although it was delivered. -/
theorem RowRun.withdrawn (run : RowRun opts row result events outcome)
    (withdrawn : ∃ event ∈ events, withdraws event)
    : ChargesDelivered events := by
  cases run with
  | published mapped => simp [withdraws] at withdrawn
  | failed cause printed recorded =>
      cases cause with
      | unmapped invalid => cases recorded <;> simp [withdraws] at withdrawn
      | unpublished mapped => cases recorded <;> simp [withdraws] at withdrawn
      | @unmarked envelope err mapped =>
          cases recorded <;>
            exact ⟨[_, _], _, _, envelope, rfl, ⟨_, _, _, _, rfl⟩, rfl⟩
  | escaped cause unrecorded =>
      cases cause with
      | unmapped invalid => cases unrecorded <;> simp [withdraws] at withdrawn
      | unpublished mapped => cases unrecorded <;> simp [withdraws] at withdrawn
      | @unmarked envelope err mapped =>
          cases unrecorded with
          | unprintable silent => simp [withdraws, silent] at withdrawn
          | unmarked printed | unreported printed =>
              exact ⟨[_, _], _, _, envelope, rfl, ⟨_, _, _, _, rfl⟩, rfl⟩

/-- The rows of a batch none of which is withdrawn are charged only for their own
rejections, by induction on the batch.
-/
theorem RowsRun.burns (dated : Dated batch) (run : RowsRun opts batch result events outcome)
    (kept : ∀ event ∈ events, withdraws event = false)
    : Throughout ChargesRejected events
      ∧ ∀ final,
          outcome = .ok final
          → ∃ published failed,
              failed.Sublist batch
              ∧ failed.map (toCloudEvent opts) = (rejections events).map .ok
              ∧ final = result.advance opts published failed := by
  induction run with
  | nil =>
      refine ⟨by simp, ?_⟩
      rintro _ ⟨⟩
      exact ⟨0, [], by simp, rfl, by simp [OutboxPollResult.advance]⟩
  | @cons first rest start head next tail outcome run later ih =>
      obtain ⟨here, counts⟩ :=
        run.burns (dated first (by simp)) (fun event member => kept event (by simp [member]))
      obtain ⟨there, recounts⟩ :=
        ih (fun row member => dated row (by simp [member]))
          (fun event member => kept event (by simp [member]))
      refine ⟨throughout_chargesRejected_append here there, fun final ended => ?_⟩
      obtain ⟨published, failed, sublist, mapped, rfl⟩ := counts next rfl
      obtain ⟨published', failed', sublist', mapped', rfl⟩ := recounts final ended
      exact ⟨published + published', failed ++ failed', sublist.append sublist',
        by simp [mapped, mapped'], OutboxPollResult.advance_advance ..⟩
  | @escaped first rest start head thrown run =>
      exact ⟨(run.burns (dated first (by simp)) kept).1, fun _ absurd => by cases absurd⟩

/-- A batch with a withdrawn row charges a delivered one, by induction on the batch. -/
theorem RowsRun.withdrawn (run : RowsRun opts batch result events outcome)
    (withdrawn : ∃ event ∈ events, withdraws event)
    : ChargesDelivered events := by
  induction run with
  | nil => simp at withdrawn
  | @cons first rest start head next tail outcome run later ih =>
      obtain ⟨event, member, withdrawn⟩ := withdrawn
      rcases List.mem_append.mp member with early | late
      · simpa using (run.withdrawn ⟨event, early, withdrawn⟩).within [] tail
      · simpa using (ih ⟨event, late, withdrawn⟩).within head []
  | escaped run => exact run.withdrawn withdrawn

/-- Only undelivered events of a dated batch burn the retry budget exactly when no
`markProcessed` rejects with a value that prints: such a rejection reaches the `catch`
written for the publisher's.
-/
theorem pollOnce_onlyUndeliveredBurn_iff (dated : Dated batch)
    (run
      : Finishes (pollOnce opts)
          (⟨.claimPendingBatch opts.batchSize, .ok batch⟩ :: events) outcome)
    : OnlyUndeliveredBurn opts batch events outcome
      ↔ ∀ event ∈ events, withdraws event = false := by
  rcases pollOnce_runs run with ⟨_, absurd, _⟩ | ⟨claimed, later, same, rows⟩
  · simp at absurd
  · simp only [List.cons.injEq, Event.mk.injEq, heq_eq_eq, true_and, Except.ok.injEq] at same
    obtain ⟨rfl, rfl⟩ := same
    constructor
    · intro burn event member
      by_contra withdrawn
      have charges := rows.withdrawn ⟨event, member, by simpa using withdrawn⟩
      exact charges.not_throughout burn.charged
    · intro kept
      obtain ⟨charged, counts⟩ := rows.burns dated kept
      refine ⟨charged, fun final ended => ?_⟩
      obtain ⟨published, failed, sublist, mapped, rfl⟩ := counts final ended
      exact ⟨failed, sublist, by rw [mapped], by simp [OutboxPollResult.advance,
        OutboxPollResult.start]⟩

/-- A row on its last attempt is delivered, marking it processed rejects, and the row is
marked failed for good.
-/
theorem pollOnce_not_onlyUndeliveredBurn
    : let batch := [{ sampleRow "a" with attempts := 2 }]
      let events : List OutboxEvent :=
        [⟨.publish (sampleEnvelope "a"), .ok ()⟩, ⟨.markProcessed "a", .error boom⟩,
          ⟨.markFailed "a" 2 "Error: boom" 3, .ok ()⟩,
          ⟨.warn
            "Outbox event exhausted retry budget — permanently FAILED_DLQ, needs manual triage"
            "a" 3 boom, ()⟩]
      Dated batch
      ∧ Finishes (pollOnce sampleOptions) (⟨.claimPendingBatch 100, .ok batch⟩ :: events)
          (.ok ⟨1, 0, 1, 1⟩)
      ∧ ¬ OnlyUndeliveredBurn sampleOptions batch events (.ok ⟨1, 0, 1, 1⟩) := by
  refine ⟨by simp [Dated, sampleRow],
    .step _ (.step _ (.step _ (.step _ (.step _ (.refl _))))), fun burn => ?_⟩
  obtain ⟨_, _, rejected, _⟩ :=
    @burn.charged [⟨.publish (sampleEnvelope "a"), .ok ()⟩, ⟨.markProcessed "a", .error boom⟩]
      _ _ rfl
  simp [handovers] at rejected

/-- Of a published row and one that the publisher rejects, the second one burns its budget. -/
theorem pollOnce_onlyUndeliveredBurn_iff_rejected
    : let batch := [sampleRow "a", sampleRow "b"]
      let events : List OutboxEvent :=
        [⟨.publish (sampleEnvelope "a"), .ok ()⟩, ⟨.markProcessed "a", .ok ()⟩,
          ⟨.publish (sampleEnvelope "b"), .error boom⟩,
          ⟨.markFailed "b" 0 "Error: boom" 3, .ok ()⟩,
          ⟨.warn "Failed to publish outbox event — will retry" "b" 1 boom, ()⟩]
      OnlyUndeliveredBurn sampleOptions batch events (.ok ⟨2, 1, 1, 0⟩) := by
  intro batch events
  have run
      : Finishes (pollOnce sampleOptions) (⟨.claimPendingBatch 100, .ok batch⟩ :: events)
          (.ok ⟨2, 1, 1, 0⟩) :=
    .step _ (.step _ (.step _ (.step _ (.step _ (.step _ (.refl _))))))
  refine (pollOnce_onlyUndeliveredBurn_iff (by simp [Dated, batch, sampleRow]) run).mpr ?_
  simp [events, withdraws]

end SharedKernel.Outbox
