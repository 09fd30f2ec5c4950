import SharedKernel.Outbox.HandledRows

/-! From the row to the handler: without a restart of a consumer, a row's event is handled at
most once, and once more for each rejected mark and each rejected publish that wrote.
-/

namespace SharedKernel.Outbox

open Foundation Js Messaging

variable {loop : ReplayLoop} {transport : KafkaTransport} {store : OutboxStore}
  {labels : List PipelineLabel} {pipeline next : Pipeline} {label : PipelineLabel}

-----------------------------------------------------------------------------------------
-- Runs without a restart
-----------------------------------------------------------------------------------------

/-- Nothing but the outbox produces, and never a dead letter; no consumer restarts. -/
def Untouched (loop : ReplayLoop) : PipelineLabel → Prop
  | .outbox _ => True
  | .published _ partition _ => partition.topic ≠ deadLetterTopic loop.topic
  | .broker (.produced _ _) => False
  | .broker label => loop.Undisturbed label

/-- The steps of the pipeline around a loop that leave it untouched. -/
def CleanPipelineStep (loop : ReplayLoop) (transport : KafkaTransport) (pipeline : Pipeline)
    (label : PipelineLabel) (next : Pipeline)
    : Prop :=
  PipelineStep transport loop.consumer loop.adapter.producer loop.replayer pipeline label next
  ∧ Untouched loop label

theorem CleanPipelineStep.pipeline_run
    (run : Execution (CleanPipelineStep loop transport) (.start store) labels pipeline)
    : Execution (PipelineStep transport loop.consumer loop.adapter.producer loop.replayer)
        (.start store) labels pipeline :=
  run.mono (fun _ _ _ taken => taken.1)

/-- A clean run of the pipeline is a clean run of the loop. -/
theorem CleanPipelineStep.cluster_run
    (run : Execution (CleanPipelineStep loop transport) (.start store) labels pipeline)
    : Execution loop.CleanStep (.start (fun _ => [])) (labels.filterMap PipelineLabel.cluster?)
        pipeline.cluster := by
  refine run.project Pipeline.cluster PipelineLabel.cluster? ?_
  rintro state label next ⟨taken, untouched⟩
  cases taken with
  | outbox taken unwritten => exact Or.inr ⟨rfl, rfl⟩
  | published taken goes written appended => exact Or.inl ⟨_, rfl, appended, untouched⟩
  | @broker label cluster taken =>
      cases label with
      | produced partition record => exact untouched.elim
      | consumer label => exact Or.inl ⟨_, rfl, taken, untouched⟩
      | replayer label => exact Or.inl ⟨_, rfl, taken, untouched⟩

theorem CleanPipelineStep.outboxOnly
    (run : Execution (CleanPipelineStep loop transport) (.start store) labels pipeline)
    : OutboxOnly labels := by
  induction run with
  | start =>
      intro partition record member
      cases member
  | snoc earlier taken ih =>
      intro partition record member
      rcases List.mem_append.mp member with before | now
      · exact ih partition record before
      · obtain rfl := List.mem_singleton.mp now
        exact taken.2.elim

-----------------------------------------------------------------------------------------
-- How many messages a row has
-----------------------------------------------------------------------------------------

/-- The row whose publish the transport rejected although it had written. -/
def PipelineLabel.uncertain? : PipelineLabel → Option String
  | .published (.answer _ ⟨.publish envelope, .error _⟩) _ _ => some envelope.id
  | _ => none

/-- Each message of a row was accepted, or rejected although it was written. -/
theorem written_count_le (id : String) (labels : List PipelineLabel)
    : (labels.filterMap PipelineLabel.written?).count id
      ≤ (deliveries (callsOf (labels.filterMap PipelineLabel.outbox?))).count id
        + (labels.filterMap PipelineLabel.uncertain?).count id := by
  induction labels with
  | nil => exact Nat.le_refl 0
  | cons label labels ih =>
      have first : ([label].filterMap PipelineLabel.written?).count id
          ≤ (deliveries (callsOf ([label].filterMap PipelineLabel.outbox?))).count id
            + ([label].filterMap PipelineLabel.uncertain?).count id := by
        cases label with
        | outbox label => exact Nat.zero_le _
        | broker label => exact Nat.zero_le _
        | published label partition record =>
            cases label with
            | start call => exact Nat.zero_le _
            | drift => exact Nat.zero_le _
            | answer thread event =>
                obtain ⟨op, reply⟩ := event
                cases op with
                | publish envelope =>
                    cases reply with
                    | error err => exact Nat.le_add_left _ _
                    | ok _ => exact Nat.le_add_right _ _
                | claimPendingBatch | markProcessed | markFailed | onDeadLetter | warn =>
                    exact Nat.zero_le _
      have told : callsOf ((label :: labels).filterMap PipelineLabel.outbox?)
          = callsOf ([label].filterMap PipelineLabel.outbox?)
            ++ callsOf (labels.filterMap PipelineLabel.outbox?) := by
        rw [← List.singleton_append, List.filterMap_append, callsOf, List.map_append]
        exact List.filterMap_append
      rw [told, deliveries_append, List.count_append]
      rw [← List.singleton_append, List.filterMap_append, List.filterMap_append,
        List.count_append, List.count_append]
      omega

-----------------------------------------------------------------------------------------
-- How often a row is handled
-----------------------------------------------------------------------------------------

/-- A handler has resolved for the event of the row. -/
def resolvedFor (id : String) (event : ConsumerEvent) : Bool :=
  match event with
  | ⟨.handle _ given _, .ok _⟩ =>
      match given.field? "id" with
      | some (.str named) => named = id
      | _ => false
  | _ => false

/-- How often a handler has resolved for the event of the row. -/
def resolutions (id : String) (history : List ConsumerEvent) : Nat :=
  history.countP (resolvedFor id)

/-- Handlers that are given a row resolve for no other. -/
theorem resolvedFor_given {row : ClaimedOutboxEvent} {history : List ConsumerEvent} {id : String}
    {event : ConsumerEvent} (given : ResilientEventConsumer.GivesRow row history event.op)
    (resolved : succeeded event = true)
    : resolvedFor id event = true ↔ row.id = id := by
  obtain ⟨op, reply⟩ := event
  cases op with
  | handle eventType event context =>
      cases reply with
      | error err => cases resolved
      | ok _ =>
          obtain ⟨_, _, delivers, _⟩ := given
          simp [resolvedFor, delivers.id]
  | commitOffsets | deadLetter | onRetry | sleep | randomHex | log => cases resolved

theorem succeeded_of_resolvedFor {id : String} {event : ConsumerEvent}
    (resolved : resolvedFor id event = true)
    : succeeded event = true := by
  obtain ⟨op, reply⟩ := event
  cases op with
  | handle eventType given context =>
      cases reply with
      | error err => cases resolved
      | ok _ => rfl
  | commitOffsets | deadLetter | onRetry | sleep | randomHex | log => cases resolved

theorem resolutions_le (id : String) (history : List ConsumerEvent)
    : resolutions id history ≤ successes history :=
  List.countP_mono_left (fun _ _ resolved => succeeded_of_resolvedFor resolved)

/-- In every run without a restart of a consumer, over all deliveries of all copies of all
messages, a handler resolves for the event of a row at most once, and once more for each
rejected mark of the row, each time it was put back, and each rejected publish of it that
wrote.
-/
theorem row_handled_once
    (run : Execution (CleanPipelineStep loop transport) (.start store) labels pipeline)
    (doubles : ∀ stored ∈ pipeline.pool.world.rows, stored.row.payload.Doubles)
    {partitions : List TopicPartition} (distinct : partitions.Nodup) (id : String)
    : ((pipeline.cluster.consumer.deliveries partitions).map
        (fun delivery => resolutions id delivery.history)).sum
      ≤ 1 + (rejectedMarks (callsOf (labels.filterMap PipelineLabel.outbox?))).count id
        + (putBack (labels.filterMap PipelineLabel.outbox?)).count id
        + (labels.filterMap PipelineLabel.uncertain?).count id := by
  have steps := CleanPipelineStep.pipeline_run run
  have lineage := ReplayLoop.lineage_of_run (CleanPipelineStep.cluster_run run)
  have genuine := consumer_genuine (Pipeline.cluster_run steps)
  obtain ⟨messages, named, written⟩ := written_of_run (CleanPipelineStep.outboxOnly run) steps
  let own := (messages.filter (fun message => message.2 = id)).map Prod.fst
  have each : ∀ message,
      (((pipeline.cluster.consumer.deliveries partitions).filter
        (fun delivery => delivery.record.message = message)).map
          (fun delivery => resolutions id delivery.history)).sum ≤ 1 := by
    intro message
    refine le_trans ?_ (lineage.successes_le_one distinct message genuine)
    exact List.sum_le_sum (fun delivery _ => resolutions_le id delivery.history)
  have handled : ((pipeline.cluster.consumer.deliveries partitions).map
      (fun delivery => resolutions id delivery.history)).sum ≤ own.length := by
    refine @sum_le_length _ _ (fun delivery => delivery.record.message) own _ ?_ each
    intro delivery member resolved
    obtain ⟨stored, _, listed, given⟩ :=
      written.given doubles genuine (lineage.consumer.delivered member)
    obtain ⟨event, happened, resolves⟩ := List.countP_pos_iff.mp (Nat.pos_of_ne_zero resolved)
    have same := (resolvedFor_given (given event happened) (succeeded_of_resolvedFor resolves)).mp
      resolves
    exact List.mem_map.mpr ⟨_, List.mem_filter.mpr ⟨listed, by simpa using same⟩, rfl⟩
  have count : own.length = (labels.filterMap PipelineLabel.written?).count id := by
    rw [← named, List.length_map, ← List.countP_eq_length_filter, List.count, List.countP_map]
    rfl
  have accepted := (bounded_of_run (Pipeline.pool_run steps)).within id
  have total := written_count_le id labels
  omega

/-- Shipping the note leaves its loop untouched. -/
theorem untouched_shipNote : ∀ label ∈ shipNote, Untouched noteLoop label := by
  have alive : "knowledge-events" ≠ deadLetterTopic noteLoop.topic :=
    ReplayLoop.topic_ne_deadLetterTopic noteLoop.topic
  simpa [shipNote, Untouched] using alive

/-- The note is handled once. -/
theorem row_handled_once_noteRow
    : ∃ labels pipeline,
        Execution (CleanPipelineStep noteLoop knowledgeTransport) (.start soleNote) labels pipeline
        ∧ (∃ delivery ∈ pipeline.cluster.consumer.deliveries [⟨"knowledge-events", 0⟩],
            0 < resolutions "1" delivery.history)
        ∧ ((pipeline.cluster.consumer.deliveries [⟨"knowledge-events", 0⟩]).map
            (fun delivery => resolutions "1" delivery.history)).sum ≤ 1 := by
  obtain ⟨⟨pool, cluster⟩, run, rows, started⟩ :=
    ships_soleNote noteReader plainAdapter.producer knowledgeLoop.replayer
  dsimp only at rows started
  subst started
  have lift : ∀ logs group label later next,
      label.Steady
      → GroupStep (consumerSpec noteReader plainAdapter.producer) logs group label later next
      → CleanPipelineStep noteLoop knowledgeTransport ⟨pool, ⟨logs, group, .start⟩⟩
          (.broker (.consumer label)) ⟨pool, ⟨later, next, .start⟩⟩ :=
    fun _ _ _ _ _ steady taken => ⟨.broker (.consumer taken), steady⟩
  obtain ⟨handled, group, delivery, event, context, going, running, own, _, member⟩ :=
    @reads_note _ _ _ _ _ lift (append (fun _ => []) ⟨"knowledge-events", 0⟩ noteEntry) (by simp)
  have shipped : Execution (CleanPipelineStep noteLoop knowledgeTransport) (.start soleNote)
      shipNote _ :=
    run.restrict untouched_shipNote
  have whole := shipped.trans going
  have doubles : ∀ stored ∈ pool.world.rows, stored.row.payload.Doubles := by
    simpa [rows] using doubles_noteRow
  have among : delivery ∈ group.deliveries [⟨"knowledge-events", 0⟩] := by
    simp [Group.deliveries, running]
  have once := row_handled_once whole doubles (List.nodup_singleton ⟨"knowledge-events", 0⟩) "1"
  refine ⟨_, _, whole, ⟨delivery, among, ?_⟩, ?_⟩
  · obtain ⟨messages, _, written⟩ :=
      written_of_run (CleanPipelineStep.outboxOnly whole) (CleanPipelineStep.pipeline_run whole)
    have delivered : group.Delivered delivery := Or.inr (by rw [own, running])
    obtain ⟨stored, stays, _, given⟩ := written.given doubles
      (consumer_genuine (Pipeline.cluster_run (CleanPipelineStep.pipeline_run whole))) delivered
    obtain rfl : stored = ⟨noteRow, .processed⟩ := by simpa [rows] using stays
    exact List.countP_pos_iff.mpr
      ⟨_, member, (resolvedFor_given (given _ member) rfl).mpr rfl⟩
  · have polled : (handled.map (fun label => PipelineLabel.broker (.consumer label))).filterMap
        PipelineLabel.outbox? = [] := by
      simp [PipelineLabel.outbox?]
    have certain : (handled.map (fun label => PipelineLabel.broker (.consumer label))).filterMap
        PipelineLabel.uncertain? = [] := by
      simp [PipelineLabel.uncertain?]
    rw [List.filterMap_append, List.filterMap_append, polled, certain] at once
    exact once

end SharedKernel.Outbox
