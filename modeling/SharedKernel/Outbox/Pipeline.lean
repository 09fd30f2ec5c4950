import SharedKernel.Messaging.Lineage
import SharedKernel.Messaging.MessageFate
import SharedKernel.Messaging.WireFormat
import SharedKernel.Outbox.AcceptedOnce

/-! The whole way of an event: any number of publishers poll the outbox table and hand the
rows to a Kafka transport, and both groups work on what arrives.
-/

namespace SharedKernel.Outbox

open Foundation Js Messaging

variable {consumer : ResilientEventConsumer} {producer : DeadLetterProducer}
  {replayer : DlqReplayConsumer}

-----------------------------------------------------------------------------------------
-- The composed system
-----------------------------------------------------------------------------------------

/-- The transport behind the publisher: the topic of an envelope that goes to Kafka, and the
records it may write for one.
-/
structure KafkaTransport where
  topic : CloudEvent → Option String
  writes : CloudEvent → KafkaRecord → Prop
  named : ∀ envelope, topic envelope ≠ some ""
  sameValue : ∀ envelope record, writes envelope record → record.value = some envelope.wireValue

/-- The publishers with their table, and the cluster that they write to. -/
structure Pipeline where
  pool : OutboxPool
  cluster : Cluster

/-- A pipeline before its first poll, with empty topics. -/
def Pipeline.start (store : OutboxStore) : Pipeline where
  pool := .start store
  cluster := .start (fun _ => [])

/-- A step of the publishers alone, of a publish that writes, or of the cluster alone. -/
inductive PipelineLabel where
  | outbox (label : PublisherLabel)
  | published (label : OutboxLabel) (partition : TopicPartition) (record : KafkaRecord)
  | broker (label : ClusterLabel)

/-- The steps of the pipeline: an accepted publish of an envelope that goes to Kafka has
written, a rejected one may have.
-/
inductive PipelineStep (transport : KafkaTransport) (consumer : ResilientEventConsumer)
    (producer : DeadLetterProducer) (replayer : DlqReplayConsumer) (pipeline : Pipeline)
    : PipelineLabel → Pipeline → Prop
  | outbox {label pool} (taken : PublisherStep pipeline.pool label pool)
    (unwritten
      : ∀ thread envelope,
          label = .poll (.answer thread ⟨.publish envelope, .ok ()⟩)
          → transport.topic envelope = none)
    : PipelineStep transport consumer producer replayer pipeline (.outbox label)
        { pipeline with pool }
  | published {thread envelope reply pool topic index record cluster}
    (taken : PublisherStep pipeline.pool (.poll (.answer thread ⟨.publish envelope, reply⟩)) pool)
    (goes : transport.topic envelope = some topic) (written : transport.writes envelope record)
    (appended
      : ClusterStep consumer producer replayer pipeline.cluster
          (.produced ⟨topic, index⟩ record) cluster)
    : PipelineStep transport consumer producer replayer pipeline
        (.published (.answer thread ⟨.publish envelope, reply⟩) ⟨topic, index⟩ record)
        { pool, cluster }
  | broker {label cluster}
    (taken : ClusterStep consumer producer replayer pipeline.cluster label cluster)
    : PipelineStep transport consumer producer replayer pipeline (.broker label)
        { pipeline with cluster }

/-- What the publishers see of a step. -/
def PipelineLabel.outbox? : PipelineLabel → Option PublisherLabel
  | .outbox label => some label
  | .published label _ _ => some (.poll label)
  | .broker _ => none

/-- What the cluster sees of a step. -/
def PipelineLabel.cluster? : PipelineLabel → Option ClusterLabel
  | .outbox _ => none
  | .published _ partition record => some (.produced partition record)
  | .broker label => some label

variable {transport : KafkaTransport} {store : OutboxStore} {labels : List PipelineLabel}
  {pipeline : Pipeline}

/-- A run of the pipeline is a run of the publishers. -/
theorem Pipeline.pool_run
    (run
      : Execution (PipelineStep transport consumer producer replayer) (.start store) labels
          pipeline)
    : Execution PublisherStep (.start store) (labels.filterMap PipelineLabel.outbox?)
        pipeline.pool := by
  refine run.project Pipeline.pool PipelineLabel.outbox? ?_
  intro state label next taken
  cases taken with
  | outbox taken unwritten => exact Or.inl ⟨_, rfl, taken⟩
  | published taken goes written appended => exact Or.inl ⟨_, rfl, taken⟩
  | broker taken => exact Or.inr ⟨rfl, rfl⟩

/-- A run of the pipeline is a run of the cluster. -/
theorem Pipeline.cluster_run
    (run
      : Execution (PipelineStep transport consumer producer replayer) (.start store) labels
          pipeline)
    : Execution (ClusterStep consumer producer replayer) (.start (fun _ => []))
        (labels.filterMap PipelineLabel.cluster?) pipeline.cluster := by
  refine run.project Pipeline.cluster PipelineLabel.cluster? ?_
  intro state label next taken
  cases taken with
  | outbox taken unwritten => exact Or.inr ⟨rfl, rfl⟩
  | published taken goes written appended => exact Or.inl ⟨_, rfl, appended⟩
  | broker taken => exact Or.inl ⟨_, rfl, taken⟩

-----------------------------------------------------------------------------------------
-- The rows, whatever their attempts
-----------------------------------------------------------------------------------------

/-- A row without its attempts. -/
def ClaimedOutboxEvent.content (row : ClaimedOutboxEvent) : ClaimedOutboxEvent :=
  { row with attempts := 0 }

/-- The envelope does not depend on the attempts. -/
theorem toCloudEvent_congr {opts : OutboxPublisherOptions} {row other : ClaimedOutboxEvent}
    (same : row.content = other.content)
    : toCloudEvent opts row = toCloudEvent opts other := by
  have contents : toCloudEvent opts row.content = toCloudEvent opts other.content := by
    rw [same]
  exact contents

theorem id_of_content {row other : ClaimedOutboxEvent} (same : row.content = other.content)
    : row.id = other.id := by
  have ids : row.content.id = other.content.id := by
    rw [same]
  exact ids

namespace OutboxStore

/-- The row is in the table, whatever its attempts. -/
def Stored (store : OutboxStore) (row : ClaimedOutboxEvent) : Prop :=
  ∃ stored ∈ store.rows, stored.row.content = row.content

/-- An update keeps the content of every row. -/
theorem Stored.update {row : ClaimedOutboxEvent} (stored : store.Stored row)
    (ids : List String) (attempts : Int → Int) (status : RowStatus)
    : (store.update ids attempts status).Stored row := by
  obtain ⟨before, member, same⟩ := stored
  by_cases named : before.row.id ∈ ids
  · exact ⟨before.mark attempts status, mem_update.mpr (Or.inl ⟨before, member, named, rfl⟩), same⟩
  · exact ⟨before, mem_update.mpr (Or.inr ⟨member, named⟩), same⟩

/-- The calls of the publishers keep the content of every row. -/
theorem Stored.reply {row : ClaimedOutboxEvent} (stored : store.Stored row)
    {event : OutboxEvent} {later : OutboxStore} (replies : store.Replies event later)
    : later.Stored row := by
  cases replies with
  | unprocessed err | unfailed err => exact stored
  | answers answers =>
      cases answers with
      | claimed | processed | failed => exact stored.update _ _ _
      | unclaimed | published | reported | logged => exact stored

theorem Stored.step {row : ClaimedOutboxEvent} {pool next : OutboxPool} {label : PublisherLabel}
    (stored : pool.world.Stored row) (taken : PublisherStep pool label next)
    : next.world.Stored row := by
  cases taken with
  | requeued ids attempts => exact stored.update _ _ _
  | poll taken =>
      cases taken with
      | start call admits => exact stored
      | answer reply waiting replies => exact stored.reply replies
      | drift moved =>
          obtain ⟨new, _, appended⟩ := moved
          obtain ⟨before, member, same⟩ := stored
          refine ⟨before, ?_, same⟩
          rw [appended]
          exact List.mem_append_left _ member

/-- A row after an update was there before, and has its status from the update or from then.
-/
theorem origin_update {ids : List String} {attempts : Int → Int} {status : RowStatus}
    {stored : StoredRow} (member : stored ∈ (store.update ids attempts status).rows)
    : ∃ before ∈ store.rows,
        before.row.content = stored.row.content
        ∧ (stored.status = before.status ∨ stored.row.id ∈ ids ∧ stored.status = status) := by
  rcases mem_update.mp member with ⟨before, among, named, rfl⟩ | ⟨among, _⟩
  · exact ⟨before, among, rfl, Or.inr ⟨named, rfl⟩⟩
  · exact ⟨stored, among, rfl, Or.inl rfl⟩

/-- A row that is processed after a call was so before, or has just been marked. -/
theorem Replies.processed_origin {event : OutboxEvent} {later : OutboxStore}
    (replies : store.Replies event later) {stored : StoredRow} (member : stored ∈ later.rows)
    (processed : stored.status = .processed)
    : ∃ before ∈ store.rows,
        before.row.content = stored.row.content
        ∧ (before.status = .processed ∨ event.op = .markProcessed stored.row.id) := by
  cases replies with
  | unprocessed err | unfailed err => exact ⟨stored, member, rfl, Or.inl processed⟩
  | answers answers =>
      cases answers with
      | claimed pending distinct few =>
          obtain ⟨before, among, same, kept | ⟨_, absurd⟩⟩ := origin_update member
          · exact ⟨before, among, same, Or.inl (kept ▸ processed)⟩
          · rw [processed] at absurd
            cases absurd
      | processed =>
          obtain ⟨before, among, same, kept | ⟨named, _⟩⟩ := origin_update member
          · exact ⟨before, among, same, Or.inl (kept ▸ processed)⟩
          · exact ⟨before, among, same, Or.inr (by rw [List.mem_singleton.mp named])⟩
      | @failed id currentAttempts error maxAttempts =>
          obtain ⟨before, among, same, kept | ⟨_, absurd⟩⟩ := origin_update member
          · exact ⟨before, among, same, Or.inl (kept ▸ processed)⟩
          · rw [processed] at absurd
            split at absurd <;> cases absurd
      | unclaimed | published | reported | logged =>
          exact ⟨stored, member, rfl, Or.inl processed⟩

end OutboxStore

-----------------------------------------------------------------------------------------
-- What a poll publishes and marks
-----------------------------------------------------------------------------------------

/-- A poll publishes the envelope of a row it has claimed, and marks only a row it has claimed
whose envelope has been accepted.
-/
def OwnRow (opts : OutboxPublisherOptions) (before : List OutboxEvent) : OutboxOp → Prop
  | .publish envelope => ∃ row ∈ claimedRows before, toCloudEvent opts row = .ok envelope
  | .markProcessed id =>
      ∃ row ∈ claimedRows before,
        row.id = id
        ∧ ∃ envelope,
            toCloudEvent opts row = .ok envelope ∧ ⟨.publish envelope, .ok ()⟩ ∈ before
  | _ => True

variable {opts : OutboxPublisherOptions} {row : ClaimedOutboxEvent}
  {history : List OutboxEvent}

/-- Recording a failure publishes and marks nothing processed. -/
theorem recordFailure_ownRow {result : OutboxPollResult} {err : Thrown}
    : Safe (OwnRow opts) (fun _ _ => True) history (recordFailure opts row result err) := by
  cases text : err.toText with
  | error thrown => simp [recordFailure, text]
  | ok error =>
      simp only [recordFailure, text, call, Program.bind_eq, Program.settle_ok,
        Program.done_bind, Program.perform_eq, Program.await_bind, Program.pure_eq]
      refine ⟨trivial, fun marked => ?_⟩
      cases marked with
      | error thrown => trivial
      | ok _ =>
          simp only [Program.settle_ok, Program.done_bind]
          split
          · split
            · refine ⟨trivial, fun reported => ?_⟩
              cases reported with
              | error thrown => trivial
              | ok _ => exact ⟨trivial, fun _ => trivial⟩
            · exact ⟨trivial, fun _ => trivial⟩
          · exact ⟨trivial, fun _ => trivial⟩

/-- A claimed row is published, and marked once that was accepted. -/
theorem publishRow_ownRow {result : OutboxPollResult} (claimed : row ∈ claimedRows history)
    : Safe (OwnRow opts) (fun _ _ => True) history (publishRow opts row result) := by
  simp only [publishRow, Program.tryCatch_eq, safe_handle]
  cases mapped : toCloudEvent opts row with
  | error err =>
      simpa only [publishAndMark, mapped, Program.bind_eq, Program.settle_error,
        Program.fail_bind, safe_fail] using recordFailure_ownRow
  | ok envelope =>
      simp only [publishAndMark, mapped, call, Program.bind_eq, Program.settle_ok,
        Program.done_bind, Program.perform_eq, Program.await_bind, Program.pure_eq]
      refine ⟨⟨row, claimed, mapped⟩, fun published => ?_⟩
      cases published with
      | error err => exact recordFailure_ownRow
      | ok _ =>
          refine ⟨⟨row, ?_, rfl, envelope, mapped, ?_⟩, fun marked => ?_⟩
          · rw [claimedRows_append]
            exact List.mem_append_left _ claimed
          · exact List.mem_append_right _ (List.mem_singleton_self _)
          · cases marked with
            | error err => exact recordFailure_ownRow
            | ok _ => trivial

/-- So is every row of a claimed batch, by induction on the batch. -/
theorem publishRows_ownRow {result : OutboxPollResult} {batch : List ClaimedOutboxEvent}
    (claimed : ∀ row ∈ batch, row ∈ claimedRows history)
    : Safe (OwnRow opts) (fun _ _ => True) history (publishRows opts batch result) := by
  induction batch generalizing history result with
  | nil => trivial
  | cons row rest ih =>
      simp only [publishRows, Program.bind_eq, safe_bind]
      refine (publishRow_ownRow (claimed row (List.mem_cons_self ..))).and_finishes
        (fun events outcome _ => ?_)
      cases outcome with
      | error thrown => trivial
      | ok next =>
          apply ih
          intro other member
          rw [claimedRows_append]
          exact List.mem_append_left _ (claimed other (List.mem_cons_of_mem _ member))

theorem pollOnce_ownRow : Safe (OwnRow opts) (fun _ _ => True) [] (pollOnce opts) := by
  simp only [pollOnce, call, Program.bind_eq, Program.perform_eq, Program.await_bind,
    Program.done_bind]
  refine ⟨trivial, fun claim => ?_⟩
  cases claim with
  | error err => trivial
  | ok batch =>
      simp only [Program.settle_ok, Program.done_bind]
      split
      · trivial
      · apply publishRows_ownRow
        intro row member
        simpa [claimedRows] using member

-----------------------------------------------------------------------------------------
-- Processed rows have arrived
-----------------------------------------------------------------------------------------

/-- What is written for an envelope that goes to Kafka is in its topic. -/
def Arrived (transport : KafkaTransport) (logs : KafkaLogs) (envelope : CloudEvent) : Prop :=
  ∀ topic,
    transport.topic envelope = some topic
    → ∃ index, ∃ entry ∈ logs ⟨topic, index⟩, transport.writes envelope entry.record

theorem Arrived.grow {logs later : KafkaLogs} {envelope : CloudEvent}
    (arrived : Arrived transport logs envelope) (grow : Logs.Grow logs later)
    : Arrived transport later envelope := by
  intro topic goes
  obtain ⟨index, entry, member, written⟩ := arrived topic goes
  exact ⟨index, entry, (grow _).subset member, written⟩

/-- The rows that a call has claimed are in the table. -/
def ClaimsStored (store : OutboxStore) (event : OutboxEvent) : Prop :=
  ∀ limit batch,
    event = ⟨.claimPendingBatch limit, .ok batch⟩ → ∀ row ∈ batch, store.Stored row

/-- The envelope that a call has handed over has arrived. -/
def PublishArrived (transport : KafkaTransport) (logs : KafkaLogs) (event : OutboxEvent)
    : Prop :=
  ∀ envelope, event = ⟨.publish envelope, .ok ()⟩ → Arrived transport logs envelope

/-- The row's envelope has arrived. -/
def RowArrived (transport : KafkaTransport) (logs : KafkaLogs) (row : ClaimedOutboxEvent)
    : Prop :=
  ∃ opts envelope, toCloudEvent opts row = .ok envelope ∧ Arrived transport logs envelope

theorem RowArrived.grow {logs later : KafkaLogs} (arrived : RowArrived transport logs row)
    (grow : Logs.Grow logs later)
    : RowArrived transport later row := by
  obtain ⟨opts, envelope, mapped, arrives⟩ := arrived
  exact ⟨opts, envelope, mapped, arrives.grow grow⟩

theorem RowArrived.of_content {logs : KafkaLogs} {other : ClaimedOutboxEvent}
    (arrived : RowArrived transport logs row) (same : row.content = other.content)
    : RowArrived transport logs other := by
  obtain ⟨opts, envelope, mapped, arrives⟩ := arrived
  exact ⟨opts, envelope, (toCloudEvent_congr same).symm.trans mapped, arrives⟩

/-- In every reachable state of the publishers the claimed rows are in the table, by induction
on the run.
-/
theorem claimsStored_of_run {outbox : List PublisherLabel} {pool : OutboxPool}
    (run : Execution PublisherStep (.start store) outbox pool)
    : pool.Heard (ClaimsStored pool.world) := by
  induction run with
  | start =>
      intro thread member
      cases member
  | @snoc _ before _ next earlier taken ih =>
      have kept : ∀ event, ClaimsStored before.world event → ClaimsStored next.world event :=
        fun event stored limit batch same row member =>
          (stored limit batch same row member).step taken
      cases taken with
      | requeued ids attempts =>
          exact fun thread member event happened => kept event (ih thread member event happened)
      | poll taken =>
          refine ih.step taken kept ?_
          rintro index _ rfl limit batch rfl row member
          cases taken with
          | answer reply waiting replies =>
              have here : before.world.Stored row := by
                cases replies with
                | answers answers =>
                    cases answers with
                    | claimed pending distinct few =>
                        exact ⟨⟨row, .pending⟩, pending row member, rfl⟩
              exact here.reply replies

/-- A row that a waiting poll has claimed is in the table. -/
theorem stored_of_claimed {pool : OutboxPool} (heard : pool.Heard (ClaimsStored pool.world))
    {index : Nat} {call : OutboxPublisherOptions} {rest : OutboxProgram OutboxPollResult}
    (waiting : pool.threads[index]? = some { call, history, rest })
    (claimed : row ∈ claimedRows history)
    : pool.world.Stored row := by
  obtain ⟨event, happened, member⟩ := List.mem_flatMap.mp claimed
  have stored := heard _ (List.mem_of_getElem? waiting) event happened
  obtain ⟨op, reply⟩ := event
  cases op with
  | claimPendingBatch limit =>
      cases reply with
      | error err => cases member
      | ok batch => exact stored limit batch rfl row member
  | publish | markProcessed | markFailed | onDeadLetter | warn => cases member

/-- What has been handed over has arrived, and so has what belongs to a processed row. -/
structure Shipped (transport : KafkaTransport) (pool : OutboxPool) (logs : KafkaLogs)
    : Prop where
  published : pool.Heard (PublishArrived transport logs)
  processed
    : ∀ stored ∈ pool.world.rows,
        stored.status = .processed → RowArrived transport logs stored.row

/-- The row that a poll marks processed has arrived; witness: the poll has claimed it and had
its envelope accepted.
-/
theorem Shipped.marked {pool : OutboxPool} {logs : KafkaLogs} {outbox : List PublisherLabel}
    (shipped : Shipped transport pool logs)
    (run : Execution PublisherStep (.start store) outbox pool) {index : Nat}
    {call : OutboxPublisherOptions} {id : String} {resume}
    (waiting
      : pool.threads[index]? = some { call, history, rest := .await (.markProcessed id) resume })
    {stored : StoredRow} (member : stored ∈ pool.world.rows) (same : stored.row.id = id)
    : RowArrived transport logs stored.row := by
  have polled := ((Pool.sound (PublisherStep.pool_run run)).threads index _ waiting).run
  obtain ⟨row, claimed, named, envelope, mapped, accepted⟩ := pollOnce_ownRow.guarded polled
  obtain ⟨other, among, content⟩ := stored_of_claimed (claimsStored_of_run run) waiting claimed
  obtain rfl : other = stored :=
    pool.world.eq_of_id among member ((id_of_content content).trans (named.trans same.symm))
  have arrived : RowArrived transport logs row :=
    ⟨call, envelope, mapped,
      shipped.published _ (List.mem_of_getElem? waiting) _ accepted envelope rfl⟩
  exact arrived.of_content content.symm

/-- Every step of the publishers keeps this, where the logs have what it has handed over. -/
theorem Shipped.step {pool next : OutboxPool} {logs later : KafkaLogs}
    {outbox : List PublisherLabel} {label : PublisherLabel}
    (shipped : Shipped transport pool logs)
    (run : Execution PublisherStep (.start store) outbox pool)
    (taken : PublisherStep pool label next) (grow : Logs.Grow logs later)
    (arrives
      : ∀ thread envelope,
          label = .poll (.answer thread ⟨.publish envelope, .ok ()⟩)
          → Arrived transport later envelope)
    : Shipped transport next later := by
  have grown
      : ∀ event, PublishArrived transport logs event → PublishArrived transport later event :=
    fun event arrived envelope same => (arrived envelope same).grow grow
  cases taken with
  | requeued ids attempts =>
      refine ⟨fun thread member event happened =>
        grown event (shipped.published thread member event happened), ?_⟩
      intro stored member processed
      obtain ⟨before, among, same, kept | ⟨_, absurd⟩⟩ := OutboxStore.origin_update member
      · exact ((shipped.processed before among (kept ▸ processed)).grow grow).of_content same
      · rw [processed] at absurd
        cases absurd
  | poll taken =>
      constructor
      · refine shipped.published.step taken grown ?_
        rintro index _ rfl envelope rfl
        exact arrives index envelope rfl
      · intro stored member processed
        cases taken with
        | start call admits => exact (shipped.processed stored member processed).grow grow
        | @answer index call history op resume world reply waiting replies =>
            obtain ⟨before, among, same, already | marking⟩ :=
              replies.processed_origin member processed
            · exact ((shipped.processed before among already).grow grow).of_content same
            · obtain rfl : op = .markProcessed stored.row.id := marking
              exact ((shipped.marked run waiting among (id_of_content same)).grow grow).of_content
                same
        | drift moved =>
            obtain ⟨new, ⟨pending, _⟩, appended⟩ := moved
            rw [appended] at member
            rcases List.mem_append.mp member with old | fresh
            · exact (shipped.processed stored old processed).grow grow
            · obtain rfl := List.mem_singleton.mp fresh
              rw [pending] at processed
              cases processed

/-- In every reachable state of the pipeline the processed rows have arrived, by induction on
the run.
-/
theorem shipped_of_run (fresh : ∀ stored ∈ store.rows, OutboxStore.New stored)
    (run
      : Execution (PipelineStep transport consumer producer replayer) (.start store) labels
          pipeline)
    : Shipped transport pipeline.pool pipeline.cluster.logs := by
  induction run with
  | start =>
      refine ⟨?_, ?_⟩
      · intro thread member
        cases member
      · intro stored member processed
        rw [(fresh stored member).1] at processed
        cases processed
  | snoc earlier taken ih =>
      have run := Pipeline.pool_run earlier
      cases taken with
      | outbox taken unwritten =>
          refine ih.step run taken (.refl _) ?_
          intro thread envelope same topic goes
          rw [unwritten thread envelope same] at goes
          cases goes
      | @published thread envelope reply pool topic index record cluster taken goes written
          appended =>
          refine ih.step run taken appended.grows ?_
          intro thread envelope' same topic' goes'
          cases same
          obtain rfl := Option.some.inj (goes.symm.trans goes')
          cases appended with
          | produced _ _ fresh => exact ⟨index, _, mem_append_self .., written⟩
      | broker taken =>
          have grow := taken.grows
          refine ⟨?_, ?_⟩
          · intro thread member event happened envelope same
            exact (ih.published thread member event happened envelope same).grow grow
          · intro stored member processed
            exact (ih.processed stored member processed).grow grow

/-- The value written for an envelope is not empty: its text begins with a brace. -/
theorem wireValue_ne_nil (envelope : CloudEvent) : envelope.wireValue ≠ [] := by
  intro empty
  have text : Buffer.toText envelope.wireValue = envelope.toJson.stringify :=
    Buffer.toText_ofText _
  rw [(Buffer.toText_eq_empty _).mpr empty] at text
  have chars := congrArg String.toList text
  simp [Json.stringify, CloudEvent.toJson, Json.encode] at chars

-----------------------------------------------------------------------------------------
-- What becomes of a processed row
-----------------------------------------------------------------------------------------

/-- The row's envelope, if it goes to Kafka, is in its topic as the transport wrote it, and
its message is accounted for.
-/
def RowAccounted (transport : KafkaTransport) (consumer : ResilientEventConsumer)
    (replayer : DlqReplayConsumer) (cluster : Cluster) (row : ClaimedOutboxEvent)
    : Prop :=
  ∃ opts envelope,
    toCloudEvent opts row = .ok envelope
    ∧ ∀ topic,
        transport.topic envelope = some topic
        → ∃ index,
            ∃ entry ∈ cluster.logs ⟨topic, index⟩,
              transport.writes envelope entry.record ∧ Fate consumer replayer cluster topic entry

/-- What has arrived of a row is accounted for. -/
theorem RowArrived.accounted (arrived : RowArrived transport pipeline.cluster.logs row)
    (run
      : Execution (PipelineStep transport consumer producer replayer) (.start store) labels
          pipeline)
    (safe : pipeline.cluster.SafeOffsets)
    : RowAccounted transport consumer replayer pipeline.cluster row := by
  obtain ⟨opts, envelope, mapped, arrives⟩ := arrived
  refine ⟨opts, envelope, mapped, ?_⟩
  intro topic goes
  obtain ⟨index, entry, among, written⟩ := arrives topic goes
  have named : topic ≠ "" := by
    rintro rfl
    exact transport.named envelope goes
  have nonempty : entry.record.value.getD [] ≠ [] := by
    rw [transport.sameValue envelope entry.record written]
    exact wireValue_ne_nil envelope
  exact ⟨index, entry, among, written,
    fate_of_run (Pipeline.cluster_run run) safe named nonempty among⟩

/-- In every reachable state of the pipeline, whatever crashes, rejections and redeliveries
occur, the event of every processed row is waiting for the consumer, has been routed, is
waiting for the replay consumer, or has used up its replays.
-/
theorem processed_accounted (fresh : ∀ stored ∈ store.rows, OutboxStore.New stored)
    (run
      : Execution (PipelineStep transport consumer producer replayer) (.start store) labels
          pipeline)
    (safe : pipeline.cluster.SafeOffsets)
    : ∀ stored ∈ pipeline.pool.world.rows,
        stored.status = .processed
        → RowAccounted transport consumer replayer pipeline.cluster stored.row :=
  fun stored member processed =>
    ((shipped_of_run fresh run).processed stored member processed).accounted run safe

/-- A transport that writes every envelope to the topic of the knowledge events. -/
def knowledgeTransport : KafkaTransport where
  topic _ := some "knowledge-events"
  writes envelope record :=
    record = { key := none, value := some envelope.wireValue, headers := [] }
  named _ := by simp
  sameValue _ _ written := by rw [written]

/-- A pipeline with one poll has its next call answered. -/
theorem answer_solePoll {call : OutboxPublisherOptions}
    {rest later : OutboxProgram OutboxPollResult}
    {event : OutboxEvent} {world : OutboxStore} (run : Run rest [event] later)
    (replies : store.Replies event world)
    : PublisherStep { threads := [{ call, history, rest }], world := store }
        (.poll (.answer 0 event))
        { threads := [{ call, history := history ++ [event], rest := later }], world } := by
  cases run with
  | @step _ resume _ _ reply done =>
      generalize same : resume reply = next at done
      cases done
      subst same
      exact .poll (.answer reply rfl replies)

/-- A table with the note. -/
def soleNote : OutboxStore where
  rows := [⟨noteRow, .pending⟩]
  distinct := by simp

/-- A poll claims the note, hands it over and marks it. -/
def shipNote : List PipelineLabel :=
  [.outbox (.poll (.start sampleOptions)),
    .outbox (.poll (.answer 0 ⟨.claimPendingBatch 100, .ok [noteRow]⟩)),
    .published (.answer 0 ⟨.publish noteEnvelope, .ok ()⟩) ⟨"knowledge-events", 0⟩
      noteEntry.record,
    .outbox (.poll (.answer 0 ⟨.markProcessed "1", .ok ()⟩))]

/-- A poll publishes the note and marks it. -/
theorem ships_soleNote (consumer : ResilientEventConsumer) (producer : DeadLetterProducer)
    (replayer : DlqReplayConsumer)
    : ∃ pipeline,
        Execution (PipelineStep knowledgeTransport consumer producer replayer)
            (.start soleNote) shipNote pipeline
        ∧ pipeline.pool.world.rows = [⟨noteRow, .processed⟩]
        ∧ pipeline.cluster
          = .start (append (fun _ => []) ⟨"knowledge-events", 0⟩ noteEntry) := by
  have claim : soleNote.Answers ⟨.claimPendingBatch 100, .ok [noteRow]⟩
      (soleNote.update ["1"] id .inflight) :=
    .claimed (by simp [soleNote]) (by simp) (by simp)
  have fresh : ∀ other, ∀ entry ∈ (Cluster.start (fun _ => [])).logs other, entry.message ≠ 0 := by
    intro other entry member
    cases member
  refine ⟨_,
    .snoc
      (.snoc
        (.snoc
          (.snoc .start (.outbox (.poll (.start sampleOptions trivial)) ?starts))
          (.outbox (answer_solePoll (.step _ (.refl _)) (.answers claim)) ?claims))
        (@PipelineStep.published knowledgeTransport _ _ _ _ 0 noteEnvelope (.ok ()) _ _ 0 _ _
          (answer_solePoll (.step _ (.refl _)) (.answers (.published _))) rfl rfl
          (.produced ⟨"knowledge-events", 0⟩ _ fresh)))
      (.outbox (@answer_solePoll _ _ _ _ _ ⟨.markProcessed "1", .ok ()⟩ _ (.step _ (.refl _))
          (.answers .processed))
        ?marks),
    ?rows, rfl⟩
  case starts | claims | marks =>
    intro thread envelope same
    cases same
  case rows => simp [OutboxStore.update, soleNote, StoredRow.mark, noteRow]

theorem safeOffsets_soleNote
    : (Cluster.start (append (fun _ => []) ⟨"knowledge-events", 0⟩ noteEntry)).SafeOffsets := by
  intro partition
  have short := length_append_le (fun _ => []) ⟨"knowledge-events", 0⟩ noteEntry partition
  exact short.trans (by simp)

/-- The note that has just been published and marked is accounted for. -/
theorem processed_accounted_noteRow
    : ∃ labels pipeline,
        Execution
            (PipelineStep knowledgeTransport knowledgeLoop.consumer knowledgeLoop.adapter.producer
              knowledgeLoop.replayer)
            (.start soleNote) labels pipeline
        ∧ pipeline.pool.world.rows = [⟨noteRow, .processed⟩]
        ∧ RowAccounted knowledgeTransport knowledgeLoop.consumer knowledgeLoop.replayer
            pipeline.cluster noteRow := by
  obtain ⟨pipeline, run, rows, cluster⟩ := ships_soleNote knowledgeLoop.consumer
    knowledgeLoop.adapter.producer knowledgeLoop.replayer
  have safe : pipeline.cluster.SafeOffsets := cluster ▸ safeOffsets_soleNote
  refine ⟨shipNote, pipeline, run, rows, ?_⟩
  exact processed_accounted (by simp [soleNote, OutboxStore.New, noteRow]) run safe
    ⟨noteRow, .processed⟩ (by simp [rows]) rfl

end SharedKernel.Outbox
