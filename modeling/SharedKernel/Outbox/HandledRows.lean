import SharedKernel.Outbox.Pipeline

/-! What handlers are given: in every delivery of every copy of a message, the data, the type
and the trace of a row of the outbox table.
-/

namespace SharedKernel.Messaging.ResilientEventConsumer

open Foundation Js Tracing

variable {self : ResilientEventConsumer} {opts : Outbox.OutboxPublisherOptions}
  {row : Outbox.ClaimedOutboxEvent} {envelope : CloudEvent} {payload : EachMessagePayload}
  {history : List ConsumerEvent} {rest : ConsumerProgram Unit}

/-- The row has what the envelope check of the consumer looks for. -/
def Identified (row : Outbox.ClaimedOutboxEvent) : Prop :=
  row.id ≠ "" ∧ row.eventType ≠ ""

/-- The operation calls a handler with the data, type and trace of the row, which is then an
identified one, or it calls none; only what is not identified is dead-lettered as a poison pill.
-/
def GivesRow (row : Outbox.ClaimedOutboxEvent) (history : List ConsumerEvent)
    : ConsumerOp → Prop
  | .handle eventType event context =>
      Identified row ∧ eventType = row.eventType ∧ Delivers row event ∧ Traces row history context
  | .deadLetter input => Identified row → input.reason ≠ .poisonPill
  | _ => True

/-- A delivery of a poison pill calls no handler. -/
theorem givesRow_unidentified (unidentified : ¬ Identified row) {err : Thrown}
    (rejected : self.readEnvelope (rawText payload) = .error err)
    (run : Run (self.eachMessage payload) history rest)
    : ∀ event ∈ history, GivesRow row history event.op := by
  have committing : Uses (F := ConsumerEffects) (fun op => ∀ seen, GivesRow row seen op)
      (commit payload) :=
    ⟨fun _ => trivial, fun reply => .settle reply⟩
  have lettering : ∀ notice, Uses (F := ConsumerEffects) (fun op => ∀ seen, GivesRow row seen op)
      (deadLetter payload .poisonPill notice err) := by
    intro notice
    have logging : Uses (F := ConsumerEffects) (fun op => ∀ seen, GivesRow row seen op)
        (callConsumer (.log .error notice)) :=
      ⟨fun _ => trivial, fun _ => trivial⟩
    refine logging.bind (fun _ => Uses.bind (.settle _) (fun error => ?_))
    exact ⟨fun _ identified => absurd identified unidentified, fun reply => .settle reply⟩
  have uses : Uses (F := ConsumerEffects) (fun op => ∀ seen, GivesRow row seen op)
      (self.eachMessage payload) := by
    rw [rawText] at rejected
    unfold eachMessage
    dsimp only
    split
    · exact committing
    · rw [rejected]
      exact (lettering _).bind (fun _ => committing)
  exact fun event member => uses.of_run run event member history

/-- In every delivery, complete or not, of what was written for a row, the handlers are given
this row; witness: the delivery can be completed, and its trace context is established before
the first handler is called.
-/
theorem givesRow_of_run (mapped : Outbox.toCloudEvent opts row = .ok envelope)
    (doubles : row.payload.Doubles) (written : payload.message.value = some envelope.wireValue)
    (run : Run (self.eachMessage payload) history rest)
    : ∀ event ∈ history, GivesRow row history event.op := by
  by_cases identified : Identified row
  case neg =>
    have missing : row.id = "" ∨ row.eventType = "" := by
      rw [Identified] at identified
      tauto
    have rejected := @readEnvelope_checked _ _ _ self _ mapped doubles written
    rw [if_pos missing] at rejected
    exact givesRow_unidentified identified rejected run
  have read : self.readEnvelope (rawText payload) = .ok envelope.toJson :=
    readEnvelope_wireValue mapped identified.1 identified.2 doubles written
  obtain ⟨delivers, header⟩ := delivers_toJson mapped
  obtain ⟨inbound, parsed, _⟩ := parseInboundTraceparent_header (isHeader_traceparent row)
  rw [← header] at parsed
  obtain ⟨more, outcome, complete⟩ := run.completes (fun op => (resolveAll () op).1)
  obtain ⟨head, context, tail, same, established, dispatched⟩ :=
    finishes_eachMessage_dispatch read parsed complete
  have dispatches :=
    throughout_of_dispatch (fun _ => trivial) established
      ((uses_dispatch_dispatches delivers.type).of_run dispatched)
  have unhandled : ∀ event ∈ head, Unhandled event.op :=
    (uses_startTraceContext (fun _ => trivial) _).of_run established
  intro event member
  have dispatch := dispatches event (same ▸ List.mem_append_left more member)
  obtain ⟨op, reply⟩ := event
  cases op with
  | handle eventType given active =>
      obtain ⟨rfl, rfl, rfl⟩ := dispatch
      refine ⟨identified, rfl, delivers, ?_⟩
      rcases List.append_eq_append_iff.mp same with ⟨middle, rfl, _⟩ | ⟨middle, rfl, _⟩
      · exact (unhandled _ (List.mem_append_left middle member)).elim
      · exact (traces_startTraceContext header established).append middle
  | deadLetter input =>
      have reason : input.reason = .handlerError := dispatch
      intro _ poison
      rw [reason] at poison
      cases poison
  | commitOffsets | onRetry | sleep | randomHex | log => trivial

end SharedKernel.Messaging.ResilientEventConsumer

namespace SharedKernel.Outbox

open Foundation Js Messaging

variable {consumer : ResilientEventConsumer} {producer : DeadLetterProducer}
  {replayer : DlqReplayConsumer} {transport : KafkaTransport} {store : OutboxStore}
  {labels : List PipelineLabel} {pipeline : Pipeline}

-----------------------------------------------------------------------------------------
-- Every record of the cluster stems from a row
-----------------------------------------------------------------------------------------

/-- The entry has the value that was written for that row of the table. -/
def FromRow (store : OutboxStore) (id : String) (entry : LogEntry) : Prop :=
  ∃ opts envelope,
    ∃ stored ∈ store.rows,
      stored.row.id = id
      ∧ toCloudEvent opts stored.row = .ok envelope
      ∧ entry.record.value = some envelope.wireValue

/-- A stored row is enough, whatever its attempts. -/
theorem fromRow_of_stored {opts : OutboxPublisherOptions} {envelope : CloudEvent}
    {row : ClaimedOutboxEvent} {entry : LogEntry} (stored : store.Stored row)
    (mapped : toCloudEvent opts row = .ok envelope)
    (value : entry.record.value = some envelope.wireValue)
    : FromRow store row.id entry := by
  obtain ⟨other, member, same⟩ := stored
  exact ⟨opts, envelope, other, member, id_of_content same,
    (toCloudEvent_congr same).trans mapped, value⟩

theorem FromRow.step {id : String} {entry : LogEntry} {pool next : OutboxPool}
    {label : PublisherLabel} (origin : FromRow pool.world id entry)
    (taken : PublisherStep pool label next)
    : FromRow next.world id entry := by
  obtain ⟨opts, envelope, stored, member, rfl, mapped, value⟩ := origin
  have kept : pool.world.Stored stored.row := ⟨stored, member, rfl⟩
  exact fromRow_of_stored (kept.step taken) mapped value

theorem FromRow.of_same {id : String} {entry copy : LogEntry} (origin : FromRow store id entry)
    (same : SameMessage entry copy)
    : FromRow store id copy := by
  obtain ⟨opts, envelope, stored, member, named, mapped, value⟩ := origin
  exact ⟨opts, envelope, stored, member, named, mapped, same.value.trans value⟩

/-- The rows for which the step has written a message. -/
def PipelineLabel.written? : PipelineLabel → Option String
  | .published (.answer _ ⟨.publish envelope, _⟩) _ _ => some envelope.id
  | _ => none

/-- Every entry belongs to one of the messages, and has the value that was written for the row
of that message.
-/
def Written (store : OutboxStore) (messages : List (Nat × String)) (logs : KafkaLogs) : Prop :=
  ∀ partition, ∀ entry ∈ logs partition,
    ∃ id, (entry.message, id) ∈ messages ∧ FromRow store id entry

variable {messages : List (Nat × String)} {logs : KafkaLogs}

theorem Written.step {pool next : OutboxPool} {label : PublisherLabel}
    (written : Written pool.world messages logs) (taken : PublisherStep pool label next)
    : Written next.world messages logs := by
  intro partition entry member
  obtain ⟨id, named, origin⟩ := written partition entry member
  exact ⟨id, named, origin.step taken⟩

/-- A message that is written for a stored row. -/
theorem Written.append (written : Written store messages logs) {partition : TopicPartition}
    {entry : LogEntry} {id : String} (origin : FromRow store id entry)
    : Written store (messages ++ [(entry.message, id)]) (append logs partition entry) := by
  intro other copy member
  obtain ⟨offset, found⟩ := List.getElem?_of_mem member
  rcases getElem?_append found with old | ⟨_, _, rfl⟩
  · obtain ⟨id, named, origin⟩ := written other copy (List.mem_of_getElem? old)
    exact ⟨id, List.mem_append_left _ named, origin⟩
  · exact ⟨id, List.mem_append_right _ (List.mem_singleton_self _), origin⟩

/-- Nothing but the outbox produces. -/
def OutboxOnly (labels : List PipelineLabel) : Prop :=
  ∀ partition record, .broker (.produced partition record) ∉ labels

/-- What a poll is about to hand over is the envelope of a stored row. -/
theorem stored_of_publishing {pool : OutboxPool} {outbox : List PublisherLabel}
    (run : Execution PublisherStep (.start store) outbox pool) {index : Nat}
    {call : OutboxPublisherOptions} {envelope : CloudEvent} {history : List OutboxEvent} {resume}
    (waiting
      : pool.threads[index]?
        = some { call, history, rest := .await (.publish envelope) resume })
    : ∃ row, pool.world.Stored row ∧ toCloudEvent call row = .ok envelope := by
  have polled := ((Pool.sound (PublisherStep.pool_run run)).threads index _ waiting).run
  obtain ⟨row, claimed, mapped⟩ := pollOnce_ownRow.guarded polled
  exact ⟨row, stored_of_claimed (claimsStored_of_run run) waiting claimed, mapped⟩

/-- In every run in which nothing but the outbox produces, every record of every topic, copies
and dead letters included, belongs to a message that was written for a row, and has its
value; by induction on the run.
-/
theorem written_of_run (sole : OutboxOnly labels)
    (run
      : Execution (PipelineStep transport consumer producer replayer) (.start store) labels
          pipeline)
    : ∃ messages : List (Nat × String),
        messages.map Prod.snd = labels.filterMap PipelineLabel.written?
        ∧ Written pipeline.pool.world messages pipeline.cluster.logs := by
  induction run with
  | start =>
      refine ⟨[], rfl, ?_⟩
      intro partition entry member
      cases member
  | snoc earlier taken ih =>
      obtain ⟨messages, named, written⟩ := ih (fun partition record member =>
        sole partition record (List.mem_append_left _ member))
      cases taken with
      | outbox taken unwritten => exact ⟨messages, by simp [named, PipelineLabel.written?],
          written.step taken⟩
      | @published thread envelope reply pool topic index record cluster taken goes written'
          appended =>
          cases appended with
          | @produced _ _ message fresh =>
              have later := written.step taken
              obtain ⟨taken⟩ := taken
              cases taken with
              | answer _ waiting replies =>
                  obtain ⟨row, stored, mapped⟩ :=
                    stored_of_publishing (Pipeline.pool_run earlier) waiting
                  have own : envelope.id = row.id := (toCloudEvent_fields mapped).1
                  refine ⟨messages ++ [(message, row.id)],
                    by simp [named, PipelineLabel.written?, own], ?_⟩
                  exact
                    @Written.append _ _ _ later ⟨topic, index⟩ { record, message, copies := 0 } _
                      (fromRow_of_stored (stored.reply replies) mapped
                        (transport.sameValue _ _ written'))
      | @broker label cluster taken =>
          refine ⟨messages, by simp [named, PipelineLabel.written?], ?_⟩
          intro partition entry member
          have busy := (copies_le (Pipeline.cluster_run earlier)).1
          rcases taken.origin busy member with old | ⟨source, other, among, same, _⟩ | ⟨rfl, _⟩
          · exact written partition entry old
          · obtain ⟨id, listed, origin⟩ := written source other among
            exact ⟨id, same.message ▸ listed, origin.of_same same⟩
          · exact absurd (List.mem_append_right _ (List.mem_singleton_self _)) (sole _ _)

-----------------------------------------------------------------------------------------
-- What the handlers are given
-----------------------------------------------------------------------------------------

/-- A delivery of a message that was written for a row gives no handler anything but that row's
data, type and trace, and takes it for a poison pill only where the row is not identified.
-/
theorem Written.given (written : Written store messages logs)
    (doubles : ∀ stored ∈ store.rows, stored.row.payload.Doubles)
    {group : Group ConsumerEffects Thrown TopicPartition LogEntry}
    (genuine : group.Genuine (consumerSpec consumer producer) logs)
    {delivery : Delivery ConsumerEffects Thrown TopicPartition LogEntry}
    (delivered : group.Delivered delivery)
    : ∃ stored ∈ store.rows,
        (delivery.record.message, stored.row.id) ∈ messages
        ∧ ∀ event ∈ delivery.history,
            ResilientEventConsumer.GivesRow stored.row delivery.history event.op := by
  obtain ⟨_, found, handling⟩ := genuine delivery delivered
  obtain ⟨id, listed, opts, envelope, stored, member, rfl, mapped, value⟩ :=
    written delivery.partition delivery.record (List.mem_of_getElem? found)
  exact ⟨stored, member, listed,
    ResilientEventConsumer.givesRow_of_run mapped (doubles stored member) value handling⟩

/-- In every reachable state of a pipeline in which nothing but the outbox produces, each
delivery of the consumer, of whatever copy, crash or redelivery, is of one row of the table:
it gives no handler anything but that row's data, type and trace, and takes it for a poison
pill only where the row is not identified.
-/
theorem handlers_givenRows (sole : OutboxOnly labels)
    (run
      : Execution (PipelineStep transport consumer producer replayer) (.start store) labels
          pipeline)
    (doubles : ∀ stored ∈ pipeline.pool.world.rows, stored.row.payload.Doubles)
    : ∀ delivery,
        pipeline.cluster.consumer.Delivered delivery
        → ∃ stored ∈ pipeline.pool.world.rows,
            ∀ event ∈ delivery.history,
              ResilientEventConsumer.GivesRow stored.row delivery.history event.op := by
  intro delivery delivered
  obtain ⟨messages, _, written⟩ := written_of_run sole run
  obtain ⟨stored, member, _, given⟩ :=
    written.given doubles (consumer_genuine (Pipeline.cluster_run run)) delivered
  exact ⟨stored, member, given⟩

/-- A note that its handler accepts is given to it as the row has it. -/
theorem handlers_givenRows_noteRow
    : ∃ labels pipeline delivery,
        Execution
            (PipelineStep knowledgeTransport noteReader plainAdapter.producer
              knowledgeLoop.replayer)
            (.start soleNote) labels pipeline
        ∧ pipeline.cluster.consumer.Delivered delivery
        ∧ (∃ event context, ⟨.handle "note" event context, .ok ()⟩ ∈ delivery.history)
        ∧ ∀ event ∈ delivery.history,
            ResilientEventConsumer.GivesRow noteRow delivery.history event.op := by
  obtain ⟨⟨pool, cluster⟩, run, rows, started⟩ :=
    ships_soleNote noteReader plainAdapter.producer knowledgeLoop.replayer
  dsimp only at rows started
  subst started
  have lift : ∀ logs group label later next,
      label.Steady
      → GroupStep (consumerSpec noteReader plainAdapter.producer) logs group label later next
      → PipelineStep knowledgeTransport noteReader plainAdapter.producer knowledgeLoop.replayer
          ⟨pool, ⟨logs, group, .start⟩⟩ (.broker (.consumer label))
          ⟨pool, ⟨later, next, .start⟩⟩ :=
    fun _ _ _ _ _ _ taken => .broker (.consumer taken)
  obtain ⟨handled, group, delivery, event, context, going, running, own, _, member⟩ :=
    @reads_note _ _ _ _ _ lift (append (fun _ => []) ⟨"knowledge-events", 0⟩ noteEntry) (by simp)
  have whole := run.trans going
  have delivered : group.Delivered delivery := Or.inr (by rw [own, running])
  have outbox : OutboxOnly (shipNote ++ handled.map (fun label => .broker (.consumer label))) := by
    intro partition record among
    simp [shipNote] at among
  obtain ⟨stored, among, given⟩ :=
    handlers_givenRows outbox whole (by simpa [rows] using doubles_noteRow) delivery delivered
  rw [rows, List.mem_singleton] at among
  subst among
  exact ⟨_, _, delivery, whole, delivered, ⟨event, context, member⟩, given⟩

end SharedKernel.Outbox
