import SharedKernel.Cqrs.ExactlyOnce
import SharedKernel.Outbox.HandledRows

/-! From the command to the handler: commands append to the outbox inside their transactions,
publishers and consumers carry on from there.
-/

namespace SharedKernel.Outbox

open Foundation Js Messaging Cqrs

-----------------------------------------------------------------------------------------
-- The outbox writer
-----------------------------------------------------------------------------------------

structure OutboxAppendInput where
  eventType : String
  aggregateType : String
  aggregateId : String
  orgId : String
  payload : Json

/-- The outbox writer of the transactions: which of their statements append, and what. -/
structure OutboxWriter where
  input? : Json → Option OutboxAppendInput

/-- What a transaction with these writes appends. -/
def OutboxWriter.inputs (writer : OutboxWriter) (writes : List Json) : List OutboxAppendInput :=
  writes.filterMap writer.input?

/-- A new row with what was appended; its id, its date and its trace are the writer's. -/
structure Appended (input : OutboxAppendInput) (row : ClaimedOutboxEvent) : Prop where
  eventType : row.eventType = input.eventType
  aggregateType : row.aggregateType = input.aggregateType
  aggregateId : row.aggregateId = input.aggregateId
  orgId : row.orgId = input.orgId
  payload : row.payload = input.payload
  attempts : row.attempts = 0

/-- The table grows by these rows at once. -/
def OutboxStore.Gains (store : OutboxStore) (rows : List ClaimedOutboxEvent)
    (later : OutboxStore)
    : Prop :=
  later.rows = store.rows ++ rows.map (fun row => ⟨row, .pending⟩)

-----------------------------------------------------------------------------------------
-- The composed system
-----------------------------------------------------------------------------------------

/-- A transaction that the database has committed: the call that ran it, its writes and the
rows they appended, and whether the commit was accepted or rejected all the same.
-/
structure Transaction where
  thread : Nat
  writes : List Json
  rows : List ClaimedOutboxEvent
  accepted : Bool

/-- The commands of a service, the transactions that its database has committed, in order, and
the pipeline behind its outbox.
-/
structure Backend where
  commands : Pool BusEffects Thrown Value Command Unit
  committed : List Transaction
  pipeline : Pipeline

/-- A backend before its first command. -/
def Backend.start (store : OutboxStore) : Backend where
  commands := .start ()
  committed := []
  pipeline := .start store

/-- A step of the commands, also one that commits a transaction, or of the pipeline. -/
inductive BackendLabel where
  | command (label : PoolLabel BusEffects Command)
  | committed (label : PoolLabel BusEffects Command) (transaction : Transaction)
  | pipeline (label : PipelineLabel)

/-- The steps of the commands of a bus, with any replies. -/
abbrev CommandStep (bus : CommandBus)
    : Pool BusEffects Thrown Value Command Unit → PoolLabel BusEffects Command
      → Pool BusEffects Thrown Value Command Unit → Prop :=
  PoolStep bus.execute (fun _ => True) (fun _ _ _ => True) (fun _ _ => False)

/-- The steps of the backend. An accepted commit makes the writes of its transaction take
effect, all at once, and with them the rows that they append; a rejected one may have. Nothing
else appends rows.
-/
inductive BackendStep (bus : CommandBus) (writer : OutboxWriter) (transport : KafkaTransport)
    (consumer : ResilientEventConsumer) (producer : DeadLetterProducer)
    (replayer : DlqReplayConsumer) (backend : Backend)
    : BackendLabel → Backend → Prop
  | command {label commands} (taken : CommandStep bus backend.commands label commands)
    (uncommitted : ∀ thread result, label ≠ .answer thread ⟨.commit result, .ok ()⟩)
    : BackendStep bus writer transport consumer producer replayer backend (.command label)
        { backend with commands }
  | committed {transaction thread result reply commands later}
    (waiting : backend.commands.threads[transaction.thread]? = some thread)
    (taken
      : CommandStep bus backend.commands (.answer transaction.thread ⟨.commit result, reply⟩)
          commands)
    (writes : transaction.writes = (Ledger.of thread.history).pending.filterMap written?)
    (accepted : transaction.accepted = reply.isOk)
    (appended : List.Forall₂ Appended (writer.inputs transaction.writes) transaction.rows)
    (gained : backend.pipeline.pool.world.Gains transaction.rows later)
    : BackendStep bus writer transport consumer producer replayer backend
        (.committed (.answer transaction.thread ⟨.commit result, reply⟩) transaction)
        {
          commands
          committed := backend.committed ++ [transaction]
          pipeline :=
            {
              backend.pipeline with
              pool := { backend.pipeline.pool with world := later }
            }
        }
  | pipeline {label pipeline}
    (taken : PipelineStep transport consumer producer replayer backend.pipeline label pipeline)
    (own : label ≠ .outbox (.poll .drift))
    : BackendStep bus writer transport consumer producer replayer backend (.pipeline label)
        { backend with pipeline }

variable {bus : CommandBus} {writer : OutboxWriter} {transport : KafkaTransport}
  {consumer : ResilientEventConsumer} {producer : DeadLetterProducer}
  {replayer : DlqReplayConsumer} {store later : OutboxStore} {labels : List BackendLabel}
  {backend next : Backend} {label : BackendLabel} {rows : List ClaimedOutboxEvent}
  {history : List BusEvent}

/-- What the pipeline sees of a step: a transaction appends its rows one by one. -/
def BackendLabel.pipelines : BackendLabel → List PipelineLabel
  | .command _ => []
  | .committed _ transaction => List.replicate transaction.rows.length (.outbox (.poll .drift))
  | .pipeline label => [label]

/-- Whatever stands on the right of a correspondence has a partner on the left, by induction on
the correspondence.
-/
theorem exists_related {γ δ : Type} {related : γ → δ → Prop} {left : List γ} {right : List δ}
    (all : List.Forall₂ related left right) {one : δ} (member : one ∈ right)
    : ∃ partner ∈ left, related partner one := by
  induction all with
  | nil => cases member
  | @cons first second _ _ here later ih =>
      rcases List.mem_cons.mp member with rfl | behind
      · exact ⟨first, List.mem_cons_self .., here⟩
      · obtain ⟨partner, among, holds⟩ := ih behind
        exact ⟨partner, List.mem_cons_of_mem _ among, holds⟩

/-- Rows that are appended at once can be appended one by one, by induction on them. -/
theorem gains_run (new : ∀ row ∈ rows, row.attempts = 0) (pipeline : Pipeline)
    (gained : pipeline.pool.world.Gains rows later)
    : Execution (PipelineStep transport consumer producer replayer) pipeline
        (List.replicate rows.length (.outbox (.poll .drift)))
        { pipeline with pool := { pipeline.pool with world := later } } := by
  induction rows generalizing pipeline with
  | nil =>
      obtain ⟨⟨threads, ⟨stored, distinct⟩⟩, cluster⟩ := pipeline
      obtain ⟨laterRows, laterDistinct⟩ := later
      obtain rfl : laterRows = stored := gained.trans (List.append_nil _)
      exact .start
  | cons row rest ih =>
      rw [List.forall_mem_cons] at new
      have split : later.rows
          = (pipeline.pool.world.rows ++ [⟨row, .pending⟩])
            ++ rest.map (fun row => ⟨row, .pending⟩) := by
        rw [List.append_assoc]
        exact gained
      have distinct
          : ((pipeline.pool.world.rows ++ [(⟨row, .pending⟩ : StoredRow)]).map
              (·.row.id)).Nodup := by
        have all := later.distinct
        rw [split, List.map_append] at all
        exact (List.nodup_append.mp all).1
      have moved : OutboxStore.Appends pipeline.pool.world ⟨_, distinct⟩ :=
        ⟨⟨row, .pending⟩, ⟨rfl, new.1⟩, rfl⟩
      have first : PipelineStep transport consumer producer replayer pipeline
          (.outbox (.poll .drift))
          { pipeline with pool := { pipeline.pool with world := ⟨_, distinct⟩ } } :=
        .outbox (.poll (.drift moved)) (fun _ _ same => by cases same)
      exact .cons first (ih new.2 _ split)

/-- A run of the backend is a run of its pipeline. -/
theorem Backend.pipeline_run
    (run
      : Execution (BackendStep bus writer transport consumer producer replayer) (.start store)
          labels backend)
    : Execution (PipelineStep transport consumer producer replayer) (.start store)
        (labels.flatMap BackendLabel.pipelines) backend.pipeline := by
  refine run.unroll Backend.pipeline BackendLabel.pipelines ?_
  intro state label next taken
  cases taken with
  | command taken uncommitted => exact .start
  | pipeline taken own => exact .cons taken .start
  | committed waiting taken writes accepted appended gained =>
      refine gains_run ?_ _ gained
      intro row member
      obtain ⟨input, _, own⟩ := exists_related appended member
      exact own.attempts

-----------------------------------------------------------------------------------------
-- The table
-----------------------------------------------------------------------------------------

/-- The rows of the table without their attempts and their status. -/
def OutboxStore.contents (store : OutboxStore) : List ClaimedOutboxEvent :=
  store.rows.map (fun stored => stored.row.content)

theorem Appended.content_eq {input : OutboxAppendInput} {row : ClaimedOutboxEvent}
    (appended : Appended input row)
    : row.content = row := by
  rw [ClaimedOutboxEvent.content, ← appended.attempts]

theorem OutboxStore.Gains.contents (gained : store.Gains rows later)
    : later.contents = store.contents ++ rows.map ClaimedOutboxEvent.content := by
  rw [OutboxStore.contents, gained, List.map_append, List.map_map]
  rfl

/-- An update keeps the contents. -/
theorem contents_update (ids : List String) (attempts : Int → Int) (status : RowStatus)
    : (store.update ids attempts status).contents = store.contents := by
  rw [OutboxStore.contents, OutboxStore.contents, OutboxStore.update, List.map_map]
  apply List.map_congr_left
  intro stored _
  dsimp only [Function.comp_apply]
  split <;> rfl

/-- The publishers, and who puts rows back, keep the contents. -/
theorem contents_of_step {pool next : OutboxPool} {label : PublisherLabel}
    (taken : PublisherStep pool label next) (own : label ≠ .poll .drift)
    : next.world.contents = pool.world.contents := by
  cases taken with
  | requeued ids attempts => exact contents_update ..
  | poll taken =>
      cases taken with
      | start call admits => rfl
      | drift moved => exact absurd rfl own
      | answer reply waiting replies =>
          cases replies with
          | unprocessed err | unfailed err => rfl
          | answers answers =>
              cases answers with
              | claimed | processed | failed => exact contents_update ..
              | unclaimed | published | reported | logged => rfl

/-- The table holds what it held at the start and the rows of the committed transactions, in
order, and nothing else; by induction on the run.
-/
theorem contents_of_run
    (run
      : Execution (BackendStep bus writer transport consumer producer replayer) (.start store)
          labels backend)
    : backend.pipeline.pool.world.contents
      = store.contents ++ backend.committed.flatMap Transaction.rows := by
  induction run with
  | start => exact (List.append_nil _).symm
  | snoc earlier taken ih =>
      cases taken with
      | command taken uncommitted => exact ih
      | @pipeline label pipeline taken own =>
          rw [← ih]
          cases taken with
          | outbox taken unwritten =>
              exact contents_of_step taken (fun same => own (by rw [same]))
          | published taken goes written appended => exact contents_of_step taken (by simp)
          | broker taken => rfl
      | @committed transaction thread result reply commands later waiting taken writes accepted
          appended gained =>
          have new : transaction.rows.map ClaimedOutboxEvent.content = transaction.rows := by
            refine (List.map_congr_left fun row member => ?_).trans (List.map_id _)
            obtain ⟨input, _, own⟩ := exists_related appended member
            exact own.content_eq
          have grown := gained.contents
          rw [new, ih, List.append_assoc] at grown
          rw [List.flatMap_append, List.flatMap_singleton]
          exact grown

-----------------------------------------------------------------------------------------
-- The transactions of a command
-----------------------------------------------------------------------------------------

/-- The writes of an attempt that committed. -/
def committed? (attempt : Attempt) : Option (List Json) :=
  match attempt.ended with
  | .ok _ => some attempt.writes
  | .error _ => none

/-- The writes of the attempts that committed in a history. -/
def committedWrites (history : List BusEvent) : List (List Json) :=
  (Ledger.of history).ended.filterMap committed?

theorem ledger_snoc (history : List BusEvent) (event : BusEvent)
    : Ledger.of (history ++ [event]) = (Ledger.of history).step event :=
  Ledger.after_append ..

/-- What an accepted commit adds to the writes; nothing else adds any. -/
def committing (history : List BusEvent) : BusEvent → List (List Json)
  | ⟨.commit _, .ok _⟩ => [(Ledger.of history).pending.filterMap written?]
  | _ => []

theorem committedWrites_snoc (history : List BusEvent) (event : BusEvent)
    : committedWrites (history ++ [event])
      = committedWrites history ++ committing history event := by
  have failed : ∀ opened statements refused error,
      ((Ledger.of history).ended
        ++ [(⟨opened, statements, refused, .error error⟩ : Attempt)]).filterMap committed?
      = (Ledger.of history).ended.filterMap committed? ++ [] :=
    fun opened statements refused error => List.filterMap_append
  rw [committedWrites, ledger_snoc]
  obtain ⟨op, reply⟩ := event
  cases op with
  | begin =>
      cases reply with
      | error error => exact failed false [] none error
      | ok _ => exact (List.append_nil _).symm
  | commit result =>
      cases reply with
      | error error => exact (List.append_nil _).symm
      | ok _ => exact List.filterMap_append
  | rollback error => exact failed true _ _ error
  | statement | afterCommit | recordObservation | random | sleep | undo | recordFailed | log =>
      exact (List.append_nil _).symm

/-- The transactions of a call whose commit was accepted. -/
def Backend.acceptedOf (backend : Backend) (index : Nat) : List Transaction :=
  backend.committed.filter (fun transaction =>
    transaction.thread = index && transaction.accepted)

/-- The accepted transactions of each call are those that its history shows. -/
structure Backend.Recorded (backend : Backend) : Prop where
  started : ∀ transaction ∈ backend.committed, transaction.thread < backend.commands.threads.length
  shown
    : ∀ (index : Nat) thread,
        backend.commands.threads[index]? = some thread
        → (backend.acceptedOf index).map Transaction.writes = committedWrites thread.history

/-- An answer to a call keeps this, with the transactions of that call that it commits. -/
theorem Backend.Recorded.answer (recorded : backend.Recorded) {index : Nat}
    {old new : Thread BusEffects Thrown Value Command} {event : BusEvent}
    {more : List Transaction} (waiting : backend.commands.threads[index]? = some old)
    (history : new.history = old.history ++ [event])
    (threads : next.commands.threads = backend.commands.threads.set index new)
    (committed : next.committed = backend.committed ++ more)
    (own : ∀ transaction ∈ more, transaction.thread = index)
    (gains
      : (more.filter Transaction.accepted).map Transaction.writes
        = committing old.history event)
    : next.Recorded := by
  obtain ⟨bound, _⟩ := List.getElem?_eq_some_iff.mp waiting
  constructor
  · intro transaction member
    rw [threads, List.length_set]
    rw [committed, List.mem_append] at member
    rcases member with before | now
    · exact recorded.started transaction before
    · rwa [own transaction now]
  · intro other thread found
    rw [threads] at found
    have grown : next.acceptedOf other = backend.acceptedOf other
        ++ more.filter (fun transaction =>
          transaction.thread = other && transaction.accepted) := by
      rw [Backend.acceptedOf, committed]
      exact List.filter_append ..
    by_cases same : index = other
    · subst same
      obtain rfl : new = thread := by simpa [List.getElem?_set, bound] using found
      have all : more.filter (fun transaction =>
          transaction.thread = index && transaction.accepted)
          = more.filter Transaction.accepted :=
        List.filter_congr (fun transaction member => by simp [own transaction member])
      rw [grown, all, List.map_append, gains, recorded.shown index old waiting, history,
        committedWrites_snoc]
    · have none : more.filter (fun transaction =>
          transaction.thread = other && transaction.accepted) = [] := by
        apply List.filter_eq_nil_iff.mpr
        intro transaction member
        simp [own transaction member, same]
      rw [List.getElem?_set_ne same] at found
      rw [grown, none, List.append_nil, recorded.shown other thread found]

/-- In every reachable state of the backend this holds, by induction on the run. -/
theorem recorded_of_run
    (run
      : Execution (BackendStep bus writer transport consumer producer replayer) (.start store)
          labels backend)
    : backend.Recorded := by
  induction run with
  | start =>
      constructor
      · intro transaction member
        cases member
      · intro index thread found
        simp [Backend.start, Pool.start] at found
  | @snoc _ before _ _ earlier taken ih =>
      cases taken with
      | pipeline taken own => exact ⟨ih.started, ih.shown⟩
      | command taken uncommitted =>
          cases taken with
          | start call admits =>
              constructor
              · intro transaction member
                have bound := ih.started transaction member
                simp only [List.length_append, List.length_singleton]
                omega
              · intro index thread found
                rw [List.getElem?_append] at found
                split at found
                next => exact ih.shown index thread found
                next late =>
                  obtain rfl := List.mem_singleton.mp (List.mem_of_getElem? found)
                  have none : before.acceptedOf index = [] := by
                    apply List.filter_eq_nil_iff.mpr
                    intro transaction member
                    have bound := ih.started transaction member
                    have other : transaction.thread ≠ index := by omega
                    simp [other]
                  exact congrArg (List.map Transaction.writes) none
          | @answer index call history op resume world reply waiting answered =>
              refine @ih.answer _ _ index _ _ ⟨op, reply⟩ [] waiting rfl rfl
                (List.append_nil _).symm (fun _ member => by cases member) ?_
              cases op with
              | commit result =>
                  cases reply with
                  | error error => rfl
                  | ok _ => exact absurd rfl (uncommitted index result)
              | begin | statement | rollback | afterCommit | recordObservation | random | sleep
              | undo | recordFailed | log => rfl
          | drift moved => exact moved.elim
      | @committed transaction thread result reply commands later waiting taken writes accepted
          appended gained =>
          cases taken with
          | @answer _ call history _ resume world _ waiting' answered =>
              obtain rfl := Option.some.inj (waiting.symm.trans waiting')
              refine ih.answer waiting rfl rfl rfl (by simp) ?_
              cases reply with
              | error error =>
                  have rejected : transaction.accepted = false := accepted
                  simp [rejected, committing]
              | ok _ =>
                  have taken : transaction.accepted = true := accepted
                  simp [taken, committing, writes]

-----------------------------------------------------------------------------------------
-- What becomes of a command's events
-----------------------------------------------------------------------------------------

/-- The last attempt alone commits, where the retries resolve; by induction on them. -/
theorem Retries.committed {remaining : Nat} {attempts : List Attempt}
    {outcome : Except Thrown Value} (retries : Retries bus remaining attempts outcome)
    : (∀ result, outcome = .ok result →
          ∃ earlier last,
            attempts = earlier ++ [last]
            ∧ last.ended = .ok result
            ∧ attempts.filterMap committed? = [last.writes])
      ∧ ∀ error, outcome = .error error → attempts.filterMap committed? = [] := by
  induction retries with
  | @committed remaining attempt result ended =>
      constructor
      · intro value same
        cases same
        exact ⟨[], attempt, rfl, ended, by simp [committed?, ended]⟩
      · intro error same
        cases same
  | rejected ended final =>
      constructor
      · intro value same
        cases same
      · intro error same
        simp [committed?, ended]
  | @retried remaining attempt error rest outcome ended transient later ih =>
      have skipped : (attempt :: rest).filterMap committed? = rest.filterMap committed? := by
        simp [committed?, ended]
      rw [skipped]
      refine ⟨fun value same => ?_, ih.2⟩
      obtain ⟨earlier, last, rfl, resolved, committed⟩ := ih.1 value same
      exact ⟨attempt :: earlier, last, rfl, resolved, committed⟩

/-- The rows of every committed transaction are those of its inputs, by induction on the run. -/
theorem appended_of_run
    (run
      : Execution (BackendStep bus writer transport consumer producer replayer) (.start store)
          labels backend)
    : ∀ transaction ∈ backend.committed,
        List.Forall₂ Appended (writer.inputs transaction.writes) transaction.rows := by
  induction run with
  | start =>
      intro transaction member
      cases member
  | snoc earlier taken ih =>
      cases taken with
      | command taken uncommitted => exact ih
      | pipeline taken own => exact ih
      | committed waiting taken writes accepted appended gained =>
          intro transaction member
          rcases List.mem_append.mp member with before | now
          · exact ih transaction before
          · obtain rfl := List.mem_singleton.mp now
            exact appended

/-- What a handler is given of a row does not depend on its attempts. -/
theorem givesRow_content {row : ClaimedOutboxEvent} {history : List ConsumerEvent}
    {op : ConsumerOp} (gives : ResilientEventConsumer.GivesRow row history op)
    : ResilientEventConsumer.GivesRow row.content history op := by
  cases op with
  | handle eventType event context =>
      obtain ⟨identified, typed, ⟨id, type, time, subject, orgid, partitionkey, data⟩,
        ⟨kept, root⟩⟩ := gives
      exact ⟨identified, typed, ⟨id, type, time, subject, orgid, partitionkey, data⟩, ⟨kept, root⟩⟩
  | commitOffsets | deadLetter | onRetry | sleep | randomHex | log => exact gives

/-- A table without rows. -/
def OutboxStore.empty : OutboxStore where
  rows := []
  distinct := List.nodup_nil

/-- In every run of a backend in which nothing but the outbox produces, each delivery of the
consumer, of whatever copy, crash or redelivery, is of one input of a committed transaction:
handlers are given what that command appended, and never what was rolled back.
-/
theorem handlers_givenCommitted
    (sole : ∀ partition record, .pipeline (.broker (.produced partition record)) ∉ labels)
    (run
      : Execution (BackendStep bus writer transport consumer producer replayer) (.start .empty)
          labels backend)
    (doubles
      : ∀ transaction ∈ backend.committed, ∀ row ∈ transaction.rows, row.payload.Doubles)
    : ∀ delivery,
        backend.pipeline.cluster.consumer.Delivered delivery
        → ∃ transaction ∈ backend.committed,
            (∃ thread,
              backend.commands.threads[transaction.thread]? = some thread
              ∧ (transaction.accepted → transaction.writes ∈ committedWrites thread.history))
            ∧ ∃ input ∈ writer.inputs transaction.writes,
                ∃ row ∈ transaction.rows,
                  Appended input row
                  ∧ ∀ event ∈ delivery.history,
                      ResilientEventConsumer.GivesRow row delivery.history event.op := by
  intro delivery delivered
  have origin : ∀ stored ∈ backend.pipeline.pool.world.rows,
      ∃ transaction ∈ backend.committed, stored.row.content ∈ transaction.rows := by
    intro stored member
    have listed : stored.row.content ∈ backend.pipeline.pool.world.contents :=
      List.mem_map_of_mem member
    rw [contents_of_run run] at listed
    exact List.mem_flatMap.mp listed
  have outbox : OutboxOnly (labels.flatMap BackendLabel.pipelines) := by
    intro partition record member
    obtain ⟨label, among, shown⟩ := List.mem_flatMap.mp member
    cases label with
    | command label => cases shown
    | committed label transaction => cases List.eq_of_mem_replicate shown
    | pipeline label =>
        obtain rfl := List.mem_singleton.mp shown
        exact sole partition record among
  have numbers : ∀ stored ∈ backend.pipeline.pool.world.rows, stored.row.payload.Doubles := by
    intro stored member
    obtain ⟨transaction, among, own⟩ := origin stored member
    exact doubles transaction among stored.row.content own
  obtain ⟨messages, _, written⟩ := written_of_run outbox (Backend.pipeline_run run)
  obtain ⟨stored, member, _, given⟩ :=
    written.given numbers (consumer_genuine (Pipeline.cluster_run (Backend.pipeline_run run)))
      delivered
  obtain ⟨transaction, among, own⟩ := origin stored member
  obtain ⟨input, listed, appended⟩ := exists_related (appended_of_run run transaction among) own
  have recorded := recorded_of_run run
  have started := recorded.started transaction among
  refine ⟨transaction, among, ⟨_, List.getElem?_eq_getElem started, fun accepted => ?_⟩,
    input, listed, stored.row.content, own, appended,
    fun event happened => givesRow_content (given event happened)⟩
  rw [← recorded.shown _ _ (List.getElem?_eq_getElem started)]
  apply List.mem_map_of_mem
  simp [Backend.acceptedOf, among, accepted]

-----------------------------------------------------------------------------------------
-- A note
-----------------------------------------------------------------------------------------

/-- What a command appends for the note. -/
def noteInput : OutboxAppendInput where
  eventType := "note"
  aggregateType := "Note"
  aggregateId := "note-1"
  orgId := "org-1"
  payload := .obj [("version", .num (.finite 3))]

/-- A writer whose every statement appends the note. -/
def noteWriter : OutboxWriter where
  input? _ := some noteInput

/-- The transaction that appends the note. -/
def noteTransaction : Transaction where
  thread := 0
  writes := [.null]
  rows := [noteRow]
  accepted := true

/-- The command until its transaction is ready to commit. -/
def beforeCommit : List BusEvent :=
  executing ⟨"CreateItem", .null⟩
  ++ [⟨.begin, .ok ()⟩, ⟨.statement (.write .null), .ok none⟩]

/-- The command after its commit. -/
def endedCommit : List BusEvent :=
  [⟨.afterCommit ⟨"CreateItem", .null⟩ none, .ok ()⟩,
    ⟨.log .info "Successfully executed CreateItem" none, ()⟩]

theorem appended_noteRow : Appended noteInput noteRow :=
  ⟨rfl, rfl, rfl, rfl, rfl, rfl⟩

/-- Replies of any kind answer a call. -/
theorem answered_any (events : List BusEvent)
    : Answered (fun (_ : Unit) (_ : BusEvent) (_ : Unit) => True) () events () := by
  induction events with
  | nil => exact .nil ()
  | cons event rest ih => exact .cons trivial ih

/-- Steps of the commands are steps of the backend, as long as nothing is committed. -/
theorem command_steps {commands after : Pool BusEffects Thrown Value Command Unit}
    {labels : List (PoolLabel BusEffects Command)} (committed : List Transaction)
    (pipeline : Pipeline)
    (run : Execution (CommandStep bus) commands labels after)
    (quiet : ∀ label ∈ labels, ∀ thread result,
      label ≠ .answer thread ⟨.commit result, .ok ()⟩)
    : Execution (BackendStep bus writer transport consumer producer replayer)
        ⟨commands, committed, pipeline⟩ (labels.flatMap (fun label => [.command label]))
        ⟨after, committed, pipeline⟩ := by
  refine (run.restrict quiet).unroll (fun commands => Backend.mk commands committed pipeline)
    (fun label => [BackendLabel.command label]) ?_
  rintro commands label after ⟨taken, uncommitted⟩
  exact .cons (.command taken uncommitted) .start

/-- So are steps of the pipeline, as long as nothing is appended. -/
theorem pipeline_steps {pipeline after : Pipeline} {labels : List PipelineLabel}
    (commands : Pool BusEffects Thrown Value Command Unit) (committed : List Transaction)
    (run : Execution (PipelineStep transport consumer producer replayer) pipeline labels after)
    (own : ∀ label ∈ labels, label ≠ .outbox (.poll .drift))
    : Execution (BackendStep bus writer transport consumer producer replayer)
        ⟨commands, committed, pipeline⟩ (labels.flatMap (fun label => [.pipeline label]))
        ⟨commands, committed, after⟩ := by
  refine (run.restrict own).unroll (fun pipeline => Backend.mk commands committed pipeline)
    (fun label => [BackendLabel.pipeline label]) ?_
  rintro pipeline label after ⟨taken, own⟩
  exact .cons (.pipeline taken own) .start

/-- A command commits the note and ends. -/
theorem commits_note (consumer : ResilientEventConsumer) (producer : DeadLetterProducer)
    (replayer : DlqReplayConsumer)
    : ∃ labels commands thread,
        Execution (BackendStep sampleBus noteWriter knowledgeTransport consumer producer replayer)
            (.start .empty) labels ⟨commands, [noteTransaction], .start soleNote⟩
        ∧ (∀ partition record, .pipeline (.broker (.produced partition record)) ∉ labels)
        ∧ commands.threads = [thread]
        ∧ thread.call = ⟨"CreateItem", .null⟩
        ∧ thread.rest = Program.settle (.ok none) := by
  have whole
      : Finishes (sampleBus.execute ⟨"CreateItem", .null⟩)
          (beforeCommit ++ ⟨.commit none, .ok ()⟩ :: endedCommit) (.ok none) :=
    .step _ (.step _ (.step _ (.step _ (.step _ (.step _ (.step _ (.refl _)))))))
  obtain ⟨resume, before, after⟩ := whole.awaiting
  have first : Execution (CommandStep sampleBus) (.start ())
      (.start ⟨"CreateItem", .null⟩ :: beforeCommit.map (.answer 0)) _ :=
    Pool.run_call trivial before (answered_any beforeCommit)
  have last : Execution (CommandStep sampleBus) _ (endedCommit.map (.answer 0)) _ :=
    @Pool.run_thread _ _ _ _ _ sampleBus.execute (fun _ => True) (fun _ _ _ => True)
      (fun _ _ => False)
      ⟨[⟨⟨"CreateItem", .null⟩, beforeCommit ++ [⟨.commit none, .ok ()⟩], _⟩], ()⟩
      0 ⟨"CreateItem", .null⟩ _ endedCommit _ _ () rfl after (answered_any endedCommit)
  have commits : BackendStep sampleBus noteWriter knowledgeTransport consumer producer replayer
      ⟨⟨[⟨⟨"CreateItem", .null⟩, beforeCommit, .await (.commit none) resume⟩], ()⟩, [],
        .start .empty⟩
      (.committed (.answer 0 ⟨.commit none, .ok ()⟩) noteTransaction)
      ⟨⟨[⟨⟨"CreateItem", .null⟩, beforeCommit ++ [⟨.commit none, .ok ()⟩], resume (.ok ())⟩], ()⟩,
        [noteTransaction], .start soleNote⟩ :=
    @BackendStep.committed _ _ _ _ _ _ _ noteTransaction _ none (.ok ()) _ soleNote rfl
      (.answer _ rfl trivial) rfl rfl (.cons appended_noteRow .nil) rfl
  have quietly := ((command_steps [] (.start .empty) first ?early).snoc commits).trans
    (command_steps [noteTransaction] (.start soleNote) last ?late)
  refine ⟨_, _, _, quietly, ?sole, rfl, rfl, rfl⟩
  case early => simp [beforeCommit, executing]
  case late => simp [endedCommit]
  case sole => simp

/-- The note that a command committed is given to its handler. -/
theorem handlers_givenCommitted_note
    : ∃ labels backend delivery,
        Execution
            (BackendStep sampleBus noteWriter knowledgeTransport noteReader plainAdapter.producer
              knowledgeLoop.replayer)
            (.start .empty) labels backend
        ∧ backend.pipeline.cluster.consumer.Delivered delivery
        ∧ (∃ event context, ⟨.handle "note" event context, .ok ()⟩ ∈ delivery.history)
        ∧ ∃ transaction ∈ backend.committed,
            ∃ input ∈ noteWriter.inputs transaction.writes,
              ∃ row ∈ transaction.rows,
                Appended input row
                ∧ ∀ event ∈ delivery.history,
                    ResilientEventConsumer.GivesRow row delivery.history event.op := by
  obtain ⟨first, commands, _, committing, quiet, _⟩ :=
    commits_note noteReader plainAdapter.producer knowledgeLoop.replayer
  obtain ⟨⟨pool, cluster⟩, shipping, rows, started⟩ :=
    ships_soleNote noteReader plainAdapter.producer knowledgeLoop.replayer
  dsimp only at rows started
  subst started
  have lift : ∀ logs group label later next,
      label.Steady
      → GroupStep (consumerSpec noteReader plainAdapter.producer) logs group label later next
      → BackendStep sampleBus noteWriter knowledgeTransport noteReader plainAdapter.producer
          knowledgeLoop.replayer ⟨commands, [noteTransaction], ⟨pool, ⟨logs, group, .start⟩⟩⟩
          (.pipeline (.broker (.consumer label)))
          ⟨commands, [noteTransaction], ⟨pool, ⟨later, next, .start⟩⟩⟩ :=
    fun _ _ _ _ _ _ taken => .pipeline (.broker (.consumer taken)) (by simp)
  obtain ⟨handled, group, delivery, event, context, going, running, own, _, member⟩ :=
    @reads_note _ _ _ _ _ lift (append (fun _ => []) ⟨"knowledge-events", 0⟩ noteEntry) (by simp)
  have whole := (committing.trans
    (pipeline_steps commands [noteTransaction] shipping (by simp [shipNote]))).trans going
  have delivered : group.Delivered delivery := Or.inr (by rw [own, running])
  obtain ⟨transaction, among, _, input, listed, row, appended⟩ :=
    handlers_givenCommitted (by simpa [shipNote] using quiet) whole
      (by simpa [noteTransaction] using doubles_noteRow) delivery delivered
  exact ⟨_, _, delivery, whole, delivered, ⟨event, context, member⟩, transaction, among, input,
    listed, row, appended⟩

end SharedKernel.Outbox
