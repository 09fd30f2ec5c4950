import SharedKernel.Outbox.HandledRows

/-! The order of handling: an event that is in a partition before another is ever written is
settled before a handler is given the other.
-/

namespace SharedKernel.Outbox

open Foundation Js Messaging

variable {consumer : ResilientEventConsumer} {producer : DeadLetterProducer}
  {replayer : DlqReplayConsumer} {transport : KafkaTransport} {store : OutboxStore}
  {before after : List PipelineLabel} {pipeline middle : Pipeline}

-----------------------------------------------------------------------------------------
-- What has been written stays where it is
-----------------------------------------------------------------------------------------

theorem PipelineStep.grows {label : PipelineLabel}
    (taken : PipelineStep transport consumer producer replayer middle label pipeline)
    : Logs.Grow middle.cluster.logs pipeline.cluster.logs := by
  cases taken with
  | outbox taken unwritten => exact .refl _
  | published taken goes written appended => exact appended.grows
  | broker taken => exact taken.grows

theorem grow_of_run
    (run : Execution (PipelineStep transport consumer producer replayer) middle after pipeline)
    : Logs.Grow middle.cluster.logs pipeline.cluster.logs := by
  induction run with
  | start => exact .refl _
  | snoc earlier taken ih => exact fun partition => (ih partition).trans (taken.grows partition)

/-- What a publish has written is in its partition, by induction on the run. -/
theorem written_entry
    (run
      : Execution (PipelineStep transport consumer producer replayer) (.start store) before
          middle)
    {thread : Nat} {envelope : CloudEvent} {reply : Except Thrown Unit}
    {partition : TopicPartition} {record : KafkaRecord}
    (published
      : .published (.answer thread ⟨.publish envelope, reply⟩) partition record ∈ before)
    : transport.writes envelope record
      ∧ ∃ entry ∈ middle.cluster.logs partition, entry.record = record := by
  induction run with
  | start => cases published
  | snoc earlier taken ih =>
      have grow := taken.grows
      rcases List.mem_append.mp published with old | now
      · obtain ⟨writes, entry, member, same⟩ := ih old
        exact ⟨writes, entry, (grow partition).subset member, same⟩
      · obtain rfl := List.mem_singleton.mp now
        cases taken with
        | published taken goes written appended =>
            cases appended with
            | produced _ _ fresh => exact ⟨written, _, mem_append_self .., rfl⟩

-----------------------------------------------------------------------------------------
-- The order of handling
-----------------------------------------------------------------------------------------

/-- A handler has been given the event with the id. -/
def HandlerGiven (id : String) (history : List ConsumerEvent) : Prop :=
  ∃ eventType event context reply,
    ⟨.handle eventType event context, reply⟩ ∈ history ∧ event.field? "id" = some (.str id)

/-- A delivery of a record that was there before the event was ever written does not give it
to a handler.
-/
theorem not_handlerGiven_of_early (sole : OutboxOnly before)
    (run
      : Execution (PipelineStep transport consumer producer replayer) (.start store) before
          middle)
    (doubles : ∀ stored ∈ middle.pool.world.rows, stored.row.payload.Doubles) {id : String}
    (unwritten : id ∉ before.filterMap PipelineLabel.written?)
    {partition : TopicPartition} {offset : Nat} {entry : LogEntry}
    (early : entry ∈ middle.cluster.logs partition) {history : List ConsumerEvent}
    {rest : ConsumerProgram Unit}
    (handling : Run (consumer.eachMessage (entry.payload partition offset)) history rest)
    : ¬ HandlerGiven id history := by
  rintro ⟨eventType, event, context, reply, member, named⟩
  obtain ⟨messages, ids, written⟩ := written_of_run sole run
  obtain ⟨own, listed, opts, envelope, stored, among, rfl, mapped, value⟩ :=
    written partition entry early
  obtain ⟨_, _, delivers, _⟩ :=
    ResilientEventConsumer.givesRow_of_run mapped (doubles stored among) value handling _ member
  obtain rfl : stored.row.id = id := Json.str.inj (Option.some.inj (delivers.id.symm.trans named))
  have written := List.mem_map_of_mem (f := Prod.snd) listed
  rw [ids] at written
  exact unwritten written

/-- An event that is in a partition before another is ever written there has been routed, or
is in the dead letters, whenever a handler has been given the other in that partition.
-/
theorem handled_in_order (sole : OutboxOnly before)
    (run
      : Execution (PipelineStep transport consumer producer replayer) (.start store) before
          middle)
    (onward : Execution (PipelineStep transport consumer producer replayer) middle after pipeline)
    (doubles : ∀ stored ∈ middle.pool.world.rows, stored.row.payload.Doubles)
    (safe : pipeline.cluster.SafeOffsets) {thread : Nat} {envelope : CloudEvent}
    {reply : Except Thrown Unit} {partition : TopicPartition} {record : KafkaRecord}
    (published
      : .published (.answer thread ⟨.publish envelope, reply⟩) partition record ∈ before)
    {id : String} (unwritten : id ∉ before.filterMap PipelineLabel.written?)
    {delivery : Delivery ConsumerEffects Thrown TopicPartition LogEntry}
    (running : pipeline.cluster.consumer.running partition = some delivery)
    (given : HandlerGiven id delivery.history)
    : ∃ offset entry,
        offset < delivery.offset
        ∧ (pipeline.cluster.logs partition)[offset]? = some entry
        ∧ entry.record = record
        ∧ (RouteResolved consumer pipeline.cluster partition offset entry
            ∨ InDeadLetters pipeline.cluster.logs partition.topic entry) := by
  have sound := Cluster.sound (Pipeline.cluster_run (run.trans onward)) safe
  have working := sound.consumer.busy partition delivery running
  obtain ⟨writes, entry, member, same⟩ := written_entry run published
  obtain ⟨offset, there⟩ := List.getElem?_of_mem member
  have grow := grow_of_run onward
  have found := grow.getElem? there
  have later : (middle.cluster.logs partition).length ≤ delivery.offset := by
    by_contra early
    have there' := List.getElem?_eq_getElem (Nat.lt_of_not_le early)
    have first := Option.some.inj ((grow.getElem? there').symm.trans working.found)
    exact not_handlerGiven_of_early sole run doubles unwritten
      (first ▸ List.getElem_mem _) working.run given
  have ahead : offset < delivery.offset :=
    (List.getElem?_eq_some_iff.mp there).1.trans_le later
  have nonempty : entry.record.value.getD [] ≠ [] := by
    rw [same, transport.sameValue envelope record writes]
    exact wireValue_ne_nil envelope
  exact ⟨offset, entry, ahead, found, same,
    sound.consumed found (Or.inl (working.place ▸ ahead)) nonempty⟩

/-- The row of another note. -/
def laterRow : ClaimedOutboxEvent :=
  { noteRow with id := "2" }

/-- The envelope of the other note. -/
def laterEnvelope : CloudEvent :=
  { noteEnvelope with id := "2" }

/-- The other note in its topic. -/
def laterEntry : LogEntry where
  record := { key := none, value := some laterEnvelope.wireValue, headers := [] }
  message := 1
  copies := 0

/-- The topic with both notes. -/
def bothNotes : KafkaLogs :=
  append (append (fun _ => []) ⟨"knowledge-events", 0⟩ noteEntry) ⟨"knowledge-events", 0⟩ laterEntry

/-- After the note has been published, another one is produced behind it and handled: by then
the first has been routed.
-/
theorem handled_in_order_note
    : ∃ before after middle pipeline delivery,
        Execution
            (PipelineStep knowledgeTransport noteReader plainAdapter.producer
              knowledgeLoop.replayer)
            (.start soleNote) before middle
        ∧ Execution
            (PipelineStep knowledgeTransport noteReader plainAdapter.producer
              knowledgeLoop.replayer)
            middle after pipeline
        ∧ pipeline.cluster.consumer.running ⟨"knowledge-events", 0⟩ = some delivery
        ∧ HandlerGiven "2" delivery.history
        ∧ ∃ offset entry,
            offset < delivery.offset
            ∧ (pipeline.cluster.logs ⟨"knowledge-events", 0⟩)[offset]? = some entry
            ∧ entry.record = noteEntry.record
            ∧ (RouteResolved noteReader pipeline.cluster ⟨"knowledge-events", 0⟩ offset entry
                ∨ InDeadLetters pipeline.cluster.logs "knowledge-events" entry) := by
  obtain ⟨⟨pool, cluster⟩, run, rows, started⟩ :=
    ships_soleNote noteReader plainAdapter.producer knowledgeLoop.replayer
  dsimp only at rows started
  subst started
  have lift : ∀ logs group label later next,
      label.Steady
      → GroupStep (consumerSpec noteReader plainAdapter.producer) logs group label later next
      → PipelineStep knowledgeTransport noteReader plainAdapter.producer knowledgeLoop.replayer
          ⟨pool, ⟨logs, group, .start⟩⟩ (.broker (.consumer label))
          ⟨pool, ⟨later, next, .start⟩⟩ :=
    fun _ _ _ _ _ _ taken => .broker (.consumer taken)
  have produced
      : PipelineStep knowledgeTransport noteReader plainAdapter.producer knowledgeLoop.replayer
          ⟨pool, .start (append (fun _ => []) ⟨"knowledge-events", 0⟩ noteEntry)⟩
          (.broker (.produced ⟨"knowledge-events", 0⟩ laterEntry.record))
          ⟨pool, .start bothNotes⟩ := by
    refine .broker (@ClusterStep.produced _ _ _ _ ⟨"knowledge-events", 0⟩ _ 1 ?_)
    intro other entry member
    have sole : other = ⟨"knowledge-events", 0⟩ ∧ entry = noteEntry := by
      obtain ⟨offset, found⟩ := List.getElem?_of_mem member
      rcases @getElem?_append (fun _ => []) _ _ noteEntry _ _ found with old | ⟨same, _, new⟩
      · cases old
      · exact ⟨same, new⟩
    rw [sole.2]
    decide
  obtain ⟨history, _, _, handled, _, _, alive⟩ :=
    @handles_sent noteRow noteEnvelope (noteEntry.payload ⟨"knowledge-events", 0⟩ 0)
      toCloudEvent_noteRow (by decide) rfl doubles_noteRow rfl
  have served
      : Served (consumerSpec noteReader plainAdapter.producer) ⟨"knowledge-events", 0⟩ 0 noteEntry
          bothNotes history bothNotes :=
    Served.unchanged bothNotes (fun event member _ =>
      .none bothNotes (fun input same => alive event member input (by rw [same])))
  obtain ⟨labels, group, first, idle, position, _⟩ :=
    @Served.delivery _ _ _ _ _ _ _ _ _ _ _ lift ⟨"knowledge-events", 0⟩ noteEntry history bothNotes
      bothNotes .start (List.mem_singleton_self _) rfl (by simp [bothNotes, Group.start]) served
      handled
  have second : group.position ⟨"knowledge-events", 0⟩ = 1 := by
    rw [position]
    exact Function.update_self ..
  obtain ⟨more, next, delivery, event, context, going, running, _, _, _, member, delivers⟩ :=
    @reads_sent _ _ _ _ _ lift laterRow laterEnvelope rfl (by decide) rfl doubles_noteRow bothNotes
      group 0 (by rw [idle]; rfl) laterEntry (by simp [second, bothNotes]) rfl
  have given : HandlerGiven "2" delivery.history := ⟨"note", event, context, _, member, delivers.id⟩
  have onward := (Execution.cons produced first).trans going
  have safe : Cluster.SafeOffsets ⟨bothNotes, next, .start⟩ := by
    intro partition
    have short := length_append_le (append (fun _ => []) ⟨"knowledge-events", 0⟩ noteEntry)
      ⟨"knowledge-events", 0⟩ laterEntry partition
    have shorter := length_append_le (fun _ => []) ⟨"knowledge-events", 0⟩ noteEntry partition
    exact (short.trans (Nat.succ_le_succ shorter)).trans (by simp)
  have outbox : OutboxOnly shipNote := by
    intro partition record among
    simp [shipNote] at among
  have published
      : .published (.answer 0 ⟨.publish noteEnvelope, .ok ()⟩) ⟨"knowledge-events", 0⟩
          noteEntry.record ∈ shipNote := by
    simp [shipNote]
  exact ⟨_, _, _, _, delivery, run, onward, running, given,
    handled_in_order outbox run onward
      (by simpa [rows] using doubles_noteRow) safe published (by decide)
      running given⟩

end SharedKernel.Outbox
