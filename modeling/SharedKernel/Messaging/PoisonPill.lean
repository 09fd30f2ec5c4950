import SharedKernel.Messaging.ReplayLoop

/-! One delivery of a poison pill: the message goes to the dead-letter topic and its offset is
committed.
-/

namespace SharedKernel.Messaging

open Foundation Js

/-- A value that is no tombstone and no event either. -/
def PoisonPill (consumer : ResilientEventConsumer) (value : Option Buffer) : Prop :=
  (value.map Buffer.toText).getD "" ≠ ""
  ∧ ∃ err, consumer.readEnvelope ((value.map Buffer.toText).getD "") = .error err

/-- The errors of the envelope check can be printed, by its cases. -/
theorem printable_readEnvelope {consumer : ResilientEventConsumer} {raw : String} {err : Thrown}
    (rejected : consumer.readEnvelope raw = .error err)
    : ∃ text, err.toText = .ok text := by
  unfold ResilientEventConsumer.readEnvelope at rejected
  split at rejected
  · cases rejected
    exact ⟨_, rfl⟩
  · cases rejected
    exact ⟨_, rfl⟩
  · split at rejected
    · cases rejected
      exact ⟨_, rfl⟩
    · cases rejected

/-- The operations of one delivery of a poison pill. -/
def poisonPillEvents (payload : EachMessagePayload) (error : String) : List ConsumerEvent :=
  [
    ⟨.log .error "Poison pill — dead-lettering message", ()⟩,
    ⟨.deadLetter (ResilientEventConsumer.deadLetterInput payload .poisonPill error), .ok ()⟩,
    ⟨.commitOffsets payload.topic payload.partition (nextOffset payload.message.offset), .ok ()⟩
  ]

/-- A poison pill is logged, dead-lettered and committed. -/
theorem finishes_poisonPill (consumer : ResilientEventConsumer) (payload : EachMessagePayload)
    (poison : PoisonPill consumer payload.message.value)
    : ∃ error,
        Finishes (consumer.eachMessage payload) (poisonPillEvents payload error) (.ok ()) := by
  obtain ⟨nonempty, err, rejected⟩ := poison
  obtain ⟨error, shown⟩ := printable_readEnvelope rejected
  refine ⟨error, ?_⟩
  simp only [ResilientEventConsumer.eachMessage, if_neg nonempty, rejected,
    ResilientEventConsumer.deadLetter, shown, Program.settle_ok]
  exact .step _ (.step _ (.step _ (.refl _)))

namespace ReplayLoop

variable {loop : ReplayLoop} {cluster : Cluster}

/-- The dead letter of an entry. -/
def deadLetter (loop : ReplayLoop) (input : DeadLetterInput) (entry : LogEntry) : LogEntry :=
  { entry with record := loop.adapter.write input }

/-- The operations on a poison pill append its dead letter. -/
theorem served_poisonPill (loop : ReplayLoop) (partition : TopicPartition) (offset : Nat)
    (entry : LogEntry) (logs : KafkaLogs) (error : String)
    : Served (consumerSpec loop.consumer loop.adapter.producer) partition offset entry logs
        (poisonPillEvents (entry.payload partition offset) error)
        (append logs ⟨deadLetterTopic partition.topic, 0⟩
          (loop.deadLetter
            (ResilientEventConsumer.deadLetterInput (entry.payload partition offset) .poisonPill
              error)
            entry)) := by
  refine .skip ?_ (.cons ?_ (Served.unchanged _ ?_))
  · intro delivery
    exact .none logs (by simp)
  · intro history rest
    exact @ConsumerAppends.sent loop.adapter.producer _ _ _ 0 (.ok ()) logs rfl
  · intro event member delivery
    obtain rfl := List.mem_singleton.mp member
    exact .none _ (by simp)

/-- The loop lets its consumer run. -/
theorem consumer_cleanStep (loop : ReplayLoop) (cluster : Cluster)
    (logs : KafkaLogs) (group : Group ConsumerEffects Thrown TopicPartition LogEntry)
    (label : GroupLabel ConsumerEffects TopicPartition) (later : KafkaLogs)
    (next : Group ConsumerEffects Thrown TopicPartition LogEntry) (steady : label.Steady)
    (taken
      : GroupStep (consumerSpec loop.consumer loop.adapter.producer) logs group label later next)
    : loop.CleanStep { cluster with logs, consumer := group } (.consumer label)
        { cluster with logs := later, consumer := next } :=
  ⟨.consumer taken, steady⟩

/-- The next record of an idle consumer goes to the dead-letter topic, if it is a poison pill.
-/
theorem dead_letters {partition : Nat} {entry : LogEntry}
    (idle : cluster.consumer.running ⟨loop.topic, partition⟩ = none)
    (next
      : (cluster.logs ⟨loop.topic, partition⟩)[
            cluster.consumer.position ⟨loop.topic, partition⟩]?
        = some entry)
    (poison : PoisonPill loop.consumer entry.record.value)
    : ∃ input labels group,
        input.topic = loop.topic
        ∧ input.key = entry.record.key
        ∧ input.value = entry.record.value
        ∧ Execution loop.CleanStep cluster labels
            {
              cluster with
              logs :=
                append cluster.logs ⟨deadLetterTopic loop.topic, 0⟩ (loop.deadLetter input entry)
              consumer := group
            }
        ∧ group.running = cluster.consumer.running
        ∧ group.position
          = Function.update cluster.consumer.position ⟨loop.topic, partition⟩
              (cluster.consumer.position ⟨loop.topic, partition⟩ + 1)
        ∧ (cluster.consumer.position ⟨loop.topic, partition⟩ < 2 ^ 53
          → group.committed ⟨loop.topic, partition⟩
            = cluster.consumer.position ⟨loop.topic, partition⟩ + 1) := by
  obtain ⟨error, run⟩ :=
    finishes_poisonPill loop.consumer
      (entry.payload ⟨loop.topic, partition⟩
        (cluster.consumer.position ⟨loop.topic, partition⟩))
      poison
  have served :=
    loop.served_poisonPill ⟨loop.topic, partition⟩
      (cluster.consumer.position ⟨loop.topic, partition⟩) entry cluster.logs error
  obtain ⟨labels, group, reached, running, position, committed⟩ :=
    served.delivery (loop.consumer_cleanStep cluster) (by simp [consumerSpec, loop.subscribes])
      idle next run
  refine ⟨_, labels, group, rfl, rfl, rfl, reached, running, position, ?_⟩
  intro safe
  have moved := offset?_nextOffset safe
  simp [committed, poisonPillEvents, GroupSpec.move, consumerSpec, LogEntry.payload,
    KafkaRecord.message, moved]

end ReplayLoop

/-- One byte that is no JSON. -/
theorem poisonPill_knowledgeLoop : PoisonPill knowledgeLoop.consumer (some [0x78]) := by
  have text : Buffer.toText [0x78] = "x" := by decide +kernel
  have unreadable : Json.parse "x" = none := by decide +kernel
  simp [PoisonPill, text, ResilientEventConsumer.readEnvelope, unreadable]

end SharedKernel.Messaging
