import SharedKernel.Messaging.PoisonPill

/-! No event is lost between the two groups: whatever crashes, rejections and redeliveries
occur, a record below a committed offset has been dealt with.
-/

namespace SharedKernel.Messaging

open Foundation Js

variable {consumer : ResilientEventConsumer} {producer : DeadLetterProducer}
  {replayer : DlqReplayConsumer}

/-- The offsets of all records are below 2^53. -/
def Cluster.SafeOffsets (cluster : Cluster) : Prop :=
  ∀ partition, (cluster.logs partition).length ≤ 2 ^ 53

/-- The router has resolved for the record, in one of its deliveries. -/
def RouteResolved (consumer : ResilientEventConsumer) (cluster : Cluster)
    (partition : TopicPartition) (offset : Nat) (entry : LogEntry)
    : Prop :=
  ∃ delivery,
    cluster.consumer.Delivered delivery
    ∧ delivery.partition = partition
    ∧ delivery.offset = offset
    ∧ delivery.record = entry
    ∧ consumer.Routed (entry.payload partition offset) delivery.history

/-- The dead letter of an entry: the same message with the same key and value, which names the
topic.
-/
def InDeadLetters (logs : KafkaLogs) (topic : String) (entry : LogEntry) : Prop :=
  ∃ index dead,
    dead ∈ logs ⟨deadLetterTopic topic, index⟩
    ∧ dead.message = entry.message
    ∧ dead.copies = entry.copies
    ∧ dead.record.key = entry.record.key
    ∧ dead.record.value = entry.record.value
    ∧ originalTopic dead.record.headers = some topic

/-- The next copy of an entry: the same message with the same key and value, republished once
more.
-/
def RepublishedTo (logs : KafkaLogs) (topic : String) (entry : LogEntry) : Prop :=
  ∃ index copy,
    copy ∈ logs ⟨topic, index⟩
    ∧ copy.message = entry.message
    ∧ copy.copies = entry.copies + 1
    ∧ copy.record.key = entry.record.key
    ∧ copy.record.value = entry.record.value

/-- A source record has been dealt with: it is empty, routed or dead-lettered. -/
def SourceAccounted (consumer : ResilientEventConsumer) (cluster : Cluster)
    (partition : TopicPartition) (offset : Nat) (entry : LogEntry)
    : Prop :=
  entry.record.value.getD [] = []
  ∨ RouteResolved consumer cluster partition offset entry
  ∨ InDeadLetters cluster.logs partition.topic entry

/-- A dead-letter record has been dealt with: it cannot be replayed, or has been. -/
def DeadLetterAccounted (replayer : DlqReplayConsumer) (cluster : Cluster) (entry : LogEntry)
    : Prop :=
  (originalTopic entry.record.headers).getD "" = ""
  ∨ (replayCount entry.record.headers).ge replayer.maxReplays = true
  ∨ ∃ topic,
      originalTopic entry.record.headers = some topic ∧ RepublishedTo cluster.logs topic entry

/-- An accepted dead letter with the entry's key and value is in the dead-letter topic. -/
def DeadLetterKept (entry : LogEntry) (event : ConsumerEvent) (logs : KafkaLogs) : Prop :=
  ∀ input,
    event = ⟨.deadLetter input, .ok ()⟩
    → input.key = entry.record.key
    → input.value = entry.record.value
    → InDeadLetters logs input.topic entry

/-- An accepted replay with the entry's key and value is in its topic. -/
def ReplayKept (entry : LogEntry) (event : ReplayEvent) (logs : KafkaLogs) : Prop :=
  ∀ topic headers,
    event = ⟨.send topic entry.record.key entry.record.value headers, .ok ()⟩
    → RepublishedTo logs topic entry

/-- The dead-letter producer leaves what it has accepted. -/
theorem consumerSpec_leaves (consumer : ResilientEventConsumer) (producer : DeadLetterProducer)
    : (consumerSpec consumer producer).Leaves DeadLetterKept := by
  constructor
  · intro delivery event logs later appended input accepted key value
    cases appended with
    | @sent written record index reply _ writes =>
        obtain rfl := ConsumerOp.deadLetter.inj (congrArg Event.op accepted)
        exact ⟨index, _, mem_append_self .., rfl, rfl,
          (producer.sameKey _ _ writes).trans key, (producer.sameValue _ _ writes).trans value,
          producer.origin _ _ writes⟩
    | none _ quiet => exact absurd accepted (quiet input)
  · intro entry event logs later grow kept input accepted key value
    obtain ⟨index, dead, member, same⟩ := kept input accepted key value
    exact ⟨index, dead, (grow _).subset member, same⟩

/-- The producer leaves what it has accepted. -/
theorem replaySpec_leaves (replayer : DlqReplayConsumer)
    : (replaySpec replayer).Leaves ReplayKept := by
  constructor
  · intro delivery event logs later appended topic headers accepted
    cases appended with
    | sent index reply _ =>
        obtain ⟨rfl, rfl, rfl, rfl⟩ := ReplayOp.send.inj (congrArg Event.op accepted)
        exact ⟨index, _, mem_append_self .., rfl, rfl, rfl, rfl⟩
    | none _ quiet => exact absurd accepted (quiet topic _ _ headers)
  · intro entry event logs later grow kept topic headers accepted
    obtain ⟨index, copy, member, same⟩ := kept topic headers accepted
    exact ⟨index, copy, (grow _).subset member, same⟩

/-- Both groups are sound over the shared logs, and what they have sent is there. -/
structure Cluster.Sound (consumer : ResilientEventConsumer) (producer : DeadLetterProducer)
    (replayer : DlqReplayConsumer) (cluster : Cluster)
    : Prop where
  consumer
    : cluster.consumer.Sound (consumerSpec consumer producer)
        (fun partition offset entry history =>
          consumer.Settled (entry.payload partition offset) history)
        cluster.logs
  deadLetters : cluster.consumer.Kept DeadLetterKept cluster.logs
  replayer
    : cluster.replayer.Sound (replaySpec replayer)
        (fun partition offset entry history =>
          replayer.Settled (entry.payload partition offset) history)
        cluster.logs
  replays : cluster.replayer.Kept ReplayKept cluster.logs

/-- Offsets that are safe after a step were safe before it. -/
theorem ClusterStep.safeOffsets {cluster next : Cluster} {label : ClusterLabel}
    (taken : ClusterStep consumer producer replayer cluster label next)
    (safe : next.SafeOffsets)
    : cluster.SafeOffsets :=
  fun partition => le_trans (taken.grows partition).length_le (safe partition)

/-- Every step keeps the cluster sound: the group that moves by its own rules, the other
because the logs only grow.
-/
theorem Cluster.Sound.step {cluster next : Cluster} {label : ClusterLabel}
    (sound : cluster.Sound consumer producer replayer)
    (taken : ClusterStep consumer producer replayer cluster label next)
    (safe : cluster.SafeOffsets)
    : next.Sound consumer producer replayer := by
  have grow := taken.grows
  cases taken with
  | consumer taken =>
      have lawful := consumerSpec_lawful consumer producer
      exact
        {
          consumer := sound.consumer.step lawful safe taken
          deadLetters :=
            sound.deadLetters.step (consumerSpec_leaves consumer producer) lawful.growing
              sound.consumer.busy taken
          replayer := sound.replayer.grow grow
          replays := sound.replays.grow (replaySpec_leaves replayer) grow
        }
  | replayer taken =>
      have lawful := replaySpec_lawful replayer
      exact
        {
          consumer := sound.consumer.grow grow
          deadLetters := sound.deadLetters.grow (consumerSpec_leaves consumer producer) grow
          replayer := sound.replayer.step lawful safe taken
          replays :=
            sound.replays.step (replaySpec_leaves replayer) lawful.growing
              sound.replayer.busy taken
        }
  | produced partition record fresh =>
      exact
        {
          consumer := sound.consumer.grow grow
          deadLetters := sound.deadLetters.grow (consumerSpec_leaves consumer producer) grow
          replayer := sound.replayer.grow grow
          replays := sound.replays.grow (replaySpec_leaves replayer) grow
        }

/-- A cluster whose groups have read nothing is sound. -/
theorem Cluster.sound_start (logs : KafkaLogs)
    : (Cluster.start logs).Sound consumer producer replayer where
  consumer := Group.sound_start _ _ _
  deadLetters := Group.kept_start _ _
  replayer := Group.sound_start _ _ _
  replays := Group.kept_start _ _

/-- Every reachable cluster with safe offsets is sound, by induction on the run. -/
theorem Cluster.sound {logs : KafkaLogs} {labels : List ClusterLabel} {cluster : Cluster}
    (run : Execution (ClusterStep consumer producer replayer) (.start logs) labels cluster)
    (safe : cluster.SafeOffsets)
    : cluster.Sound consumer producer replayer := by
  induction run with
  | start => exact sound_start logs
  | snoc earlier taken ih =>
      have before := taken.safeOffsets safe
      exact (ih before).step taken before

/-- In every reachable state of every run, each source record below the committed offset of
the consumer is empty, routed or dead-lettered, and each dead-letter record below that of the
replay consumer cannot be replayed or has been; witness: both groups are sound, and what they
have sent is in the logs.
-/
theorem no_event_lost {logs : KafkaLogs} {labels : List ClusterLabel} {cluster : Cluster}
    (run : Execution (ClusterStep consumer producer replayer) (.start logs) labels cluster)
    (safe : cluster.SafeOffsets)
    : (∀ partition offset entry,
          offset < cluster.consumer.committed partition
          → (cluster.logs partition)[offset]? = some entry
          → SourceAccounted consumer cluster partition offset entry)
      ∧ (∀ partition offset entry,
          offset < cluster.replayer.committed partition
          → (cluster.logs partition)[offset]? = some entry
          → DeadLetterAccounted replayer cluster entry) := by
  have sound := Cluster.sound run safe
  constructor
  · intro partition offset entry below found
    obtain ⟨record, found', delivery, delivered, rfl, rfl, same, settled⟩ :=
      sound.consumer.handled partition offset (Or.inr below)
    obtain rfl : record = entry := Option.some.inj (found'.symm.trans found)
    rcases settled with empty | routed | ⟨input, sent, topic, key, value⟩
    · exact Or.inl empty
    · exact Or.inr (Or.inl ⟨delivery, delivered, rfl, rfl, same, routed⟩)
    · have kept := sound.deadLetters delivery delivered _ sent
      rw [same] at kept
      have inDeadLetters := kept input rfl key value
      rw [topic] at inDeadLetters
      exact Or.inr (Or.inr inDeadLetters)
  · intro partition offset entry below found
    obtain ⟨record, found', delivery, delivered, rfl, rfl, same, settled⟩ :=
      sound.replayer.handled partition offset (Or.inr below)
    obtain rfl : record = entry := Option.some.inj (found'.symm.trans found)
    rcases settled with (missing | spent) | ⟨topic, headers, origin, sent⟩
    · exact Or.inl missing
    · exact Or.inr (Or.inl spent)
    · have kept := sound.replays delivery delivered _ sent
      rw [same] at kept
      exact Or.inr (Or.inr ⟨topic, origin, kept topic headers rfl⟩)

/-- A message that is no JSON. -/
def poisonPill : LogEntry where
  record := { key := none, value := some [0x78], headers := [] }
  message := 0
  copies := 0

/-- The poison pill in the topic of the knowledge events. -/
def poisonedLogs : KafkaLogs :=
  append (fun _ => []) ⟨"knowledge-events", 0⟩ poisonPill

/-- The poison pill that the consumer has committed is in the dead-letter topic. -/
theorem no_event_lost_poisonPill
    : ∃ labels cluster,
        Execution
            (ClusterStep knowledgeLoop.consumer knowledgeLoop.adapter.producer
              knowledgeLoop.replayer)
            (.start poisonedLogs) labels cluster
        ∧ cluster.SafeOffsets
        ∧ cluster.consumer.committed ⟨"knowledge-events", 0⟩ = 1
        ∧ ∀ entry,
            (cluster.logs ⟨"knowledge-events", 0⟩)[0]? = some entry
            → SourceAccounted knowledgeLoop.consumer cluster ⟨"knowledge-events", 0⟩ 0 entry := by
  obtain ⟨input, labels, group, _, _, _, run, _, _, committed⟩ :=
    @ReplayLoop.dead_letters knowledgeLoop (.start poisonedLogs) 0 _ rfl rfl
      poisonPill_knowledgeLoop
  have run' := run.mono (fun _ _ _ taken => taken.1)
  have moved : group.committed ⟨"knowledge-events", 0⟩ = 1 := committed (by decide)
  have below : 0 < group.committed ⟨"knowledge-events", 0⟩ := by
    rw [moved]
    exact Nat.one_pos
  have safe : ∀ entry partition,
      (append poisonedLogs ⟨deadLetterTopic knowledgeLoop.topic, 0⟩ entry partition).length
        ≤ 2 ^ 53 := by
    intro entry partition
    have second := length_append_le poisonedLogs ⟨deadLetterTopic knowledgeLoop.topic, 0⟩ entry
      partition
    have first := length_append_le (fun _ => []) ⟨"knowledge-events", 0⟩ poisonPill partition
    have short : (poisonedLogs partition).length ≤ 1 := first
    omega
  refine ⟨labels, _, run', safe _, moved, ?_⟩
  intro entry found
  exact (no_event_lost run' (safe _)).1 _ 0 entry below found

end SharedKernel.Messaging
